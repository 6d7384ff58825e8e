import Mathlib.Data.Set.Defs
import Mathlib.Logic.Function.Iterate
import Mathlib.Order.Nat

-- Nodes that name their parent, over any type of nodes.
namespace Sosis.RootedLinks

-- Following the links from here ends at the root.
inductive Rooted (parent : α → α) (root : α) : α → Prop where
  | root : Rooted parent root root
  | up : Rooted parent root (parent a) → Rooted parent root a

variable {parent parent' : α → α} {root a : α}

theorem Rooted.iterate (rooted : Rooted parent root a) : ∃ n, parent^[n] a = root := by
  induction rooted with
  | root => exact ⟨0,rfl⟩
  | up _ ih =>
    obtain ⟨n,reaches⟩ := ih
    exact ⟨n+1,reaches⟩

-- A rank that falls along every link.
theorem Rooted.ranked (parent : α → α) (root : α) :
    ∃ rank : α → Nat, ∀ a, Rooted parent root a → a ≠ root → rank (parent a) < rank a := by
  classical
  refine ⟨fun a => if reaches : ∃ n, parent^[n] a = root then Nat.find reaches else 0,fun a rooted notRoot => ?_⟩
  have reaches := rooted.iterate
  have least := Nat.find_spec reaches
  cases steps : Nat.find reaches with
  | zero =>
    rw [steps] at least
    exact absurd least notRoot
  | succ n =>
    rw [steps] at least
    have onward : ∃ n, parent^[n] (parent a) = root := ⟨n,least⟩
    simp only [dif_pos reaches,dif_pos onward,steps]
    exact Nat.lt_succ_of_le (Nat.find_min' onward least)

-- The links of some members, which lead to members again, are all that counts for them.
theorem Rooted.congr {members : Set α} (closed : ∀ b ∈ members, b ≠ root → parent b ∈ members)
    (same : ∀ b ∈ members, b ≠ root → parent' b = parent b) (rooted : Rooted parent root a) (member : a ∈ members) :
    Rooted parent' root a := by
  induction rooted with
  | root => exact .root
  | @up b _ ih =>
    by_cases atRoot : b = root
    · rw [atRoot]
      exact .root
    · refine .up ?_
      rw [same b member atRoot]
      exact ih (closed b member atRoot)

end Sosis.RootedLinks
