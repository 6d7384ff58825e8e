import Mathlib.Data.Fintype.Card

namespace Sosis.FirstFit

-- `for (i = lo; i < n; i++) if (p(i)) return i;` with `none` for falling through.
def searchFrom {n : Nat} (p : Fin n → Bool) : Nat → Nat → Option (Fin n)
  | 0,_ => none
  | fuel+1,lo => if bound : lo < n then
      if p ⟨lo,bound⟩ then some ⟨lo,bound⟩ else searchFrom p fuel (lo+1)
    else none

def firstFit {n : Nat} (p : Fin n → Bool) (lo : Nat) : Option (Fin n) := searchFrom p (n-lo) lo

variable {n : Nat} {p : Fin n → Bool} {lo : Nat} {i : Fin n}

theorem searchFrom_some (enough : n ≤ lo+fuel) : searchFrom p fuel lo = some i ↔
    lo ≤ i.val ∧ p i = true ∧ ∀ j : Fin n, lo ≤ j.val → j < i → p j = false := by
  induction fuel generalizing lo with
  | zero => simp only [searchFrom]; constructor <;> intro claim
            · cases claim
            · omega
  | succ fuel ih =>
    unfold searchFrom
    split
    · rename_i bound
      split
      · rename_i here
        constructor
        · intro equal
          cases Option.some.inj equal
          exact ⟨Nat.le_refl _,here,fun j low high => absurd (Fin.lt_def.mp high) (by simp; omega)⟩
        · rintro ⟨low,holds,before⟩
          by_contra different
          have strict : lo < i.val := by
            rcases Nat.lt_or_eq_of_le low with strict | equal
            · exact strict
            · exact absurd (congrArg some (Fin.ext equal)) different
          have clash := before ⟨lo,bound⟩ (Nat.le_refl _) (Fin.lt_def.mpr strict)
          rw [here] at clash
          cases clash
      · rename_i here
        rw [ih (by omega)]
        constructor
        · rintro ⟨low,holds,before⟩
          refine ⟨by omega,holds,fun j lowJ high => ?_⟩
          rcases Nat.lt_or_eq_of_le lowJ with strict | equal
          · exact before j strict high
          · have same : j = ⟨lo,bound⟩ := Fin.ext equal.symm
            subst same
            simpa using here
        · rintro ⟨low,holds,before⟩
          refine ⟨?_,holds,fun j lowJ high => before j (by omega) high⟩
          rcases Nat.lt_or_eq_of_le low with strict | equal
          · exact strict
          · have same : i = ⟨lo,bound⟩ := Fin.ext equal.symm
            subst same
            exact absurd holds here
    · rename_i bound
      constructor
      · intro claim; cases claim
      · rintro ⟨low,_,_⟩; omega

theorem searchFrom_none (enough : n ≤ lo+fuel) : searchFrom p fuel lo = none ↔
    ∀ j : Fin n, lo ≤ j.val → p j = false := by
  induction fuel generalizing lo with
  | zero => simp only [searchFrom,true_iff]; intro j low; omega
  | succ fuel ih =>
    unfold searchFrom
    split
    · rename_i bound
      split
      · rename_i here
        simp only [reduceCtorEq,false_iff,not_forall]
        exact ⟨⟨lo,bound⟩,Nat.le_refl _,by simp [here]⟩
      · rename_i here
        rw [ih (by omega)]
        constructor
        · intro rest j low
          rcases Nat.lt_or_eq_of_le low with strict | equal
          · exact rest j strict
          · have same : j = ⟨lo,bound⟩ := Fin.ext equal.symm
            subst same
            simpa using here
        · exact fun all j low => all j (by omega)
    · simp only [true_iff]; intro j low; omega

theorem firstFit_some : firstFit p lo = some i ↔
    lo ≤ i.val ∧ p i = true ∧ ∀ j : Fin n, lo ≤ j.val → j < i → p j = false :=
  searchFrom_some (by omega)

theorem firstFit_none : firstFit p lo = none ↔ ∀ j : Fin n, lo ≤ j.val → p j = false :=
  searchFrom_none (by omega)

theorem firstFit_isSome (low : lo ≤ i.val) (holds : p i = true) : ∃ j, firstFit p lo = some j := by
  cases found : firstFit p lo with
  | some j => exact ⟨j,rfl⟩
  | none => rw [firstFit_none.mp found i low] at holds; cases holds

end Sosis.FirstFit
