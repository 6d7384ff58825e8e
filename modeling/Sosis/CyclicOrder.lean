import Mathlib.Algebra.Group.Fin.Basic
import Mathlib.Algebra.GroupWithZero.Nat
import Mathlib.Data.Fintype.EquivFin
import Mathlib.Data.List.Rotate

-- The members of a set of places on a ring, in the order a search passes them that
-- starts behind one place and goes up.
namespace Sosis.CyclicOrder

variable {n : Nat} [NeZero n]

def upFrom : Nat → Fin n → List (Fin n)
  | 0,_ => []
  | k+1,i => i :: upFrom k (i+1)

def order (p : Fin n → Bool) (cur : Fin n) : List (Fin n) := (upFrom n (cur+1)).filter p

@[simp] theorem length_upFrom (k : Nat) (i : Fin n) : (upFrom k i).length = k := by
  induction k generalizing i with
  | zero => rfl
  | succ k ih => rw [upFrom,List.length_cons,ih]

theorem ofNat_add (a b : Nat) : Fin.ofNat n (a+b) = Fin.ofNat n a + Fin.ofNat n b := by
  apply Fin.ext
  simp only [Fin.add_def,Fin.ofNat]
  exact Nat.add_mod a b n

theorem ofNat_round : Fin.ofNat n n = 0 := by
  apply Fin.ext
  simp [Fin.ofNat]

theorem place_add (i : Fin n) (k : Nat) : i + 1 + Fin.ofNat n k = i + Fin.ofNat n (k+1) := by
  have one : Fin.ofNat n 1 = 1 := rfl
  rw [Nat.add_comm k,ofNat_add,one,add_assoc]

theorem upFrom_append (a b : Nat) (i : Fin n) : upFrom (a+b) i = upFrom a i ++ upFrom b (i + Fin.ofNat n a) := by
  induction a generalizing i with
  | zero => simp [upFrom,Fin.ofNat]
  | succ a ih =>
    rw [Nat.succ_add,upFrom,ih,place_add]
    rfl

theorem mem_upFrom {k : Nat} {i j : Fin n} : j ∈ upFrom k i ↔ ∃ m < k, j = i + Fin.ofNat n m := by
  induction k generalizing i with
  | zero => simp [upFrom]
  | succ k ih =>
    rw [upFrom,List.mem_cons,ih]
    constructor
    · rintro (rfl | ⟨m,below,rfl⟩)
      · exact ⟨0,Nat.zero_lt_succ k,by simp [Fin.ofNat]⟩
      · exact ⟨m+1,Nat.succ_lt_succ below,place_add i m⟩
    · rintro ⟨m,below,rfl⟩
      cases m with
      | zero => exact Or.inl (by simp [Fin.ofNat])
      | succ m => exact Or.inr ⟨m,Nat.lt_of_succ_lt_succ below,(place_add i m).symm⟩

-- A full round meets every place, so it meets each of them once.
theorem mem_round (i j : Fin n) : j ∈ upFrom n i := by
  refine mem_upFrom.mpr ⟨(j-i).val,(j-i).isLt,?_⟩
  rw [Fin.ofNat_val_eq_self]
  exact (add_sub_cancel i j).symm

theorem nodup_round (i : Fin n) : (upFrom n i).Nodup := by
  refine List.nodup_iff_injective_get.mpr ?_
  have onto : Function.Surjective (upFrom n i).get := fun j => List.get_of_mem (mem_round i j)
  refine ((Fintype.bijective_iff_surjective_and_card _).mpr ⟨onto,?_⟩).1
  rw [Fintype.card_fin,Fintype.card_fin,length_upFrom]

variable {p : Fin n → Bool} {cur i : Fin n}

theorem mem_order {j : Fin n} : j ∈ order p cur ↔ p j = true := by
  unfold order
  rw [List.mem_filter]
  exact and_iff_right (mem_round (cur+1) j)

theorem nodup_order : (order p cur).Nodup := (nodup_round (cur+1)).filter _

theorem length_order : (order p cur).length = (Finset.univ.filter fun j => p j = true).card := by
  rw [← List.toFinset_card_of_nodup (nodup_order (p := p))]
  congr 1
  ext j
  rw [List.mem_toFinset,mem_order,Finset.mem_filter]
  exact (and_iff_right (Finset.mem_univ j)).symm

-- Behind the first place of the order the others follow, and it comes last.
theorem order_first {rest : List (Fin n)} (first : order p cur = i :: rest) : order p i = rest ++ [i] := by
  obtain ⟨before,behind,split,passed,here,others⟩ := List.filter_eq_cons_iff.mp first
  have parts : n = before.length + (behind.length + 1) := by
    have lengths := congrArg List.length split
    rw [length_upFrom,List.length_append,List.length_cons] at lengths
    exact lengths
  have cut : upFrom n (cur+1) = upFrom before.length (cur+1) ++
      upFrom (behind.length+1) (cur + 1 + Fin.ofNat n before.length) := by
    rw [← upFrom_append,← parts]
  rw [cut] at split
  obtain ⟨front,back⟩ := List.append_inj split (length_upFrom _ _)
  rw [upFrom,List.cons.injEq] at back
  obtain ⟨at_,tail⟩ := back
  have around : i + 1 + Fin.ofNat n behind.length = cur + 1 := by
    rw [← at_,place_add,add_assoc,← ofNat_add,← parts,ofNat_round,add_zero]
  have round : upFrom n (i+1) = behind ++ (before ++ [i]) := by
    have rest : n = behind.length + (before.length + 1) := by omega
    have back : upFrom (behind.length + (before.length + 1)) (i+1) = behind ++ (before ++ [i]) := by
      rw [upFrom_append,around,upFrom_append,front,at_]
      rw [at_] at tail
      rw [tail]
      rfl
    rwa [← rest] at back
  unfold order
  rw [round,List.filter_append,List.filter_append,others,List.filter_eq_nil_iff.mpr passed,List.nil_append]
  simp [here]

theorem order_rotate {rest : List (Fin n)} (first : order p cur = i :: rest) : order p i = (order p cur).rotate 1 := by
  rw [order_first first,first]
  simp

-- The first place of the order is no further than any other member is, so each member
-- comes nearer.
theorem order_nearer {rest : List (Fin n)} {j : Fin n} (first : order p cur = i :: rest) (member : p j = true)
    (other : j ≠ cur) : (j - i).val < (j - cur).val := by
  obtain ⟨before,behind,split,passed,_,_⟩ := List.filter_eq_cons_iff.mp first
  have parts : n = before.length + (behind.length + 1) := by
    have lengths := congrArg List.length split
    rw [length_upFrom,List.length_append,List.length_cons] at lengths
    exact lengths
  have cut : upFrom n (cur+1) = upFrom before.length (cur+1) ++
      upFrom (behind.length+1) (cur + 1 + Fin.ofNat n before.length) := by
    rw [← upFrom_append,← parts]
  rw [cut] at split
  obtain ⟨front,back⟩ := List.append_inj split (length_upFrom _ _)
  rw [upFrom,List.cons.injEq] at back
  have at_ : i = cur + Fin.ofNat n (before.length+1) := by rw [← back.1,place_add]
  have away : 0 < (j - cur).val := by
    refine Nat.pos_of_ne_zero fun zero => other (sub_eq_zero.mp (Fin.ext ?_))
    rw [zero,Fin.val_zero]
  have place : j = cur + Fin.ofNat n (j - cur).val := by
    rw [Fin.ofNat_val_eq_self]
    exact (add_sub_cancel cur j).symm
  -- the places passed before the first one are no members
  have far : before.length + 1 ≤ (j - cur).val := by
    by_contra near
    have inFront : j ∈ upFrom before.length (cur+1) := by
      refine mem_upFrom.mpr ⟨(j - cur).val - 1,by omega,?_⟩
      rw [place_add,show (j - cur).val - 1 + 1 = (j - cur).val by omega]
      exact place
    exact passed j (front ▸ inFront) member
  have left : j - i = Fin.ofNat n ((j - cur).val - (before.length+1)) := by
    have whole : Fin.ofNat n (j - cur).val = Fin.ofNat n (before.length+1) + Fin.ofNat n ((j - cur).val - (before.length+1)) := by
      rw [← ofNat_add,Nat.add_sub_cancel' far]
    rw [at_,sub_eq_iff_eq_add',add_assoc,← whole]
    exact place
  rw [left,Fin.val_ofNat]
  exact Nat.lt_of_le_of_lt (Nat.mod_le _ _) (by omega)

-- A turn goes to the first place of the order, which is the one to start behind next.
def turns (p : Fin n → Bool) : Nat → Fin n → List (Fin n)
  | 0,_ => []
  | k+1,cur => match order p cur with
    | [] => []
    | i :: _ => i :: turns p k i

theorem turns_getElem {k j : Nat} (busy : order p cur ≠ []) (below : j < k) :
    (turns p k cur)[j]? = (order p cur)[j % (order p cur).length]? := by
  induction k generalizing cur j with
  | zero => exact absurd below (Nat.not_lt_zero j)
  | succ k ih =>
    obtain ⟨i,rest,first⟩ := List.exists_cons_of_ne_nil busy
    have later := order_rotate first
    have positive : 0 < (order p cur).length := List.length_pos_of_ne_nil busy
    simp only [turns,first]
    rw [← first]
    cases j with
    | zero => simp [first]
    | succ j =>
      have busy' : order p i ≠ [] := by
        rw [order_first first]
        simp
      rw [List.getElem?_cons_succ,ih busy' (Nat.lt_of_succ_lt_succ below),later,List.length_rotate,
        List.getElem?_rotate (Nat.mod_lt j positive),Nat.mod_add_mod]

theorem length_turns {k : Nat} (busy : order p cur ≠ []) : (turns p k cur).length = k := by
  induction k generalizing cur with
  | zero => rfl
  | succ k ih =>
    obtain ⟨i,rest,first⟩ := List.exists_cons_of_ne_nil busy
    simp only [turns,first,List.length_cons]
    rw [ih]
    rw [order_first first]
    simp

-- As many turns in a row as there are members go to each member once, in the order.
theorem turns_window {k s : Nat} (busy : order p cur ≠ []) (inside : s + (order p cur).length ≤ k) :
    ((turns p k cur).drop s).take (order p cur).length = (order p cur).rotate s := by
  refine List.ext_getElem? fun j => ?_
  by_cases below : j < (order p cur).length
  · rw [List.getElem?_take_of_lt below,List.getElem?_drop,turns_getElem busy (by omega),List.getElem?_rotate below,Nat.add_comm j]
  · rw [List.getElem?_eq_none (by simp; omega),List.getElem?_eq_none (by simpa using below)]

end Sosis.CyclicOrder
