import Mathlib.Data.List.FinRange
import Mathlib.Logic.Function.Basic

-- An array that is filled from the front with what a list has to offer, and that is
-- then read to its end: behind what was filled in stands what stood there before.
namespace Sosis.PrefixFill
variable {α β : Type} {n : Nat} {p : α → Bool} {f : α → β}

-- `if (p(a)) { ptr[count] = f(a); count++; }` with `none` for a store behind the array.
def push (p : α → Bool) (f : α → β) (filled : (Fin n → β) × Nat) (a : α) : Option ((Fin n → β) × Nat) :=
  if p a then
    if room : filled.2 < n then some (Function.update filled.1 ⟨filled.2,room⟩ (f a),filled.2+1) else none
  else some filled

def filledWith (ptr : Fin n → β) (count : Nat) (items : List β) : Fin n → β :=
  fun j => if j.val < count then ptr j else (items[j.val-count]?).getD (ptr j)

theorem filledWith_nil (ptr : Fin n → β) (count : Nat) : filledWith ptr count [] = ptr := by
  funext j
  simp [filledWith]

theorem filledWith_cons (ptr : Fin n → β) {count : Nat} (room : count < n) (b : β) (items : List β) :
    filledWith (Function.update ptr ⟨count,room⟩ b) (count+1) items = filledWith ptr count (b :: items) := by
  funext j
  rcases Nat.lt_trichotomy j.val count with before | here | behind
  · have other : j ≠ ⟨count,room⟩ := fun same => before.ne (congrArg Fin.val same)
    simp only [filledWith,if_pos before,if_pos (before.trans (Nat.lt_succ_self count)),Function.update_of_ne other]
  · obtain rfl : j = ⟨count,room⟩ := Fin.ext here
    simp [filledWith]
  · have other : j ≠ ⟨count,room⟩ := fun same => behind.ne' (congrArg Fin.val same)
    have next : j.val - count = (j.val - (count+1)) + 1 := by omega
    simp only [filledWith,if_neg (show ¬ j.val < count+1 by omega),if_neg behind.not_gt,Function.update_of_ne other,
      next,List.getElem?_cons_succ]

theorem foldlM_push {l : List α} {ptr : Fin n → β} {count : Nat} (room : count + (l.filter p).length ≤ n) :
    l.foldlM (push p f) (ptr,count) =
      some (filledWith ptr count ((l.filter p).map f),count + (l.filter p).length) := by
  induction l generalizing ptr count with
  | nil => simp [filledWith_nil]
  | cons a l ih =>
    rw [List.foldlM_cons]
    by_cases taken : p a = true
    · rw [List.filter_cons_of_pos taken,List.length_cons] at room ⊢
      have here : count < n := by omega
      simp only [push,if_pos taken,dif_pos here,Option.bind_eq_bind,Option.bind_some]
      rw [ih (by omega),filledWith_cons,List.map_cons,Nat.add_assoc,Nat.add_comm 1]
    · rw [List.filter_cons_of_neg taken] at room ⊢
      simp only [push,if_neg taken,Option.bind_eq_bind,Option.bind_some]
      exact ih room

-- What a search over the whole array can come across.
theorem exists_filled (found : β → Prop) (ptr : Fin n → β) {items : List β} (size : items.length ≤ n) :
    (∃ j, found (filledWith ptr 0 items j)) ↔
      (∃ b ∈ items, found b) ∨ ∃ j : Fin n, items.length ≤ j.val ∧ found (ptr j) := by
  have inside : ∀ j : Fin n, ∀ low : j.val < items.length, filledWith ptr 0 items j = items[j.val] := by
    intro j low
    simp [filledWith,List.getElem?_eq_getElem low]
  have outside : ∀ j : Fin n, items.length ≤ j.val → filledWith ptr 0 items j = ptr j := by
    intro j high
    simp [filledWith,List.getElem?_eq_none high]
  constructor
  · rintro ⟨j,here⟩
    by_cases low : j.val < items.length
    · rw [inside j low] at here
      exact .inl ⟨_,List.getElem_mem low,here⟩
    · rw [outside j (not_lt.mp low)] at here
      exact .inr ⟨j,not_lt.mp low,here⟩
  · rintro (⟨b,mem,here⟩ | ⟨j,high,here⟩)
    · obtain ⟨i,low,rfl⟩ := List.getElem_of_mem mem
      exact ⟨⟨i,low.trans_le size⟩,by rwa [inside ⟨i,low.trans_le size⟩ low]⟩
    · exact ⟨j,by rwa [outside j high]⟩

end Sosis.PrefixFill
