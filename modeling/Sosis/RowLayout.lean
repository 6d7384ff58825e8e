import Mathlib.Data.List.Basic
import Mathlib.Data.List.Induction

-- Text set in rows. A row ends at a character that ends rows, or when it is full; how long
-- it may get can depend on how many rows are above it.
namespace Sosis.RowLayout

structure Sheet (α : Type) where
  done : List (List α)
  cur : List α
deriving DecidableEq

namespace Sheet
variable {α : Type}

def start : Sheet α := ⟨[],[]⟩

def rows (s : Sheet α) : List (List α) := s.done ++ [s.cur]

def newRow (s : Sheet α) : Sheet α := ⟨s.rows,[]⟩

def add (s : Sheet α) (c : α) : Sheet α := ⟨s.done,s.cur ++ [c]⟩

def typeset (ends : α → Bool) (width : Nat → Nat) (s : Sheet α) (c : α) : Sheet α :=
  if ends c then s.newRow
  else if s.cur.length + 1 < width s.done.length then s.add c
  else (s.add c).newRow

def layout (ends : α → Bool) (width : Nat → Nat) (text : List α) : Sheet α := text.foldl (typeset ends width) start

-- The last `height` rows, and all of them while there are no more.
def window (height : Nat) (s : Sheet α) : List (List α) := s.rows.drop (s.rows.length - height)

def cell (height : Nat) (s : Sheet α) (i j : Nat) : Option α := (s.window height)[i]?.bind (·[j]?)

variable {s : Sheet α} {ends : α → Bool} {width width' : Nat → Nat}

theorem rows_get (n : Nat) : s.rows[n]? = if n = s.done.length then some s.cur else s.done[n]? := by
  unfold rows
  rw [List.getElem?_append]
  by_cases above : n < s.done.length
  · rw [if_pos above,if_neg (Nat.ne_of_lt above)]
  · rw [if_neg above,List.getElem?_singleton]
    by_cases last : n = s.done.length
    · rw [if_pos last,if_pos (by omega)]
    · rw [if_neg last,if_neg (by omega),List.getElem?_eq_none (Nat.not_lt.mp above)]

theorem length_rows : s.rows.length = s.done.length + 1 := by
  unfold rows
  rw [List.length_append,List.length_singleton]

theorem cell_eq {height i j : Nat} : s.cell height i j = s.rows[s.done.length + 1 - height + i]?.bind (·[j]?) := by
  unfold cell window
  rw [List.getElem?_drop,length_rows]

-- The current row is the last of the window, or further up while there are few rows.
theorem cell_cur {height j : Nat} (positive : 0 < height) : s.cell height (min s.done.length (height-1)) j = s.cur[j]? := by
  have place : s.done.length + 1 - height + min s.done.length (height-1) = s.done.length := by omega
  rw [cell_eq,place,rows_get,if_pos rfl,Option.bind_some]

theorem cell_below {height i j : Nat} (below : min s.done.length (height-1) < i) (inside : i < height) :
    s.cell height i j = none := by
  have place : s.rows.length ≤ s.done.length + 1 - height + i := by
    rw [length_rows]
    omega
  rw [cell_eq,List.getElem?_eq_none place,Option.bind_none]

theorem cell_add {height i j : Nat} (c : α) (inside : i < height) : (s.add c).cell height i j =
    if i = min s.done.length (height-1) ∧ j = s.cur.length then some c else s.cell height i j := by
  by_cases last : i = min s.done.length (height-1)
  · have positive : 0 < height := by omega
    have added : (s.add c).cell height i j = (s.cur ++ [c])[j]? := last ▸ cell_cur positive
    have before : s.cell height i j = s.cur[j]? := last ▸ cell_cur positive
    rw [added,before,List.getElem?_append,List.getElem?_singleton]
    by_cases front : j < s.cur.length
    · rw [if_pos front,if_neg (by omega)]
    · rw [if_neg front]
      by_cases behind : j = s.cur.length
      · rw [if_pos (by omega),if_pos ⟨last,behind⟩]
      · rw [if_neg (by omega),if_neg (fun both => behind both.2),List.getElem?_eq_none (Nat.not_lt.mp front)]
  · have place : s.done.length + 1 - height + i ≠ s.done.length := by omega
    rw [if_neg (fun both => last both.1),cell_eq,cell_eq,rows_get,rows_get,if_neg place]
    exact congrArg (Option.bind · _) (if_neg place)

-- A row that has just been begun shows nothing.
theorem newRow_get (n j : Nat) : s.newRow.rows[n]?.bind (·[j]?) = s.rows[n]?.bind (·[j]?) := by
  have got : s.newRow.rows[n]? = if n = s.rows.length then some [] else s.rows[n]? := rows_get n
  rw [got]
  by_cases last : n = s.rows.length
  · rw [if_pos last,Option.bind_some,List.getElem?_nil,List.getElem?_eq_none (Nat.le_of_eq last.symm),Option.bind_none]
  · rw [if_neg last]

theorem cell_newRow_early {height i j : Nat} (few : s.done.length + 1 < height) :
    s.newRow.cell height i j = s.cell height i j := by
  have place : s.newRow.done.length + 1 - height + i = s.done.length + 1 - height + i := by
    have more : s.newRow.done.length = s.done.length + 1 := length_rows
    omega
  rw [cell_eq,cell_eq,place,newRow_get]

theorem cell_newRow_late {height i j : Nat} (full : height ≤ s.done.length + 1) :
    s.newRow.cell height i j = s.cell height (i+1) j := by
  have place : s.newRow.done.length + 1 - height + i = s.done.length + 1 - height + (i+1) := by
    have more : s.newRow.done.length = s.done.length + 1 := length_rows
    omega
  rw [cell_eq,cell_eq,place,newRow_get]

theorem layout_append (front : List α) (c : α) :
    layout ends width (front ++ [c]) = typeset ends width (layout ends width front) c := List.foldl_concat ..

theorem typeset_room (positive : ∀ n, 0 < width n) (c : α) :
    (typeset ends width s c).cur.length < width (typeset ends width s c).done.length := by
  unfold typeset
  split
  · exact positive _
  · split
    · rename_i room
      have size : (s.add c).cur.length = s.cur.length + 1 := by simp [add]
      exact size ▸ room
    · exact positive _

theorem layout_room (positive : ∀ n, 0 < width n) (text : List α) :
    (layout ends width text).cur.length < width (layout ends width text).done.length := by
  induction text using List.reverseRecOn with
  | nil => exact positive _
  | append_singleton front c _ =>
    rw [layout_append]
    exact typeset_room positive c

-- Rows only grow, and only at their ends.
theorem typeset_grows (c : α) {n : Nat} {row : List α} (before : s.rows[n]? = some row) :
    ∃ row', (typeset ends width s c).rows[n]? = some row' ∧ row <+: row' := by
  have kept {s : Sheet α} {row : List α} (before : s.rows[n]? = some row) : s.newRow.rows[n]? = some row := by
    rw [rows_get,if_neg]
    · exact before
    · rintro rfl
      simp [newRow] at before
  have added : ∃ row', (s.add c).rows[n]? = some row' ∧ row <+: row' := by
    rw [rows_get] at before ⊢
    by_cases last : n = s.done.length
    · rw [if_pos last] at before
      cases before
      exact ⟨s.cur ++ [c],if_pos last,List.prefix_append _ _⟩
    · rw [if_neg last] at before
      exact ⟨row,(if_neg last).trans before,List.prefix_rfl⟩
  unfold typeset
  split
  · exact ⟨row,kept before,List.prefix_rfl⟩
  · split
    · exact added
    · obtain ⟨row',got,grown⟩ := added
      exact ⟨row',kept got,grown⟩

theorem typeset_rows_le {c : α} (room : s.cur.length < width s.done.length)
    (fits : ∀ n row, s.rows[n]? = some row → row.length ≤ width n) {n : Nat} {row : List α}
    (got : (typeset ends width s c).rows[n]? = some row) : row.length ≤ width n := by
  have began {s : Sheet α} (fits : ∀ n row, s.rows[n]? = some row → row.length ≤ width n)
      (got : s.newRow.rows[n]? = some row) : row.length ≤ width n := by
    rw [rows_get] at got
    split at got
    · cases got
      exact Nat.zero_le _
    · exact fits n row got
  have added (n : Nat) (row : List α) (got : (s.add c).rows[n]? = some row) : row.length ≤ width n := by
    rw [rows_get] at got
    split at got
    · rename_i last
      cases got
      subst last
      have size : (s.add c).cur.length = s.cur.length + 1 := by simp [add]
      exact size ▸ room
    · rename_i other
      refine fits n row ?_
      rw [rows_get]
      exact (if_neg other).trans got
  unfold typeset at got
  split at got
  · exact began fits got
  · split at got
    · exact added n row got
    · exact began added got

theorem layout_rows_le (positive : ∀ n, 0 < width n) {text : List α} {n : Nat} {row : List α}
    (got : (layout ends width text).rows[n]? = some row) : row.length ≤ width n := by
  induction text using List.reverseRecOn generalizing n row with
  | nil =>
    have single : (layout ends width ([] : List α)).rows = [[]] := rfl
    rw [single,List.getElem?_singleton] at got
    split at got
    · cases got
      exact Nat.zero_le _
    · cases got
  | append_singleton front c ih =>
    rw [layout_append] at got
    exact typeset_rows_le (layout_room positive front) (fun n row => ih) got

-- How far the next character is from the start of the sheet.
def Ahead (s s' : Sheet α) : Prop :=
  s.done.length < s'.done.length ∨ s.done.length = s'.done.length ∧ s.cur.length ≤ s'.cur.length

theorem typeset_ahead (narrower : ∀ n, width' n ≤ width n) {s' : Sheet α} (ahead : s.Ahead s') (c : α) :
    (typeset ends width s c).Ahead (typeset ends width' s' c) := by
  have more (s : Sheet α) : s.newRow.done.length = s.done.length + 1 := length_rows
  have size (s : Sheet α) : (s.add c).cur.length = s.cur.length + 1 := by simp [add]
  have above (s : Sheet α) : (s.add c).done.length = s.done.length := rfl
  have empty (s : Sheet α) : s.newRow.cur.length = 0 := rfl
  have width_le := narrower s'.done.length
  unfold Ahead at ahead ⊢
  unfold typeset
  split
  · simp only [more,empty]
    omega
  · split <;> split <;> simp only [more,size,above,empty]
    -- Both stay in their rows, or only one of them goes on, or both do.
    · omega
    · omega
    · rename_i full room
      rcases ahead with before | ⟨same,_⟩
      · omega
      · rw [same] at full
        omega
    · omega

-- Narrower rows are at least as many.
theorem layout_ahead (narrower : ∀ n, width' n ≤ width n) (text : List α) :
    (layout ends width text).Ahead (layout ends width' text) := by
  induction text using List.reverseRecOn with
  | nil => exact Or.inr ⟨rfl,Nat.le_refl _⟩
  | append_singleton front c ih =>
    rw [layout_append,layout_append]
    exact typeset_ahead narrower ih c

-- Widths that differ only at rows too short to fill either give one layout.
theorem layout_congr {text : List α} (alike : ∀ n row, (layout ends width text).rows[n]? = some row →
    width' n = width n ∨ row.length < width n ∧ row.length < width' n) :
    layout ends width' text = layout ends width text := by
  induction text using List.reverseRecOn with
  | nil => rfl
  | append_singleton front c ih =>
    rw [layout_append,layout_append]
    rw [layout_append] at alike
    rw [ih fun n row before => ?_]
    · generalize layout ends width front = s at alike
      unfold typeset
      by_cases ending : ends c = true
      · rw [if_pos ending,if_pos ending]
      · rw [if_neg ending,if_neg ending]
        have grown : ∃ row, (typeset ends width s c).rows[s.done.length]? = some row ∧ row.length = s.cur.length + 1 := by
          have added : (s.add c).rows[s.done.length]? = some (s.cur ++ [c]) := by
            rw [rows_get]
            exact if_pos rfl
          refine ⟨s.cur ++ [c],?_,by simp⟩
          unfold typeset
          rw [if_neg ending]
          split
          · exact added
          · rw [rows_get,if_neg (by rw [newRow,length_rows]; simp [add])]
            exact added
        obtain ⟨row,got,size⟩ := grown
        rcases alike _ _ got with same | ⟨short,short'⟩
        · rw [same]
        · rw [size] at short short'
          rw [if_pos short,if_pos short']
    · obtain ⟨row',after,grown⟩ := typeset_grows c before
      exact (alike n row' after).imp_right fun short =>
        ⟨Nat.lt_of_le_of_lt grown.length_le short.1,Nat.lt_of_le_of_lt grown.length_le short.2⟩

end Sheet

end Sosis.RowLayout
