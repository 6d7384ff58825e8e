import Mathlib.Data.List.TakeWhile

-- The runs of a list: its longest stretches without a separator.
namespace Sosis.TokenRuns

variable {α : Type u} (sep : α → Bool)

def apart (l : List α) (i : Nat) : Bool := l[i]?.any sep
def solid (l : List α) (i : Nat) : Bool := l[i]?.any (!sep ·)

-- Where a run starts: nothing but the front of the list or a separator stands before it.
def opens (l : List α) (i : Nat) : Bool := solid sep l i && (i == 0 || apart sep l (i-1))

def runStarts (l : List α) : List Nat := (List.range l.length).filter (opens sep l)

def runAt (l : List α) (start : Nat) : List α := (l.drop start).takeWhile (!sep ·)

def runs (l : List α) : List (List α) := (runStarts sep l).map (runAt sep l)

-- A start as a scan sees it that looks one element ahead.
def seen (l : List α) (i : Nat) : Option Nat :=
  if i = 0 ∧ solid sep l i then some i
  else if apart sep l i ∧ solid sep l (i+1) then some (i+1)
  else none

variable {sep} {l : List α} {start i : Nat}

theorem not_solid_of_apart (h : apart sep l i = true) : solid sep l i = false := by
  unfold apart at h
  unfold solid
  cases element : l[i]? with
  | none => rfl
  | some b => simpa [element] using h

theorem solid_or_apart (inside : i < l.length) : solid sep l i = true ∨ apart sep l i = true := by
  unfold solid apart
  rw [List.getElem?_eq_getElem inside]
  cases sep l[i] <;> simp

theorem lt_of_solid (h : solid sep l i = true) : i < l.length := by
  by_contra beyond
  rw [solid,List.getElem?_eq_none (Nat.le_of_not_lt beyond)] at h
  cases h

-- The scan over the first turns finds the starts up to one place further.
theorem seen_range (l : List α) (turns : Nat) :
    (List.range (turns+1)).filterMap (seen sep l) = (List.range (turns+2)).filter (opens sep l) := by
  induction turns with
  | zero =>
    by_cases first : solid sep l 0 = true
    · have second : opens sep l 1 = false := by
        have not : apart sep l 0 = false := by
          by_contra h
          rw [not_solid_of_apart (eq_true_of_ne_false h)] at first
          cases first
        simp [opens,not]
      simp [List.range_succ,seen,opens,first] at second ⊢
      exact second
    · by_cases before : apart sep l 0 = true
      · by_cases second : solid sep l 1 = true <;> simp [List.range_succ,seen,opens,first,before,second]
      · simp [List.range_succ,seen,opens,first,before]
  | succ turns ih =>
    rw [List.range_succ,List.filterMap_append,ih,List.range_succ (n := turns+2),List.filter_append]
    refine congrArg _ ?_
    by_cases here : apart sep l (turns+1) = true ∧ solid sep l (turns+2) = true
    · simp [seen,opens,here]
    · have unseen : seen sep l (turns+1) = none := by
        unfold seen
        rw [if_neg (by omega),if_neg here]
      have closed : opens sep l (turns+2) = false := by
        rw [Bool.eq_false_iff]
        intro opened
        simp only [opens,Bool.and_eq_true,Bool.or_eq_true,beq_iff_eq] at opened
        exact here ⟨opened.2.resolve_left (by omega),opened.1⟩
      simp [unseen,closed]

theorem runStarts_seen (two : 2 ≤ l.length) : runStarts sep l = (List.range (l.length-1)).filterMap (seen sep l) := by
  obtain ⟨turns,enough⟩ := Nat.exists_eq_add_of_le two
  rw [runStarts,enough,show 2 + turns - 1 = turns + 1 by omega,seen_range,Nat.add_comm]

theorem mem_runStarts : start ∈ runStarts sep l ↔ opens sep l start = true := by
  unfold runStarts
  rw [List.mem_filter,List.mem_range]
  refine and_iff_right_of_imp fun opened => ?_
  unfold opens at opened
  exact lt_of_solid (Bool.and_eq_true_iff.mp opened).1

theorem solid_of_start (member : start ∈ runStarts sep l) : solid sep l start = true := by
  have opened := mem_runStarts.mp member
  unfold opens at opened
  exact (Bool.and_eq_true_iff.mp opened).1

theorem solid_take : i < (l.takeWhile (!sep ·)).length → solid sep l i = true := by
  induction l generalizing i with
  | nil => simp
  | cons a rest ih =>
    intro inside
    cases separates : sep a with
    | true => simp [separates] at inside
    | false =>
      rw [List.takeWhile_cons_of_pos (by simp [separates]),List.length_cons] at inside
      cases i with
      | zero => simp [solid,separates]
      | succ i => simpa [solid] using ih (Nat.lt_of_succ_lt_succ inside)

theorem apart_take : (l.takeWhile (!sep ·)).length < l.length → apart sep l (l.takeWhile (!sep ·)).length = true := by
  induction l with
  | nil => simp
  | cons a rest ih =>
    cases separates : sep a with
    | true => simp [apart,separates]
    | false =>
      intro short
      rw [List.takeWhile_cons_of_pos (by simp [separates])] at short ⊢
      simpa [apart] using ih (Nat.lt_of_succ_lt_succ short)

-- Every element of a run is solid, and the run stops only at a separator.
theorem solid_in_run (inside : i < (runAt sep l start).length) : solid sep l (start+i) = true := by
  have taken := solid_take inside
  rwa [solid,List.getElem?_drop] at taken

theorem run_stops (short : start + (runAt sep l start).length < l.length) :
    apart sep l (start + (runAt sep l start).length) = true := by
  have taken : apart sep (l.drop start) (runAt sep l start).length = true := by
    refine apart_take ?_
    rw [List.length_drop]
    exact Nat.lt_sub_of_add_lt ((Nat.add_comm _ _).trans_lt short)
  rwa [apart,List.getElem?_drop] at taken

theorem length_run_le (member : start ∈ runStarts sep l) : start + (runAt sep l start).length ≤ l.length := by
  have within := lt_of_solid (solid_of_start member)
  have bound : (runAt sep l start).length ≤ (l.drop start).length := (List.takeWhile_prefix (!sep ·)).length_le
  rw [List.length_drop] at bound
  omega

theorem run_eq_take (start : Nat) : runAt sep l start = (l.drop start).take (runAt sep l start).length :=
  List.prefix_iff_eq_take.mp (List.takeWhile_prefix (!sep ·))

theorem run_pos (member : start ∈ runStarts sep l) : 0 < (runAt sep l start).length := by
  by_contra empty
  have none : (runAt sep l start).length = 0 := Nat.eq_zero_of_not_pos empty
  have here := solid_of_start member
  have stops := @run_stops α sep l start (by rw [none]; exact lt_of_solid here)
  rw [none] at stops
  exact Bool.false_ne_true ((not_solid_of_apart stops).symm.trans here)

-- The first separator from a place on is the one behind the run there.
theorem find_apart {n : Nat} (few : n ≤ l.length) :
    ((List.range n).find? fun i => start ≤ i && apart sep l i) =
      if start + (runAt sep l start).length < n then some (start + (runAt sep l start).length) else none := by
  have unbroken : ∀ j, start ≤ j → j < start + (runAt sep l start).length → apart sep l j = false := by
    intro j low high
    obtain ⟨i,rfl⟩ := Nat.exists_eq_add_of_le low
    by_contra broken
    have here := @solid_in_run α sep l start i (by omega)
    exact Bool.false_ne_true ((not_solid_of_apart (eq_true_of_ne_false broken)).symm.trans here)
  split
  · rename_i short
    rw [List.find?_range_eq_some,List.mem_range]
    refine ⟨?_,short,fun j before => ?_⟩
    · rw [run_stops (Nat.lt_of_lt_of_le short few)]
      simp
    · by_cases low : start ≤ j
      · rw [unbroken j low before]
        simp
      · simp [low]
  · rename_i long
    rw [List.find?_range_eq_none]
    intro j inside
    by_cases low : start ≤ j
    · rw [unbroken j low (by omega)]
      simp
    · simp [low]

-- Every solid element lies in a run.
theorem run_of_solid (h : solid sep l i = true) :
    ∃ start ∈ runStarts sep l, start ≤ i ∧ i < start + (runAt sep l start).length := by
  induction i with
  | zero =>
    have member : 0 ∈ runStarts sep l := mem_runStarts.mpr (by simp [opens,h])
    exact ⟨0,member,Nat.le_refl _,by simpa using run_pos member⟩
  | succ i ih =>
    have here := lt_of_solid h
    by_cases before : apart sep l i = true
    · have member : i + 1 ∈ runStarts sep l := mem_runStarts.mpr (by simp [opens,h,before])
      exact ⟨i+1,member,Nat.le_refl _,Nat.lt_add_of_pos_right (run_pos member)⟩
    · obtain ⟨start,member,low,high⟩ := ih ((solid_or_apart (Nat.lt_of_succ_lt here)).resolve_right before)
      refine ⟨start,member,Nat.le_succ_of_le low,Nat.lt_of_le_of_ne high fun stops => ?_⟩
      have separates := @run_stops α sep l start (stops ▸ here)
      rw [← stops] at separates
      exact Bool.false_ne_true ((not_solid_of_apart separates).symm.trans h)

end Sosis.TokenRuns
