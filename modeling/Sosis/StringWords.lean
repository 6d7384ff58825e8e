import Sosis.StringLoops
import Sosis.TokenRuns

-- What the word functions of string.c make of a string.
namespace Sosis.StringLoops
open ByteRecords Fat32 TracedMemory TokenRuns
open Command (space dot slash wordAt wordStarts wordEnd)

def isSpace (b : Byte) : Bool := b == space

section scans
variable {κ : Type} {memory : κ → Byte} {str : Int → κ} {chars : List Byte} {fuel : Nat}

theorem HoldsString.getD (holds : HoldsString memory str chars) {i : Nat} (inside : i ≤ chars.length) :
    memory (str i) = chars.getD i 0 := by
  rcases Nat.lt_or_eq_of_le inside with before | rfl
  · rw [holds.byte i before,List.getD_eq_getElem?_getD,List.getElem?_eq_getElem before,Option.getD_some]
  · rw [holds.nul,List.getD_eq_getElem?_getD,List.getElem?_eq_none (Nat.le_refl _),Option.getD_none]

theorem HoldsString.getD_ne (holds : HoldsString memory str chars) {i : Nat} (before : i < chars.length) :
    chars.getD i 0 ≠ 0 := by
  rw [List.getD_eq_getElem?_getD,List.getElem?_eq_getElem before,Option.getD_some]
  exact holds.solid _ (List.getElem_mem before)

theorem HoldsString.of_getD (bytes : ∀ i : Nat, i ≤ chars.length → memory (str i) = chars.getD i 0)
    (solid : ∀ b ∈ chars, b ≠ 0) : HoldsString memory str chars := by
  refine ⟨fun i inside => ?_,?_,solid⟩
  · rw [bytes i (Nat.le_of_lt inside),List.getD_eq_getElem?_getD,List.getElem?_eq_getElem inside,Option.getD_some]
  · rw [bytes _ (Nat.le_refl _),List.getD_eq_getElem?_getD,List.getElem?_eq_none (Nat.le_refl _),Option.getD_none]

theorem inside_of_le {i : Nat} (inside : i ≤ chars.length) : Inside str chars (str i) := ⟨i,inside,rfl⟩

variable [DecidableEq κ]

theorem strlen_performs (holds : HoldsString memory str chars) (enough : chars.length < fuel) :
    Performs (Inside str chars) memory (strlen fuel str) (chars.length : Int) [] := by
  refine @Performs.scans _ _ _ _ _ _ _ _ (fun i : Nat => (i : Int)) _ _ enough ?_ ?_ ?_
  · intro i before
    refine Performs.test ?_ (inside_of_le (Nat.le_of_lt before))
    rw [holds.getD (Nat.le_of_lt before)]
    exact bne_iff_ne.mpr (holds.getD_ne before)
  · intro i before
    exact Performs.pure _
  · refine Performs.test ?_ (inside_of_le (Nat.le_refl _))
    rw [holds.nul]
    rfl

-- The bound that all three loops compute anew at every turn.
theorem bound_performs (holds : HoldsString memory str chars) (enough : chars.length < fuel) (i : Nat) {b : Bool}
    (known : decide (i < chars.length - 1) = b) :
    Performs (Inside str chars) memory (do return decide ((i : Int) < (← strlen fuel str) - 1)) b [] := by
  have same : decide ((i : Int) < (chars.length : Int) - 1) = b := by
    rw [← known]
    exact decide_eq_decide.mpr (by omega)
  exact same ▸ (strlen_performs holds enough).finally

theorem newWord_performs (holds : HoldsString memory str chars) {i : Nat} (inside : i < chars.length - 1) :
    Performs (Inside str chars) memory (newWord str i) ((wordAt chars i).map fun start : Nat => (start : Int)) [] := by
  have here := holds.getD (show i ≤ chars.length by omega)
  have next := holds.getD (show i + 1 ≤ chars.length by omega)
  unfold newWord wordAt
  by_cases first : i = 0 ∧ chars.getD i 0 ≠ space
  · rw [if_pos first,if_pos (by omega)]
    refine (Performs.test (b := true) ?_ (inside_of_le (by omega))).seen (Performs.pure _)
    rw [here]
    exact bne_iff_ne.mpr first.2
  · rw [if_neg first]
    have passes : Performs (Inside str chars) memory
        (if (i : Int) = 0 then test (· != space) (str i) else pure false) false [] := by
      split
      · rename_i front
        refine Performs.test ?_ (inside_of_le (by omega))
        rw [here]
        simpa using fun other => first ⟨by omega,other⟩
      · exact Performs.pure false
    refine passes.seen ?_
    by_cases blank : chars.getD i 0 = space
    · refine (Performs.test (b := true) (by rw [here]; simpa using blank) (inside_of_le (by omega))).seen ?_
      by_cases start : chars.getD (i+1) 0 = space
      · have look : Performs (Inside str chars) memory (test (· != space) (str (i + 1))) false [] :=
          Performs.test (by rw [← Int.natCast_succ,next]; simpa using start) (inside_of_le (show i + 1 ≤ chars.length by omega))
        have absent : ¬ (chars.getD i 0 = space ∧ chars.getD (i+1) 0 ≠ space) := fun both => both.2 start
        rw [if_neg absent]
        exact look.finally
      · have look : Performs (Inside str chars) memory (test (· != space) (str (i + 1))) true [] :=
          Performs.test (by rw [← Int.natCast_succ,next]; simpa using start) (inside_of_le (show i + 1 ≤ chars.length by omega))
        have both : chars.getD i 0 = space ∧ chars.getD (i+1) 0 ≠ space := ⟨blank,start⟩
        rw [if_pos both]
        exact look.finally
    · refine (Performs.test (b := false) (by rw [here]; simpa using blank) (inside_of_le (by omega))).seen ?_
      have absent : ¬ (chars.getD i 0 = space ∧ chars.getD (i+1) 0 ≠ space) := fun both => blank both.1
      rw [if_neg absent]
      exact Performs.pure none

theorem scanned_succ (chars : List Byte) (i : Nat) :
    (List.range (i+1)).filterMap (wordAt chars) = (List.range i).filterMap (wordAt chars) ++ (wordAt chars i).toList := by
  rw [List.range_succ,List.filterMap_append]
  cases found : wordAt chars i <;> simp [found]

-- How many words have been seen to start in the first turns.
def scanned (chars : List Byte) (i : Nat) : Nat := ((List.range i).filterMap (wordAt chars)).length

theorem scanned_none {i : Nat} (starts : wordAt chars i = none) : scanned chars (i+1) = scanned chars i := by
  rw [scanned,scanned_succ,starts,Option.toList_none,List.append_nil]
  rfl

theorem scanned_some {i start : Nat} (starts : wordAt chars i = some start) : scanned chars (i+1) = scanned chars i + 1 := by
  rw [scanned,scanned_succ,starts,Option.toList_some,List.length_append]
  rfl

theorem countWords_performs (holds : HoldsString memory str chars) (enough : chars.length < fuel) :
    Performs (Inside str chars) memory (countWords fuel str) (Command.countWords chars : Int) [] := by
  refine (@Performs.scans _ _ _ _ _ _ _ _ (fun i : Nat => ((i : Int),(scanned chars i : Int))) (chars.length - 1) fuel
    (by omega) ?_ ?_ ?_).finally
  · intro i before
    exact bound_performs holds enough i (decide_eq_true before)
  · intro i before
    refine (newWord_performs holds before).seen ?_
    cases starts : wordAt chars i with
    | none =>
      rw [scanned_none starts]
      exact Performs.pure _
    | some start =>
      rw [scanned_some starts]
      exact Performs.pure _
  · exact bound_performs holds enough _ (decide_eq_false (Nat.lt_irrefl _))

-- -1 stands for what has not been seen yet.
def orNone (found : Option Nat) : Int := found.elim (-1) fun i => (i : Int)

-- The word of index idx among those that start in the first turns, and where it was seen to end.
def startSeen (chars : List Byte) (idx i : Nat) : Option Nat := ((List.range i).filterMap (wordAt chars))[idx]?

def endSeen (chars : List Byte) (i word_start : Nat) : Option Nat :=
  (List.range i).find? fun j => word_start ≤ j && chars.getD j 0 == space

theorem startSeen_succ (chars : List Byte) (idx i : Nat) :
    startSeen chars idx (i+1) = if scanned chars i = idx then wordAt chars i else startSeen chars idx i := by
  unfold startSeen scanned
  rw [scanned_succ,List.getElem?_append]
  by_cases before : idx < ((List.range i).filterMap (wordAt chars)).length
  · rw [if_pos before,if_neg (Nat.ne_of_gt before)]
  · rw [if_neg before]
    split
    · rename_i reached
      rw [reached,Nat.sub_self]
      cases wordAt chars i <;> rfl
    · rename_i other
      have beyond : (wordAt chars i).toList.length ≤ 1 := by cases wordAt chars i <;> simp
      rw [List.getElem?_eq_none (by omega),List.getElem?_eq_none (by omega)]

theorem startSeen_none {i : Nat} (starts : wordAt chars i = none) (idx : Nat) :
    startSeen chars idx (i+1) = startSeen chars idx i := by
  rw [startSeen,scanned_succ,starts,Option.toList_none,List.append_nil]
  rfl

theorem startSeen_some {idx i start : Nat} (starts : wordAt chars i = some start) : orNone (startSeen chars idx (i+1)) =
    if (scanned chars i : Int)+1 = idx+1 then (start : Int) else orNone (startSeen chars idx i) := by
  rw [startSeen_succ,starts]
  by_cases reached : scanned chars i = idx
  · rw [if_pos reached,if_pos (by omega)]
    rfl
  · rw [if_neg reached,if_neg (by omega)]

theorem wordAt_le {i start : Nat} (found : wordAt chars i = some start) : i ≤ start ∧ start ≤ i + 1 ∧
    (start = i → chars.getD i 0 ≠ space) := by
  unfold wordAt at found
  split at found
  · rename_i first
    cases found
    exact ⟨Nat.le_refl _,Nat.le_succ _,fun _ => first.2⟩
  · split at found
    · cases found
      exact ⟨Nat.le_succ _,Nat.le_refl _,fun same => absurd same (by omega)⟩
    · cases found

theorem startSeen_le {idx i start : Nat} (found : startSeen chars idx i = some start) : start ≤ i := by
  obtain ⟨j,member,starts⟩ := List.mem_filterMap.mp (List.mem_of_getElem? found)
  have := List.mem_range.mp member
  have := (wordAt_le starts).2.1
  omega

-- A word that has just been seen to start has not been seen to end.
theorem endSeen_fresh {i start : Nat} (found : wordAt chars i = some start) : endSeen chars (i+1) start = none := by
  obtain ⟨low,_,front⟩ := wordAt_le found
  unfold endSeen
  rw [List.find?_range_eq_none]
  intro j before
  by_cases late : start ≤ j
  · have same : start = i := by omega
    have here : j = i := by omega
    have other : (chars.getD j 0 == space) = false := by rw [here]; exact beq_eq_false_iff_ne.mpr (front same)
    rw [other,Bool.and_false]
    rfl
  · simp [late]

theorem endSeen_succ {i start : Nat} (began : start ≤ i) :
    endSeen chars (i+1) start = if endSeen chars i start = none ∧ chars.getD i 0 = space then some i else endSeen chars i start := by
  unfold endSeen
  rw [List.range_succ,List.find?_append]
  cases (List.range i).find? fun j => start ≤ j && chars.getD j 0 == space with
  | none =>
    by_cases blank : chars.getD i 0 = space
    · have here : (chars.getD i 0 == space) = true := beq_iff_eq.mpr blank
      rw [if_pos ⟨rfl,blank⟩,Option.none_or,List.find?_cons,here,decide_eq_true began]
      rfl
    · have other : (chars.getD i 0 == space) = false := beq_eq_false_iff_ne.mpr blank
      rw [if_neg fun both => blank both.2,Option.none_or,List.find?_cons,other,Bool.and_false]
      rfl
  | some j => simp

def scanState (chars : List Byte) (idx i : Nat) : WordScan :=
  ⟨i,scanned chars i,orNone (startSeen chars idx i),
    orNone ((startSeen chars idx i).bind (endSeen chars i))⟩

theorem orNone_eq_neg {found : Option Nat} : orNone found = -1 ↔ found = none := by
  cases found with
  | none => simp [orNone]
  | some i => simp [orNone]

-- Whether turn i sees the word end.
def endsNow (chars : List Byte) (idx i : Nat) : Bool :=
  startSeen chars idx i ≠ none ∧ (startSeen chars idx i).bind (endSeen chars i) = none ∧ chars.getD i 0 = space

theorem endedSeen_succ (chars : List Byte) (idx i : Nat) :
    (startSeen chars idx (i+1)).bind (endSeen chars (i+1)) =
      if endsNow chars idx i = true then some i else (startSeen chars idx i).bind (endSeen chars i) := by
  unfold endsNow
  simp only [decide_eq_true_eq]
  cases began : startSeen chars idx i with
  | none =>
    have fresh : (startSeen chars idx (i+1)).bind (endSeen chars (i+1)) = none := by
      rw [startSeen_succ,began]
      split
      · cases starts : wordAt chars i with
        | none => rfl
        | some start => exact endSeen_fresh starts
      · rfl
    rw [fresh,if_neg fun three => three.1 rfl]
    rfl
  | some start =>
    have before : idx < scanned chars i := (List.getElem?_eq_some_iff.mp began).1
    rw [startSeen_succ,if_neg (Nat.ne_of_gt before),began,Option.bind_some,Option.bind_some,
      endSeen_succ (startSeen_le began)]
    by_cases both : endSeen chars i start = none ∧ chars.getD i 0 = space
    · rw [if_pos both,if_pos ⟨by simp,both⟩]
    · rw [if_neg both,if_neg fun three => both three.2]

theorem scanState_turn (holds : HoldsString memory str chars) {i : Nat} (inside : i < chars.length - 1) (idx : BitVec 16) :
    Performs (Inside str chars) memory (WordScan.turn str idx (scanState chars idx.toNat i)) (scanState chars idx.toNat (i+1)) [] := by
  have looks : Performs (Inside str chars) memory
      (if (scanState chars idx.toNat i).word_start ≠ -1 ∧ (scanState chars idx.toNat i).word_end = -1 then
        test (· == space) (str (scanState chars idx.toNat i).i) else pure false) (endsNow chars idx.toNat i) [] := by
    simp only [scanState,ne_eq,orNone_eq_neg,endsNow]
    split
    · rename_i waits
      refine Performs.test ?_ (inside_of_le (show i ≤ chars.length by omega))
      rw [holds.getD (by omega),Bool.eq_iff_iff,beq_iff_eq,decide_eq_true_eq]
      exact ⟨fun blank => ⟨waits.1,waits.2,blank⟩,fun three => three.2.2⟩
    · rename_i idle
      rw [decide_eq_false fun three => idle ⟨three.1,three.2.1⟩]
      exact Performs.pure false
  refine looks.seen ((newWord_performs holds inside).seen ?_)
  have ended := congrArg orNone (endedSeen_succ chars idx.toNat i)
  rw [apply_ite orNone] at ended
  cases starts : wordAt chars i with
  | none =>
    have next : scanState chars idx.toNat (i+1) = ⟨(i : Int)+1,scanned chars i,orNone (startSeen chars idx.toNat i),
        if endsNow chars idx.toNat i = true then orNone (some i) else
          orNone ((startSeen chars idx.toNat i).bind (endSeen chars i))⟩ := by
      rw [scanState,ended,startSeen_none starts,scanned_none starts]
      rfl
    rw [next]
    exact Performs.pure _
  | some start =>
    have next : scanState chars idx.toNat (i+1) = ⟨(i : Int)+1,(scanned chars i : Int)+1,
        if (scanned chars i : Int)+1 = idx.toNat+1 then (start : Int) else orNone (startSeen chars idx.toNat i),
        if endsNow chars idx.toNat i = true then orNone (some i) else
          orNone ((startSeen chars idx.toNat i).bind (endSeen chars i))⟩ := by
      rw [scanState,ended,startSeen_some starts,scanned_some starts]
      rfl
    rw [next]
    exact Performs.pure _

theorem sixteen_bits {n : Int} {m : Nat} (same : n = m) : BitVec.ofInt 16 n = BitVec.ofNat 16 (m % 2^16) := by
  rw [same,BitVec.ofInt_natCast]
  exact BitVec.eq_of_toNat_eq (by simp)

theorem start_le_wordEnd {start : Nat} (within : start ≤ chars.length) : start ≤ wordEnd chars start := by
  unfold wordEnd
  cases found : (List.range (chars.length-1)).find? fun i => start ≤ i && chars.getD i 0 == space with
  | none => exact within
  | some i =>
    have low := List.find?_some found
    rw [Bool.and_eq_true_iff,decide_eq_true_eq] at low
    exact low.1

theorem wordLen_performs (holds : HoldsString memory str chars) (enough : chars.length < fuel) (idx : BitVec 16) :
    Performs (Inside str chars) memory (wordLen fuel str idx) (BitVec.ofNat 16 (Command.wordLen chars idx.toNat)) [] := by
  have scan : Performs (Inside str chars) memory
      (loop (fun s : WordScan => do return decide (s.i < (← strlen fuel str) - 1)) (WordScan.turn str idx) fuel ⟨0,0,-1,-1⟩)
      (scanState chars idx.toNat (chars.length - 1)) [] := by
    refine @Performs.scans _ _ _ _ _ _ _ _ (scanState chars idx.toNat) (chars.length - 1) fuel (by omega) ?_ ?_ ?_
    · intro i before
      exact bound_performs holds enough i (decide_eq_true before)
    · intro i before
      exact scanState_turn holds before idx
    · exact bound_performs holds enough _ (decide_eq_false (Nat.lt_irrefl _))
  have ends : Performs (Inside str chars) memory
      (if (scanState chars idx.toNat (chars.length - 1)).word_end = -1 then strlen fuel str else
        pure (scanState chars idx.toNat (chars.length - 1)).word_end)
      ((((startSeen chars idx.toNat (chars.length - 1)).bind (endSeen chars (chars.length - 1))).getD chars.length : Nat) : Int) [] := by
    simp only [scanState,orNone_eq_neg]
    cases (startSeen chars idx.toNat (chars.length - 1)).bind (endSeen chars (chars.length - 1)) with
    | none => exact strlen_performs holds enough
    | some i => exact Performs.pure _
  have value : BitVec.ofInt 16 (((((startSeen chars idx.toNat (chars.length - 1)).bind (endSeen chars (chars.length - 1))).getD
      chars.length : Nat) : Int) - (scanState chars idx.toNat (chars.length - 1)).word_start) =
        BitVec.ofNat 16 (Command.wordLen chars idx.toNat) := by
    unfold Command.wordLen
    cases began : startSeen chars idx.toNat (chars.length - 1) with
    | none =>
      have known : (wordStarts chars)[idx.toNat]? = none := began
      rw [scanState,began,known]
      exact sixteen_bits (by simp [orNone])
    | some start =>
      have known : (wordStarts chars)[idx.toNat]? = some start := began
      rw [scanState,began,known]
      have low := startSeen_le began
      have ordered := start_le_wordEnd (show start ≤ chars.length by omega)
      exact sixteen_bits (by rw [Int.natCast_sub ordered]; rfl)
  exact scan.seen (value ▸ ends.finally)

def searchState (chars : List Byte) (idx i : Nat) : WordSearch :=
  ⟨i,scanned chars i,orNone (startSeen chars idx i)⟩

theorem searchState_turn (holds : HoldsString memory str chars) {i : Nat} (inside : i < chars.length - 1) (idx : BitVec 16) :
    Performs (Inside str chars) memory (WordSearch.turn str idx (searchState chars idx.toNat i))
      (searchState chars idx.toNat (i+1)) [] := by
  refine (newWord_performs holds inside).seen ?_
  cases starts : wordAt chars i with
  | none =>
    have next : searchState chars idx.toNat (i+1) = ⟨(i : Int)+1,scanned chars i,orNone (startSeen chars idx.toNat i)⟩ := by
      rw [searchState,startSeen_none starts,scanned_none starts]
      rfl
    rw [next]
    exact Performs.pure _
  | some start =>
    have next : searchState chars idx.toNat (i+1) = ⟨(i : Int)+1,(scanned chars i : Int)+1,
        if (scanned chars i : Int)+1 = idx.toNat+1 then (start : Int) else orNone (startSeen chars idx.toNat i)⟩ := by
      rw [searchState,startSeen_some starts,scanned_some starts]
      rfl
    rw [next]
    exact Performs.pure _

-- The bytes of a word that the scan found.
def wordBytes (chars : List Byte) (idx start : Nat) : List Byte := (chars.drop start).take (Command.wordLen chars idx)

theorem wordLen_le {idx start : Nat} (found : (wordStarts chars)[idx]? = some start) :
    start + Command.wordLen chars idx ≤ chars.length := by
  have low : start ≤ chars.length - 1 := startSeen_le found
  have ordered := start_le_wordEnd (show start ≤ chars.length by omega)
  have high : wordEnd chars start ≤ chars.length := by
    unfold wordEnd
    cases seen : (List.range (chars.length-1)).find? fun i => start ≤ i && chars.getD i 0 == space with
    | none => exact Nat.le_refl _
    | some i =>
      have inside := List.mem_range.mp (List.mem_of_find?_eq_some seen)
      exact Nat.le_of_lt (by rw [Option.getD_some]; omega)
  have short := Nat.mod_le (wordEnd chars start - start) (2^16)
  rw [Command.wordLen,found]
  show start + (wordEnd chars start - start) % 2^16 ≤ _
  omega

theorem length_wordBytes {idx start : Nat} (found : (wordStarts chars)[idx]? = some start) :
    (wordBytes chars idx start).length = Command.wordLen chars idx := by
  have bound := wordLen_le found
  rw [wordBytes,List.length_take,List.length_drop]
  omega

theorem getWord_performs (holds : HoldsString memory str chars) (enough : chars.length < fuel) {idx : BitVec 16} {start : Nat}
    (found : (wordStarts chars)[idx.toNat]? = some start) {buf : Int → κ} (separate : ∀ i j : Nat, buf i ≠ str j) :
    Performs (Inside str chars) memory (getWord fuel str idx buf) () (copied buf (wordBytes chars idx.toNat start ++ [0])) := by
  have search : Performs (Inside str chars) memory
      (loop (fun s : WordSearch => do return decide (s.i < (← strlen fuel str) - 1)) (WordSearch.turn str idx) fuel ⟨0,0,-1⟩)
      (searchState chars idx.toNat (chars.length - 1)) [] := by
    refine @Performs.scans _ _ _ _ _ _ _ _ (searchState chars idx.toNat) (chars.length - 1) fuel (by omega) ?_ ?_ ?_
    · intro i before
      exact bound_performs holds enough i (decide_eq_true before)
    · intro i before
      exact searchState_turn holds before idx
    · exact bound_performs holds enough _ (decide_eq_false (Nat.lt_irrefl _))
  have bound := wordLen_le found
  have length := length_wordBytes found
  have small : Command.wordLen chars idx.toNat < 2^16 := by
    rw [Command.wordLen,found]
    exact Nat.mod_lt _ (by decide)
  have n : (BitVec.ofNat 16 (Command.wordLen chars idx.toNat)).toNat = Command.wordLen chars idx.toNat := by
    rw [BitVec.toNat_ofNat,Nat.mod_eq_of_lt small]
  have word_start : (searchState chars idx.toNat (chars.length - 1)).word_start = (start : Int) := by
    rw [searchState,show startSeen chars idx.toNat (chars.length - 1) = some start from found]
    rfl
  refine search.seen ((wordLen_performs holds enough idx).seen ?_)
  rw [n,word_start,copied_snoc,length]
  have copy : Performs (Inside str chars) memory
      (loop (fun i : Int => pure (decide (i < (Command.wordLen chars idx.toNat : Int)))) (fun i => do
        store (buf i) (← read (str ((start : Int) + i)))
        return i+1) fuel 0) (Command.wordLen chars idx.toNat : Int) (copied buf (wordBytes chars idx.toNat start)) := by
    have bytes : ∀ i < Command.wordLen chars idx.toNat,
        (wordBytes chars idx.toNat start)[i]? = some (chars.getD (start+i) 0) := by
      intro i before
      rw [wordBytes,List.getElem?_take,if_pos before,List.getElem?_drop,List.getD_eq_getElem?_getD,
        List.getElem?_eq_getElem (by omega),Option.getD_some]
    rw [← flatMap_copied length bytes]
    refine @Performs.counted _ _ _ _ _ _ _ _ (fun i : Nat => (i : Int)) _ _ _ (by omega) ?_ ?_ ?_
    · intro i before
      rw [decide_eq_true (Int.ofNat_lt.mpr before)]
      exact Performs.pure _
    · intro i before
      have untouched : ∀ b, (str ((start+i : Nat) : Int),b) ∉
          (List.range i).flatMap fun i : Nat => [(buf i,chars.getD (start+i) 0)] := by
        intro b member
        obtain ⟨j,_,here⟩ := List.mem_flatMap.mp member
        exact separate j (start+i) (congrArg Prod.fst (List.mem_singleton.mp here)).symm
      have source := (after_other untouched memory).trans (holds.getD (show start + i ≤ chars.length by omega))
      exact (Performs.read source (inside_of_le (by omega))).seen ((Performs.store _ _).finally)
    · rw [decide_eq_false (Int.lt_irrefl _)]
      exact Performs.pure _
  exact copy.bind (Performs.store _ _)

end scans

end Sosis.StringLoops
