import Sosis.StringWords
import Mathlib.Data.List.Find
import Mathlib.Data.List.GetD

-- The words of a command, and when the word functions of string.c deliver them.
namespace Sosis.StringLoops
open ByteRecords Fat32 TracedMemory TokenRuns
open Command (space wordAt wordStarts wordEnd)

def words (chars : List Byte) : List (List Byte) := runs isSpace chars

section words
variable {chars : List Byte}

theorem apart_iff {i : Nat} (inside : i < chars.length) : apart isSpace chars i = true ↔ chars.getD i 0 = space := by
  rw [apart,List.getD_eq_getElem?_getD,List.getElem?_eq_getElem inside]
  exact beq_iff_eq

theorem solid_iff {i : Nat} (inside : i < chars.length) : solid isSpace chars i = true ↔ chars.getD i 0 ≠ space := by
  rw [solid,List.getD_eq_getElem?_getD,List.getElem?_eq_getElem inside]
  exact bne_iff_ne

theorem wordAt_seen {i : Nat} (inside : i + 1 < chars.length) : wordAt chars i = seen isSpace chars i := by
  unfold wordAt seen
  simp only [apart_iff (Nat.lt_of_succ_lt inside),solid_iff (Nat.lt_of_succ_lt inside),solid_iff inside]

theorem wordStarts_runs (two : 2 ≤ chars.length) : wordStarts chars = runStarts isSpace chars := by
  rw [runStarts_seen two]
  refine List.filterMap_congr fun i member => wordAt_seen ?_
  have := List.mem_range.mp member
  omega

-- The space that wordLen does not see is the last byte.
theorem wordEnd_runs (start : Nat) : wordEnd chars start =
    if start + (runAt isSpace chars start).length < chars.length - 1 then start + (runAt isSpace chars start).length
    else chars.length := by
  have same : (List.range (chars.length-1)).find? (fun i => start ≤ i && chars.getD i 0 == space) =
      (List.range (chars.length-1)).find? fun i => start ≤ i && apart isSpace chars i := by
    refine List.find?_congr fun i member => ?_
    have inside := List.mem_range.mp member
    rw [Bool.eq_iff_iff.mpr (beq_iff_eq.trans (apart_iff (show i < chars.length by omega)).symm)]
  rw [wordEnd,same,find_apart (Nat.sub_le _ _)]
  split <;> rfl

-- A single character, which the loops never look at.
def LoneCharacter (chars : List Byte) : Prop := ∃ c, c ≠ space ∧ chars = [c]

-- One space and no more behind the last word.
def EndsInOneSpace (chars : List Byte) : Prop := ∃ front c, c ≠ space ∧ chars = front ++ [c,space]

theorem endsInOneSpace_iff : EndsInOneSpace chars ↔
    ∃ j, j + 2 = chars.length ∧ solid isSpace chars j = true ∧ apart isSpace chars (j+1) = true := by
  constructor
  · rintro ⟨front,c,other,rfl⟩
    refine ⟨front.length,by simp,?_,?_⟩
    · simpa [solid,isSpace] using other
    · simp [apart,isSpace]
  · rintro ⟨j,length,here,next⟩
    have two : chars.drop j = [chars.getD j 0,chars.getD (j+1) 0] := by
      have first : j < chars.length := by omega
      have second : j + 1 < chars.length := by omega
      rw [List.drop_eq_getElem_cons first,List.drop_eq_getElem_cons second,List.drop_eq_nil_of_le (by omega),
        List.getD_eq_getElem chars 0 first,List.getD_eq_getElem chars 0 second]
    refine ⟨chars.take j,chars.getD j 0,(solid_iff (by omega)).mp here,?_⟩
    rw [← (apart_iff (by omega)).mp next,← two,List.take_append_drop]

-- A run that stops right in front of the last byte.
theorem endsInOneSpace_of_run {start : Nat} (member : start ∈ runStarts isSpace chars)
    (stops : start + (runAt isSpace chars start).length + 1 = chars.length) : EndsInOneSpace chars := by
  have pos := run_pos member
  refine endsInOneSpace_iff.mpr ⟨start + (runAt isSpace chars start).length - 1,by omega,?_,?_⟩
  · have inRun := @solid_in_run _ isSpace chars start ((runAt isSpace chars start).length - 1) (by omega)
    rwa [Nat.add_sub_assoc pos]
  · have separates := @run_stops _ isSpace chars start (by omega)
    rwa [Nat.sub_add_cancel (by omega)]

theorem wordLen_run (short : chars.length < 65536) (clean : ¬ EndsInOneSpace chars) {idx start : Nat}
    (found : (wordStarts chars)[idx]? = some start) (member : start ∈ runStarts isSpace chars) :
    Command.wordLen chars idx = (runAt isSpace chars start).length := by
  have within := length_run_le member
  rw [Command.wordLen,found]
  show (wordEnd chars start - start) % 2^16 = _
  rw [wordEnd_runs]
  split
  · omega
  · have : ¬ start + (runAt isSpace chars start).length + 1 = chars.length := fun stops => clean (endsInOneSpace_of_run member stops)
    omega

end words

-- The three functions agree with the words: their number, their lengths, and their bytes
-- with a NUL behind them, all from bytes of the string.
def WordsFound {κ : Type} [DecidableEq κ] (fuel : Nat) (memory : κ → Byte) (str buf : Int → κ) (chars : List Byte) : Prop :=
  Performs (Inside str chars) memory (countWords fuel str) ((words chars).length : Int) [] ∧
  ∀ k (inside : k < (words chars).length),
    Performs (Inside str chars) memory (wordLen fuel str (BitVec.ofNat 16 k)) (BitVec.ofNat 16 (words chars)[k].length) [] ∧
    Performs (Inside str chars) memory (getWord fuel str (BitVec.ofNat 16 k) buf) () (copied buf ((words chars)[k] ++ [0]))

section exact
variable {κ : Type} [DecidableEq κ] {memory : κ → Byte} {str buf : Int → κ} {chars : List Byte} {fuel : Nat}

theorem length_words_le (chars : List Byte) : (words chars).length ≤ chars.length := by
  rw [words,runs,List.length_map,runStarts]
  exact (List.length_filter_le _ _).trans_eq List.length_range

theorem words_getElem {k : Nat} (inside : k < (words chars).length) (two : 2 ≤ chars.length) :
    ∃ start ∈ runStarts isSpace chars, (wordStarts chars)[k]? = some start ∧ (words chars)[k] = runAt isSpace chars start := by
  have within : k < (runStarts isSpace chars).length := by simpa [words,runs] using inside
  refine ⟨(runStarts isSpace chars)[k],List.getElem_mem within,?_,List.getElem_map _⟩
  rw [wordStarts_runs two,List.getElem?_eq_getElem within]

theorem countWords_words (two : 2 ≤ chars.length) : Command.countWords chars = (words chars).length := by
  rw [Command.countWords,wordStarts_runs two,words,runs,List.length_map]

theorem words_found (holds : HoldsString memory str chars) (separate : ∀ i j : Nat, buf i ≠ str j)
    (short : chars.length < 65536) (enough : chars.length < fuel) (seen : ¬ LoneCharacter chars) (clean : ¬ EndsInOneSpace chars) :
    WordsFound fuel memory str buf chars := by
  rcases Nat.lt_or_ge chars.length 2 with few | two
  · have none : words chars = [] := by
      rcases chars with _ | ⟨c,_ | _⟩
      · rfl
      · have blank : c = space := by_contra fun other => seen ⟨c,other,rfl⟩
        rw [blank]
        rfl
      · exact absurd few (by simp)
    have counted : Command.countWords chars = 0 := by
      have nothing : chars.length - 1 = 0 := by omega
      rw [Command.countWords,wordStarts,nothing]
      rfl
    have counts := countWords_performs holds enough
    rw [counted] at counts
    unfold WordsFound
    rw [none]
    exact ⟨counts,fun k inside => absurd inside (Nat.not_lt_zero k)⟩
  · refine ⟨countWords_words two ▸ countWords_performs holds enough,fun k inside => ?_⟩
    obtain ⟨start,member,found,word⟩ := words_getElem inside two
    have small : (BitVec.ofNat 16 k).toNat = k := by
      have := length_words_le chars
      rw [BitVec.toNat_ofNat,Nat.mod_eq_of_lt (by omega)]
    have long := wordLen_run short clean found member
    have bytes : wordBytes chars k start = runAt isSpace chars start := by
      rw [wordBytes,long]
      exact (run_eq_take start).symm
    have length := wordLen_performs holds enough (BitVec.ofNat 16 k)
    rw [small,long,← word] at length
    refine ⟨length,?_⟩
    rw [← small] at found
    have copy := getWord_performs holds enough found separate
    rwa [small,bytes,← word] at copy

theorem words_lost (holds : HoldsString memory str chars) (short : chars.length < 65536) (enough : chars.length < fuel)
    (found : WordsFound fuel memory str buf chars) : ¬ LoneCharacter chars ∧ ¬ EndsInOneSpace chars := by
  constructor
  · rintro ⟨c,other,rfl⟩
    have counted := (found.1.unique (countWords_performs holds enough)).1
    have one : words [c] = [[c]] := by simp [words,runs,runStarts,opens,solid,runAt,isSpace,other]
    rw [one] at counted
    cases counted
  · intro ends
    obtain ⟨j,last,here,next⟩ := endsInOneSpace_iff.mp ends
    obtain ⟨start,member,low,high⟩ := run_of_solid here
    have within := length_run_le member
    have lasts : start + (runAt isSpace chars start).length = j + 1 := by
      by_contra longer
      obtain ⟨i,rest⟩ := Nat.exists_eq_add_of_le (show start ≤ j + 1 by omega)
      have inRun := @solid_in_run _ isSpace chars start i (by omega)
      rw [← rest] at inRun
      exact Bool.false_ne_true ((not_solid_of_apart next).symm.trans inRun)
    obtain ⟨k,inRange,chosen⟩ := List.getElem_of_mem member
    have inside : k < (words chars).length := by simpa [words,runs] using inRange
    have small : (BitVec.ofNat 16 k).toNat = k := by
      have := length_words_le chars
      rw [BitVec.toNat_ofNat,Nat.mod_eq_of_lt (by omega)]
    have starts : (wordStarts chars)[k]? = some start := by
      rw [wordStarts_runs (by omega),List.getElem?_eq_getElem inRange,chosen]
    have word : (words chars)[k] = runAt isSpace chars start := by
      rw [← chosen]
      exact List.getElem_map _
    have lengths := ((found.2 k inside).1.unique (wordLen_performs holds enough (BitVec.ofNat 16 k))).1
    rw [small,word,Command.wordLen,starts] at lengths
    have counts := congrArg BitVec.toNat lengths
    simp only [BitVec.toNat_ofNat,wordEnd_runs,lasts] at counts
    rw [if_neg (by omega)] at counts
    omega

-- On a string of fewer than 65536 characters the words are found unless it is a single
-- character or its last word has one space behind it.
theorem words_found_iff (holds : HoldsString memory str chars) (separate : ∀ i j : Nat, buf i ≠ str j)
    (short : chars.length < 65536) (enough : chars.length < fuel) :
    WordsFound fuel memory str buf chars ↔ ¬ LoneCharacter chars ∧ ¬ EndsInOneSpace chars :=
  ⟨words_lost holds short enough,fun ⟨seen,clean⟩ => words_found holds separate short enough seen clean⟩

end exact

inductive StringArray where
  | str
  | buf
deriving DecidableEq

def lineOf (chars : List Byte) : StringArray × Int → Byte := fun k => if k.1 = .str ∧ 0 ≤ k.2 then chars.getD k.2.toNat 0 else 0

theorem lineOf_holds {chars : List Byte} (solid : ∀ b ∈ chars, b ≠ 0) :
    HoldsString (lineOf chars) (fun i => (StringArray.str,i)) chars :=
  .of_getD (fun i _ => by simp [lineOf]) solid

theorem arrays_apart (i j : Nat) : ((StringArray.buf,(i : Int)) : StringArray × Int) ≠ (StringArray.str,(j : Int)) := by
  simp

def AllFound (line : List Byte) : Prop :=
  WordsFound 100 (lineOf line) (fun i => (StringArray.str,i)) (fun i => (StringArray.buf,i)) line

theorem last_of_endsInOneSpace {chars : List Byte} (ends : EndsInOneSpace chars) : chars.getLast? = some space := by
  obtain ⟨front,c,_,rfl⟩ := ends
  simp

-- Leading and doubled spaces are no obstacle.
theorem spaced_words_found : AllFound (Command.chars " cp  a.txt d") := by
  refine (words_found_iff (lineOf_holds (by decide +kernel)) arrays_apart (by decide +kernel) (by decide +kernel)).mpr ⟨?_,?_⟩
  · rintro ⟨c,_,same⟩
    have twelve : (Command.chars " cp  a.txt d").length = 12 := by decide +kernel
    rw [same] at twelve
    cases twelve
  · intro ends
    exact absurd (last_of_endsInOneSpace ends) (by decide +kernel)

-- A single letter is not counted, and the last word takes the space behind it.
theorem words_missed : ¬ AllFound (Command.chars "a") ∧ ¬ AllFound (Command.chars "rm a ") := by
  constructor
  · intro found
    refine (words_lost (lineOf_holds (by decide +kernel)) (by decide +kernel) (by decide +kernel) found).1 ?_
    exact ⟨0x61,by decide,rfl⟩
  · intro found
    refine (words_lost (lineOf_holds (by decide +kernel)) (by decide +kernel) (by decide +kernel) found).2 ?_
    exact ⟨Command.chars "rm ",0x61,by decide,rfl⟩

end Sosis.StringLoops
