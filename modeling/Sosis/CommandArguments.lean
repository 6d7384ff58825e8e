import Sosis.PathLoops
import Sosis.CommandWords
import Sosis.CommandFileNames

-- Which arguments fit the arrays that a command copies them to.
namespace Sosis.StringLoops
open ByteRecords Fat32 TracedMemory TokenRuns
open Command (space dot slash wordStarts wordEnd)

-- A word as getWord delivers it: the last one takes a single space behind it along.
def typedWord (chars : List Byte) (start : Nat) : List Byte :=
  if start + (runAt isSpace chars start).length + 1 = chars.length then chars.drop start else runAt isSpace chars start

def typedWords (chars : List Byte) : List (List Byte) := (runStarts isSpace chars).map (typedWord chars)

section words
variable {chars : List Byte}

theorem wordBytes_typed (short : chars.length < 65536) {k start : Nat} (found : (wordStarts chars)[k]? = some start)
    (member : start ∈ runStarts isSpace chars) : wordBytes chars k start = typedWord chars start := by
  have within := length_run_le member
  have long : Command.wordLen chars k = (wordEnd chars start - start) % 2^16 := by rw [Command.wordLen,found]
  rw [wordBytes,long,wordEnd_runs,typedWord]
  split
  · rename_i before
    rw [if_neg (by omega),Nat.add_sub_cancel_left,Nat.mod_eq_of_lt (by omega)]
    exact (run_eq_take start).symm
  · rename_i last
    rw [Nat.mod_eq_of_lt (by omega),List.take_of_length_le (by rw [List.length_drop])]
    split
    · rfl
    · rename_i whole
      refine ((run_eq_take start).trans (List.take_of_length_le ?_)).symm
      rw [List.length_drop]
      omega

theorem typedWords_count (two : 2 ≤ chars.length) : Command.countWords chars = (typedWords chars).length := by
  rw [Command.countWords,wordStarts_runs two,typedWords,List.length_map]

theorem length_typedWords_le (chars : List Byte) : (typedWords chars).length ≤ chars.length := by
  rw [typedWords,List.length_map,runStarts]
  exact (List.length_filter_le _ _).trans_eq List.length_range

theorem countWords_eq_iff (short : chars.length ≤ 99) {m : Nat} (two : 2 ≤ m) (few : m ≤ 99) :
    BitVec.ofInt 16 (Command.countWords chars) = BitVec.ofNat 16 m ↔ (typedWords chars).length = m := by
  have bound := length_typedWords_le chars
  rw [BitVec.ofInt_natCast]
  rcases Nat.lt_or_ge chars.length 2 with less | more
  · have nothing : Command.countWords chars = 0 := by
      have none : chars.length - 1 = 0 := by omega
      rw [Command.countWords,wordStarts,none]
      rfl
    rw [nothing]
    constructor
    · intro same
      have := congrArg BitVec.toNat same
      simp only [BitVec.toNat_ofNat] at this
      omega
    · omega
  · rw [typedWords_count more]
    constructor
    · intro same
      have := congrArg BitVec.toNat same
      simp only [BitVec.toNat_ofNat] at this
      omega
    · rintro rfl
      rfl

theorem typedWord_solid {word : List Byte} (solid : ∀ b ∈ chars, b ≠ 0) (member : word ∈ typedWords chars) : ∀ b ∈ word, b ≠ 0 := by
  obtain ⟨start,_,rfl⟩ := List.mem_map.mp member
  intro b inside
  refine solid b ?_
  unfold typedWord at inside
  split at inside
  · exact List.mem_of_mem_drop inside
  · exact List.mem_of_mem_drop ((List.takeWhile_prefix _).subset inside)

theorem length_typedWord_le {start : Nat} (member : start ∈ runStarts isSpace chars) :
    start + (typedWord chars start).length ≤ chars.length ∧ typedWord chars start ≠ [] := by
  have here := lt_of_solid (solid_of_start member)
  have pos := run_pos member
  have within := length_run_le member
  unfold typedWord
  split
  · rw [List.length_drop]
    refine ⟨by omega,fun none => ?_⟩
    have := List.drop_eq_nil_iff.mp none
    omega
  · exact ⟨within,List.ne_nil_of_length_pos pos⟩

theorem argument_ne_nil {k : Nat} {word : List Byte} (known : (typedWords chars)[k]? = some word) : word ≠ [] := by
  obtain ⟨start,member,rfl⟩ := List.mem_map.mp (List.mem_of_getElem? known)
  exact (length_typedWord_le member).2

-- A word behind the first one is at least one byte shorter than the line.
theorem length_argument_lt {k : Nat} {word : List Byte} (known : (typedWords chars)[k+1]? = some word) : word.length < chars.length := by
  rw [typedWords,List.getElem?_map] at known
  obtain ⟨start,chosen,rfl⟩ := Option.map_eq_some_iff.mp known
  obtain ⟨within,rfl⟩ := List.getElem?_eq_some_iff.mp chosen
  have sorted : (runStarts isSpace chars).Pairwise (· < ·) := List.pairwise_lt_range.filter _
  have later := List.pairwise_iff_getElem.mp sorted k (k+1) (by omega) within (Nat.lt_succ_self k)
  have bound := (length_typedWord_le (List.getElem_mem within)).1
  omega

-- Which word of the line an argument is, and where it starts.
theorem argument_found (short : chars.length ≤ 99) (two : 2 ≤ (typedWords chars).length) {k : Nat} {word : List Byte}
    (known : (typedWords chars)[k]? = some word) : (BitVec.ofNat 16 k).toNat = k ∧ ∃ start,
      (wordStarts chars)[(BitVec.ofNat 16 k).toNat]? = some start ∧ wordBytes chars (BitVec.ofNat 16 k).toNat start = word := by
  have bound := length_typedWords_le chars
  obtain ⟨start,chosen,rfl⟩ := List.getElem?_map .. ▸ known |> Option.map_eq_some_iff.mp
  obtain ⟨within,rfl⟩ := List.getElem?_eq_some_iff.mp chosen
  have inside : k < (typedWords chars).length := (List.getElem?_eq_some_iff.mp known).1
  have small : (BitVec.ofNat 16 k).toNat = k := by rw [BitVec.toNat_ofNat,Nat.mod_eq_of_lt (by omega)]
  have found : (wordStarts chars)[(BitVec.ofNat 16 k).toNat]? = some (runStarts isSpace chars)[k] := by
    rw [small,wordStarts_runs (by omega),chosen]
  exact ⟨small,_,found,wordBytes_typed (by omega) found (List.getElem_mem within)⟩

end words

def WithinArray (k : ShellPlace) : Prop := 0 ≤ k.2 ∧ k.2 < k.1.capacity

section arrays
variable {memory : ShellPlace → Byte} {chars : List Byte} {a : ShellArray} {fuel : Nat}

theorem HoldsString.kept (holds : HoldsString memory a.at chars) {w : List (ShellPlace × Byte)}
    (untouched : ∀ k b, (k,b) ∈ w → k.1 ≠ a) : HoldsString (after w memory) a.at chars := by
  have same : ∀ i : Int, after w memory (a.at i) = memory (a.at i) := fun i =>
    after_other (fun b member => untouched _ b member rfl) memory
  exact ⟨fun i inside => (same i).trans (holds.byte i inside),(same _).trans holds.nul,holds.solid⟩

theorem copied_array {bytes : List Byte} {k : ShellPlace} {b : Byte} (member : (k,b) ∈ copied a.at bytes) : k.1 = a := by
  obtain ⟨i,_,rfl⟩ := mem_copied member
  rfl

theorem HoldsString.kept_copied (holds : HoldsString memory a.at chars) {b : ShellArray} (other : b ≠ a) (bytes : List Byte) :
    HoldsString (after (copied b.at bytes) memory) a.at chars :=
  holds.kept fun _ _ member => copied_array member ▸ other

theorem copied_within_iff (word : List Byte) :
    (∀ k b, (k,b) ∈ copied a.at (word ++ [0]) → WithinArray k) ↔ (word.length : Int) < a.capacity := by
  constructor
  · intro within
    have last : (a.at word.length,(0 : Byte)) ∈ copied a.at (word ++ [0]) := by
      rw [copied_snoc]
      simp
    exact (within _ _ last).2
  · intro fits k b member
    obtain ⟨i,inside,rfl⟩ := mem_copied member
    rw [List.length_append,List.length_singleton] at inside
    exact ⟨Int.natCast_nonneg i,by show (i : Int) < a.capacity; omega⟩

-- Behind the terminator the array is as it was.
theorem copied_behind (word : List Byte) (memory : ShellPlace → Byte) (j : Nat) :
    after (copied a.at (word ++ [0])) memory (a.at (word.length + 1 + j)) = memory (a.at (word.length + 1 + j)) := by
  have distinct : ∀ i j : Nat, a.at i = a.at j → i = j := fun i j same => Int.ofNat.inj (congrArg Prod.snd same)
  have byte := after_copied distinct (word ++ [0]) memory (word.length + 1 + j)
  rw [List.getD_eq_default _ _ (by simp)] at byte
  exact byte

-- What getWord leaves in its array is the word as a C string.
theorem copied_holds {word : List Byte} (solid : ∀ b ∈ word, b ≠ 0) (memory : ShellPlace → Byte) :
    HoldsString (after (copied a.at (word ++ [0])) memory) a.at word := by
  have distinct : ∀ i j : Nat, a.at i = a.at j → i = j := fun i j same => Int.ofNat.inj (congrArg Prod.snd same)
  refine ⟨fun i inside => ?_,?_,solid⟩
  · rw [after_copied distinct,List.getD_append _ _ _ _ inside,List.getD_eq_getElem _ _ inside]
  · rw [after_copied distinct,List.getD_append_right _ _ _ _ (Nat.le_refl _),Nat.sub_self]
    rfl

variable (holds : HoldsString memory ShellArray.command.at chars) (short : chars.length ≤ 99) (enough : 100 < fuel)
include holds short enough

theorem n_words_seen {m : Nat} (two : 2 ≤ m) (few : m ≤ 99) {γ : Type} {other same : Traced ShellPlace Byte γ}
    {cells : ShellPlace → Prop} :
    Confined cells memory (do if (← n_words fuel) ≠ BitVec.ofNat 16 m then other else same) ↔
      if (typedWords chars).length = m then Confined cells memory same else Confined cells memory other := by
  have counts : Performs (fun _ => True) memory (n_words fuel) (BitVec.ofInt 16 (Command.countWords chars)) [] :=
    ((countWords_performs holds (by omega)).mono fun _ _ => trivial).finally
  rw [confined_seen_iff counts]
  have iff := countWords_eq_iff short two few
  by_cases number : (typedWords chars).length = m
  · rw [if_pos number,if_neg (not_not.mpr (iff.mpr number))]
  · rw [if_neg number,if_pos fun same => number (iff.mp same)]

theorem argumentLen_performs (two : 2 ≤ (typedWords chars).length) {k : Nat} {word : List Byte}
    (known : (typedWords chars)[k]? = some word) : Performs (fun _ => True) memory
      (wordLen fuel ShellArray.command.at (BitVec.ofNat 16 k)) (BitVec.ofNat 16 word.length) [] := by
  obtain ⟨_,start,found,rfl⟩ := argument_found short two known
  rw [length_wordBytes found]
  exact (wordLen_performs holds (by omega) _).mono fun _ _ => trivial

theorem argument_performs (two : 2 ≤ (typedWords chars).length) {k : Nat} {word : List Byte}
    (known : (typedWords chars)[k]? = some word) (other : a ≠ .command) :
    Performs (fun _ => True) memory (argument fuel (BitVec.ofNat 16 k) a) () (copied a.at (word ++ [0])) := by
  obtain ⟨_,start,found,rfl⟩ := argument_found short two known
  have separate : ∀ i j : Nat, a.at i ≠ ShellArray.command.at j := fun i j same => other (congrArg Prod.fst same)
  exact (getWord_performs holds (by omega) found separate).mono fun _ _ => trivial

theorem argument_confined_iff (two : 2 ≤ (typedWords chars).length) {k : Nat} {word : List Byte}
    (known : (typedWords chars)[k]? = some word) (other : a ≠ .command) {γ : Type} {next : Unit → Traced ShellPlace Byte γ} :
    Confined WithinArray memory (argument fuel (BitVec.ofNat 16 k) a >>= next) ↔ (word.length : Int) < a.capacity ∧
      Confined WithinArray (after (copied a.at (word ++ [0])) memory) (next ()) := by
  rw [confined_bind_iff (argument_performs holds short enough two known other),copied_within_iff]

end arrays

section names
variable {memory : ShellPlace → Byte} {word : List Byte} {fuel : Nat}

theorem shell_separate : Separate ShellArray.filename.at ShellArray.name.at ShellArray.ext.at := by
  constructor <;> simp [ShellArray.at]

theorem parsedName_performs (holds : HoldsString memory ShellArray.filename.at word) (enough : 8 < fuel) :
    ∃ r w, Performs (fun _ => True) memory (parsedName fuel) r w ∧ (r = 0 ↔ Fits83 word) ∧
      ∀ k b, (k,b) ∈ w → WithinArray k ∧ (k.1 = .name ∨ k.1 = .ext) := by
  obtain ⟨r,w,parses⟩ := parsed holds shell_separate enough
  refine ⟨r,w,parses.performs.mono fun _ _ => trivial,parses.accepts,fun k b member => ?_⟩
  rcases parses.within k b member with ⟨i,inside,rfl⟩ | ⟨i,inside,rfl⟩
  · exact ⟨⟨Int.natCast_nonneg i,Int.ofNat_lt.mpr inside⟩,Or.inl rfl⟩
  · exact ⟨⟨Int.natCast_nonneg i,Int.ofNat_lt.mpr inside⟩,Or.inr rfl⟩

-- parseFileName keeps to its arrays; what follows depends on its verdict.
theorem parsedName_confined_iff (holds : HoldsString memory ShellArray.filename.at word) (enough : 8 < fuel) {γ : Type}
    {next : Int → Traced ShellPlace Byte γ} : ∃ r w, (r = 0 ↔ Fits83 word) ∧ (∀ k b, (k,b) ∈ w → k.1 = .name ∨ k.1 = .ext) ∧
      (Confined WithinArray memory (parsedName fuel >>= next) ↔ Confined WithinArray (after w memory) (next r)) := by
  obtain ⟨r,w,performs,accepts,within⟩ := parsedName_performs holds enough
  refine ⟨r,w,accepts,fun k b member => (within k b member).2,?_⟩
  rw [confined_bind_iff performs]
  exact and_iff_right fun k b member => (within k b member).1

end names

-- A word and its terminator.
theorem fits_filename (word : List Byte) : (word.length : Int) < ShellArray.filename.capacity ↔ word.length ≤ 11 := by
  show (word.length : Int) < 12 ↔ _
  omega

theorem fits_path (word : List Byte) : (word.length : Int) < ShellArray.path.capacity ↔ word.length ≤ 99 := by
  show (word.length : Int) < 100 ↔ _
  omega

theorem fits_pidStr (word : List Byte) : (word.length : Int) < ShellArray.pidStr.capacity ↔ word.length ≤ 2 := by
  show (word.length : Int) < 3 ↔ _
  omega

theorem dir_cells (i : Nat) : WithinArray (ShellArray.dir.at i) ↔ i < 8 := by
  show (0 : Int) ≤ i ∧ (i : Int) < 8 ↔ _
  omega

section zeros
variable {memory : ShellPlace → Byte} {a : ShellArray} {fuel n : Nat}

theorem zeros_performs (declared : a.capacity = n) (enough : n < fuel) :
    Performs (fun _ => True) memory (zeros fuel a) () (copied a.at (List.replicate n 0)) := by
  have each : ∀ i < n, (List.replicate n (0 : Byte))[i]? = some 0 := by
    intro i before
    rw [List.getElem?_replicate,if_pos before]
  rw [← flatMap_copied List.length_replicate each]
  refine Performs.finally (f := fun _ => ()) (a := (n : Int)) ?_
  refine @Performs.counted ShellPlace Byte _ _ _ memory _ _ (fun i : Nat => (i : Int)) _ n fuel enough ?_ ?_ ?_
  · intro i before
    rw [decide_eq_true (by omega)]
    exact Performs.pure true
  · intro i before
    exact (Performs.store _ _).finally
  · rw [decide_eq_false (by omega)]
    exact Performs.pure false

theorem zeros_confined_iff (declared : a.capacity = n) (enough : n < fuel) {γ : Type} {next : Unit → Traced ShellPlace Byte γ} :
    Confined WithinArray memory (zeros fuel a >>= next) ↔
      Confined WithinArray (after (copied a.at (List.replicate n 0)) memory) (next ()) := by
  refine Confined.after_first (zeros_performs declared enough) fun k b member => ?_
  obtain ⟨i,inside,rfl⟩ := mem_copied member
  rw [List.length_replicate] at inside
  exact ⟨Int.natCast_nonneg i,by show (i : Int) < a.capacity; omega⟩

end zeros

inductive ShellCommand where
  | rm
  | mkdir
  | cd
  | cat
  | exec
  | findShell
  | mvPath
  | copyPath
  | kill

def ShellCommand.arguments (fuel : Nat) (answers : Answers) : ShellCommand → Traced ShellPlace Byte Unit
  | .rm => StringLoops.rm fuel answers
  | .mkdir => StringLoops.mkdir fuel
  | .cd => StringLoops.cd fuel answers
  | .cat => StringLoops.cat fuel
  | .exec => StringLoops.exec fuel
  | .findShell => StringLoops.findShell fuel
  | .mvPath => StringLoops.mvPath fuel answers
  | .copyPath => StringLoops.copyPath fuel answers
  | .kill => StringLoops.kill fuel

def ComponentsFit (path : List Byte) : Prop := ∀ c ∈ path.splitOn slash, c.length ≤ 8

-- A slash or a NUL within nine bytes behind the path, among bytes that pathDest has from
-- the stack.
def StopsBehind (memory : ShellPlace → Byte) (path : List Byte) : Prop :=
  ∃ n ≤ 8, Stops memory ShellArray.path.at (path.length + 1) n

-- A file name of 11 characters, a process number of 2, path components of 8.
def ArgumentsFit (memory : ShellPlace → Byte) (chars : List Byte) : ShellCommand → Prop
  | .rm => ∀ name file, typedWords chars = [name,file] → file = Command.chars "-r" ∨ file.length ≤ 11
  | .mkdir | .cat | .exec | .findShell => ∀ name file, typedWords chars = [name,file] → file.length ≤ 11
  | .cd => ∀ name path, typedWords chars = [name,path] → path = Command.chars ".." ∨ ComponentsFit path
  | .mvPath | .copyPath => ∀ name source path, typedWords chars = [name,source,path] →
    source.length ≤ 11 ∧ (Fits83 source → ComponentsFit path ∧ StopsBehind memory path)
  | .kill => ∀ name pid, typedWords chars = [name,pid] → pid.length ≤ 2

section commands
variable {memory : ShellPlace → Byte} {chars : List Byte} {fuel : Nat}
variable (holds : HoldsString memory ShellArray.command.at chars) (short : chars.length ≤ 99) (enough : 100 < fuel)
include holds short enough

theorem two_words_iff {rest : Traced ShellPlace Byte Unit} {fits : List Byte → Prop}
    (each : ∀ name file, typedWords chars = [name,file] → (Confined WithinArray memory rest ↔ fits file)) :
    Confined WithinArray memory (do if (← n_words fuel) ≠ 2 then pure () else rest) ↔
      ∀ name file, typedWords chars = [name,file] → fits file := by
  rw [show (2 : BitVec 16) = BitVec.ofNat 16 2 from rfl,n_words_seen holds short enough (Nat.le_refl 2) (by decide)]
  split
  · rename_i number
    obtain ⟨name,file,words⟩ := List.length_eq_two.mp number
    rw [each name file words]
    constructor
    · intro fits name' file' words'
      rw [words] at words'
      cases words'
      exact fits
    · exact fun fits => fits name file words
  · rename_i number
    refine ⟨fun _ name file words => absurd (by rw [words]; rfl) number,fun _ => Confined.pure ()⟩

theorem three_words_iff {rest : Traced ShellPlace Byte Unit} {fits : List Byte → List Byte → Prop}
    (each : ∀ name source path, typedWords chars = [name,source,path] → (Confined WithinArray memory rest ↔ fits source path)) :
    Confined WithinArray memory (do if (← n_words fuel) ≠ 3 then pure () else rest) ↔
      ∀ name source path, typedWords chars = [name,source,path] → fits source path := by
  rw [show (3 : BitVec 16) = BitVec.ofNat 16 3 from rfl,n_words_seen holds short enough (by decide) (by decide)]
  split
  · rename_i number
    obtain ⟨name,source,path,words⟩ := List.length_eq_three.mp number
    rw [each name source path words]
    constructor
    · intro fits name' source' path' words'
      rw [words] at words'
      cases words'
      exact fits
    · exact fun fits => fits name source path words
  · rename_i number
    refine ⟨fun _ name source path words => absurd (by rw [words]; rfl) number,fun _ => Confined.pure ()⟩

theorem oneName_confined_iff : Confined WithinArray memory (oneName fuel) ↔
    ∀ name file, typedWords chars = [name,file] → file.length ≤ 11 := by
  refine two_words_iff holds short enough fun name file words => ?_
  have known : (typedWords chars)[1]? = some file := by rw [words]; rfl
  have solid := typedWord_solid holds.solid (List.mem_of_getElem? known)
  rw [show (1 : BitVec 16) = BitVec.ofNat 16 1 from rfl,
    argument_confined_iff holds short enough (by rw [words]; exact Nat.le_refl 2) known (by decide),fits_filename]
  refine and_iff_left ?_
  obtain ⟨r,w,_,_,parses⟩ := parsedName_confined_iff (copied_holds solid memory) (show 8 < fuel by omega)
  exact parses.mpr (Confined.pure ())

theorem kill_confined_iff : Confined WithinArray memory (StringLoops.kill fuel) ↔
    ∀ name pid, typedWords chars = [name,pid] → pid.length ≤ 2 := by
  refine two_words_iff holds short enough fun name pid words => ?_
  have known : (typedWords chars)[1]? = some pid := by rw [words]; rfl
  have kept := holds.kept_copied (b := .pidStr) (by decide) (List.replicate 3 0)
  rw [zeros_confined_iff rfl (show 3 < fuel by omega),show (1 : BitVec 16) = BitVec.ofNat 16 1 from rfl,
    confined_iff (argument_performs kept short enough (by rw [words]; exact Nat.le_refl 2) known (by decide)),copied_within_iff,
    fits_pidStr]

theorem rm_confined_iff (answers : Answers) : Confined WithinArray memory (StringLoops.rm fuel answers) ↔
    ∀ name file, typedWords chars = [name,file] → file = Command.chars "-r" ∨ file.length ≤ 11 := by
  refine two_words_iff holds short enough fun name file words => ?_
  have known : (typedWords chars)[1]? = some file := by rw [words]; rfl
  have solid := typedWord_solid holds.solid (List.mem_of_getElem? known)
  have two : 2 ≤ (typedWords chars).length := by rw [words]; exact Nat.le_refl 2
  have one : (1 : BitVec 16) = BitVec.ofNat 16 1 := rfl
  have lengths := argumentLen_performs holds short enough two known
  have room : (file.length : Int) < (ShellArray.word (BitVec.ofNat 16 file.length)).capacity := by
    show (file.length : Int) < ((BitVec.ofNat 16 file.length).toNat : Int) + 1
    have := length_argument_lt known
    rw [BitVec.toNat_ofNat,Nat.mod_eq_of_lt (by omega)]
    omega
  rw [one,confined_seen_iff lengths,argument_confined_iff holds short enough two known (by simp),and_iff_right room]
  have compared := strcmp_performs (copied_holds (a := .word (BitVec.ofNat 16 file.length)) solid memory) (Command.chars "-r")
    (by decide +kernel)
  rw [confined_seen_iff compared]
  by_cases flag : file = Command.chars "-r"
  · rw [decide_eq_true flag]
    exact iff_of_true (Confined.pure ()) (Or.inl flag)
  · rw [decide_eq_false flag,if_neg Bool.false_ne_true,or_iff_right flag,← fits_filename]
    have holds₁ := holds.kept_copied (b := .word (BitVec.ofNat 16 file.length)) (by simp) (file ++ [0])
    rw [argument_confined_iff holds₁ short enough two known (by simp)]
    refine and_iff_left_of_imp fun within => ?_
    obtain ⟨r,w,_,fields,parses⟩ := parsedName_confined_iff (copied_holds solid _) (show 8 < fuel by omega)
    refine parses.mpr ?_
    split
    · exact Confined.pure ()
    · split
      · exact Confined.pure ()
      · have holds₂ := (holds₁.kept_copied (b := .filename) (by decide) (file ++ [0])).kept fun k b member =>
          (fields k b member).elim (fun same => same ▸ by decide) fun same => same ▸ by decide
        refine (argument_confined_iff holds₂ short enough two known (by simp)).mpr ⟨within,?_⟩
        obtain ⟨r,w,_,_,parses⟩ := parsedName_confined_iff (copied_holds solid _) (show 8 < fuel by omega)
        exact parses.mpr (Confined.pure ())

theorem cd_confined_iff (answers : Answers) : Confined WithinArray memory (StringLoops.cd fuel answers) ↔
    ∀ name path, typedWords chars = [name,path] → path = Command.chars ".." ∨ ComponentsFit path := by
  refine two_words_iff holds short enough fun name path words => ?_
  have known : (typedWords chars)[1]? = some path := by rw [words]; rfl
  have solid := typedWord_solid holds.solid (List.mem_of_getElem? known)
  have two : 2 ≤ (typedWords chars).length := by rw [words]; exact Nat.le_refl 2
  have one : (1 : BitVec 16) = BitVec.ofNat 16 1 := rfl
  have length := length_argument_lt known
  have room := (fits_path path).mpr (by omega)
  have kept := holds.kept_copied (b := .path) (by decide) (List.replicate 100 0)
  have stored := copied_holds (a := .path) solid (after (copied ShellArray.path.at (List.replicate 100 0)) memory)
  rw [zeros_confined_iff rfl enough,one,argument_confined_iff kept short enough two known (by decide),and_iff_right room,
    confined_seen_iff (strcmp_performs stored [] (by simp))]
  rw [decide_eq_false (argument_ne_nil known),if_neg Bool.false_ne_true,
    confined_seen_iff (strcmp_performs stored (Command.chars "..") (by decide +kernel))]
  by_cases up : path = Command.chars ".."
  · rw [decide_eq_true up]
    exact iff_of_true (Confined.pure ()) (Or.inl up)
  · rw [decide_eq_false up,if_neg Bool.false_ne_true,or_iff_right up,confined_finally_iff]
    refine (getLastCluster_confined_iff (by simp [ShellArray.at]) (by omega) dir_cells answers.find answers.cur_cluster stored
      (by omega)).trans (and_iff_left ⟨0,Nat.zero_le 8,by simp,Or.inr ?_⟩)
    refine (copied_behind path _ 0).trans ?_
    have distinct : ∀ i j : Nat, ShellArray.path.at i = ShellArray.path.at j → i = j :=
      fun i j same => Int.ofNat.inj (congrArg Prod.snd same)
    refine (after_copied distinct (List.replicate 100 0) memory (path.length + 1 + 0)).trans ?_
    rw [List.getD_eq_getElem _ _ (by rw [List.length_replicate]; omega),List.getElem_replicate]

theorem pathArguments_confined_iff (answers : Answers) : Confined WithinArray memory (pathArguments fuel answers) ↔
    ∀ name source path, typedWords chars = [name,source,path] →
      source.length ≤ 11 ∧ (Fits83 source → ComponentsFit path ∧ StopsBehind memory path) := by
  refine three_words_iff holds short enough fun name source path words => ?_
  have known₁ : (typedWords chars)[1]? = some source := by rw [words]; rfl
  have known₂ : (typedWords chars)[2]? = some path := by rw [words]; rfl
  have solid₁ := typedWord_solid holds.solid (List.mem_of_getElem? known₁)
  have solid₂ := typedWord_solid holds.solid (List.mem_of_getElem? known₂)
  have two : 2 ≤ (typedWords chars).length := by rw [words]; exact Nat.le_succ 2
  have one : (1 : BitVec 16) = BitVec.ofNat 16 1 := rfl
  have second : (2 : BitVec 16) = BitVec.ofNat 16 2 := rfl
  have length := length_argument_lt known₂
  have room := (fits_path path).mpr (by omega)
  have holds₁ := holds.kept_copied (b := .filename) (by decide) (source ++ [0])
  have named := (copied_holds (a := .filename) solid₁ memory).kept_copied (b := .path) (by decide) (path ++ [0])
  obtain ⟨r,w,accepts,fields,parses⟩ := parsedName_confined_iff named (show 8 < fuel by omega)
  rw [one,second,argument_confined_iff holds short enough two known₁ (by decide),fits_filename,
    argument_confined_iff holds₁ short enough two known₂ (by decide),and_iff_right room,parses]
  refine and_congr_right fun _ => ?_
  by_cases valid : Fits83 source
  · rw [if_neg (not_not.mpr (accepts.mpr valid)),confined_finally_iff,imp_iff_right valid]
    have stored := (copied_holds (a := .path) solid₂ (after (copied ShellArray.filename.at (source ++ [0])) memory)).kept
      fun k b member => (fields k b member).elim (fun same => same ▸ by decide) fun same => same ▸ by decide
    refine (getLastCluster_confined_iff (by simp [ShellArray.at]) (by omega) dir_cells answers.find answers.cur_cluster stored
      (by omega)).trans (and_congr_right fun _ => exists_congr fun n => and_congr_right fun _ => Stops.congr fun j => ?_)
    have untouched : ∀ b, (ShellArray.path.at (path.length + 1 + j),b) ∉ w := fun b member =>
      (fields _ b member).elim (by simp [ShellArray.at]) (by simp [ShellArray.at])
    have elsewhere : ∀ b, (ShellArray.path.at (path.length + 1 + j),b) ∉ copied ShellArray.filename.at (source ++ [0]) :=
      fun b member => absurd (copied_array member) (by simp [ShellArray.at])
    rw [after_other untouched,copied_behind,after_other elsewhere]
  · rw [if_pos fun zero => valid (accepts.mp zero)]
    exact iff_of_true (Confined.pure ()) fun fits => absurd fits valid

end commands

-- Every byte that a command's getWord and getDir store lies in the array they were handed
-- exactly when its arguments fit.
theorem arguments_confined_iff {memory : ShellPlace → Byte} {chars : List Byte} {fuel : Nat}
    (holds : HoldsString memory ShellArray.command.at chars) (short : chars.length ≤ 99) (enough : 100 < fuel) (answers : Answers)
    (c : ShellCommand) : Confined WithinArray memory (c.arguments fuel answers) ↔ ArgumentsFit memory chars c := by
  cases c with
  | rm => exact rm_confined_iff holds short enough answers
  | mkdir => exact oneName_confined_iff holds short enough
  | cd => exact cd_confined_iff holds short enough answers
  | cat => exact oneName_confined_iff holds short enough
  | exec => exact oneName_confined_iff holds short enough
  | findShell => exact oneName_confined_iff holds short enough
  | mvPath => exact pathArguments_confined_iff holds short enough answers
  | copyPath => exact pathArguments_confined_iff holds short enough answers
  | kill => exact kill_confined_iff holds short enough

def stackWith (line : List Byte) : ShellPlace → Byte := fun k =>
  if k.1 = .command ∧ 0 ≤ k.2 then line.getD k.2.toNat 0 else 0x41

theorem stackWith_holds {line : List Byte} (solid : ∀ b ∈ line, b ≠ 0) :
    HoldsString (stackWith line) ShellArray.command.at line :=
  .of_getD (fun i _ => by simp [stackWith,ShellArray.at]) solid

def quiet : Answers := ⟨fun _ _ => 9999,2,0⟩

-- A path may have any number of components of up to eight characters.
theorem long_path_fits : Confined WithinArray (stackWith (Command.chars "cd abcdefgh/b/abcdefgh"))
    (ShellCommand.arguments 101 quiet .cd) := by
  refine (arguments_confined_iff (stackWith_holds (by decide +kernel)) (by decide +kernel) (by decide) quiet .cd).mpr ?_
  intro name path words
  have known : typedWords (Command.chars "cd abcdefgh/b/abcdefgh") = [Command.chars "cd",Command.chars "abcdefgh/b/abcdefgh"] := by
    decide +kernel
  rw [known] at words
  cases words
  right
  unfold ComponentsFit
  decide +kernel

-- A full 8.3 name has 12 characters, and the terminator is stored behind filename[12].
theorem full_name_overflows : Fits83 (Command.chars "abcdefgh.txt") ∧
    ¬ Confined WithinArray (stackWith (Command.chars "cat abcdefgh.txt")) (ShellCommand.arguments 101 quiet .cat) := by
  refine ⟨by unfold Fits83; decide +kernel,fun confined => ?_⟩
  have holds := @stackWith_holds (Command.chars "cat abcdefgh.txt") (by decide +kernel)
  have known : typedWords (Command.chars "cat abcdefgh.txt") = [Command.chars "cat",Command.chars "abcdefgh.txt"] := by
    decide +kernel
  have eleven := (oneName_confined_iff holds (by decide +kernel) (by decide)).mp confined _ _ known
  exact absurd eleven (by decide +kernel)

end Sosis.StringLoops
