import Sosis.TracedMemory
import Sosis.CommandStrings

-- The word functions and parseFileName of string.c as they run, loop by loop, with each
-- byte read and stored where the source does it. A pointer is the cells behind it, by
-- index; `fuel` is the turns a loop may take.
namespace Sosis.StringLoops
open ByteRecords Fat32 TracedMemory
open Command (space dot slash)

section code
variable {κ : Type} [DecidableEq κ] (fuel : Nat)

def strlen (str : Int → κ) : Traced κ Byte Int :=
  loop (fun len : Int => test (· != 0) (str len)) (fun len => pure (len+1)) fuel 0

-- The test that the three loops below share, and the index of the word it sees start.
def newWord (str : Int → κ) (i : Int) : Traced κ Byte (Option Int) := do
  let first ← (if i = 0 then test (· != space) (str i) else pure false)
  if first then pure (some i)
  else if ← test (· == space) (str i) then
    return if ← test (· != space) (str (i+1)) then some (i+1) else none
  else pure none

def countWords (str : Int → κ) : Traced κ Byte Int := do
  let s ← loop (fun s : Int × Int => do return s.1 < (← strlen fuel str) - 1)
    (fun s => do
      match ← newWord str s.1 with
      | some _ => return (s.1+1,s.2+1)
      | none => return (s.1+1,s.2)) fuel (0,0)
  return s.2

structure WordScan where
  i : Int
  ctr : Int
  word_start : Int
  word_end : Int

def WordScan.turn (str : Int → κ) (idx : BitVec 16) (s : WordScan) : Traced κ Byte WordScan := do
  let ends ← (if s.word_start ≠ -1 ∧ s.word_end = -1 then test (· == space) (str s.i) else pure false)
  let word_end := if ends then s.i else s.word_end
  match ← newWord str s.i with
  | some start => return ⟨s.i+1,s.ctr+1,if s.ctr+1 = idx.toNat+1 then start else s.word_start,word_end⟩
  | none => return ⟨s.i+1,s.ctr,s.word_start,word_end⟩

-- `n` is a uint16_t.
def wordLen (str : Int → κ) (idx : BitVec 16) : Traced κ Byte (BitVec 16) := do
  let s ← loop (fun s : WordScan => do return s.i < (← strlen fuel str) - 1) (WordScan.turn str idx) fuel ⟨0,0,-1,-1⟩
  let word_end ← (if s.word_end = -1 then strlen fuel str else pure s.word_end)
  return BitVec.ofInt 16 (word_end - s.word_start)

structure WordSearch where
  i : Int
  ctr : Int
  word_start : Int

def WordSearch.turn (str : Int → κ) (idx : BitVec 16) (s : WordSearch) : Traced κ Byte WordSearch := do
  match ← newWord str s.i with
  | some start => return ⟨s.i+1,s.ctr+1,if s.ctr+1 = idx.toNat+1 then start else s.word_start⟩
  | none => return ⟨s.i+1,s.ctr,s.word_start⟩

def getWord (str : Int → κ) (idx : BitVec 16) (buf : Int → κ) : Traced κ Byte Unit := do
  let s ← loop (fun s : WordSearch => do return s.i < (← strlen fuel str) - 1) (WordSearch.turn str idx) fuel ⟨0,0,-1⟩
  let n ← wordLen fuel str idx
  let _ ← loop (fun i : Int => pure (i < n.toNat)) (fun i => do
    store (buf i) (← read (str (s.word_start + i)))
    return i+1) fuel 0
  store (buf n.toNat) 0

-- `start` and `last` are uint16_t; the loop stops in front of `last`.
def addTrailingNull (str : Int → κ) (start last : BitVec 16) : Traced κ Byte Unit := do
  let _ ← loop (fun i : BitVec 16 => pure (i < last)) (fun i => do
    store (str i.toNat) 0
    return i+1) fuel start

-- The condition of the first loop.
def inName (filename : Int → κ) (i : Int) : Traced κ Byte Bool :=
  if i < 8 then do
    if ← test (· != dot) (filename i) then test (· != 0) (filename i) else pure false
  else pure false

-- The condition of the second.
def inExt (filename : Int → κ) (fnlen i : Int) : Traced κ Byte Bool :=
  if i ≤ fnlen+3 then test (· != 0) (filename i) else pure false

-- 0 for a name that fits, 1 for one that does not.
def parseFileName (filename name ext : Int → κ) : Traced κ Byte Int := do
  let i ← loop (inName filename) (fun i => do
    store (name i) (← read (filename i))
    return i+1) fuel 0
  addTrailingNull fuel name (BitVec.ofInt 16 i) 8
  if ← test (· == 0) (filename i) then
    addTrailingNull fuel ext 0 3
    return 0
  else if ← test (· != dot) (filename i) then return 1
  else
    let fnlen := i
    let i ← loop (inExt filename fnlen) (fun i => do
      store (ext (i-fnlen-1)) (← read (filename i))
      return i+1) fuel (i+1)
    addTrailingNull fuel ext (BitVec.ofInt 16 (i-fnlen-1)) 3
    if ← test (· != 0) (filename i) then return 1 else return 0

end code

-- The bytes of a C string in memory.
structure HoldsString {κ : Type} (memory : κ → Byte) (str : Int → κ) (chars : List Byte) : Prop where
  byte : ∀ i (inside : i < chars.length), memory (str i) = chars[i]
  nul : memory (str chars.length) = 0
  solid : ∀ b ∈ chars, b ≠ 0

-- The cells from the first byte to the terminator.
def Inside {κ : Type} (str : Int → κ) (chars : List Byte) (k : κ) : Prop := ∃ i : Nat, i ≤ chars.length ∧ k = str i

end Sosis.StringLoops
