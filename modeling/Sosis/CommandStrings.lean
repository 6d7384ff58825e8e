import Sosis.Fat32Layout

-- string.c, and the functions of command-shell.c that cut up an argument. A C string
-- is the list of its bytes in front of the terminator; a result `none` is a call that
-- reads in front of the string or writes past the caller's buffer.
namespace Sosis.Command
open ByteRecords Fat32

def chars (text : String) : List Byte := text.toList.map fun c => BitVec.ofNat 8 c.toNat

def space : Byte := 0x20
def dot : Byte := 0x2E
def slash : Byte := 0x2F

-- The test that countWords, wordLen and getWord make at every i < strlen(str)-1. A
-- word that starts at the last byte of the string is seen from the space before it.
def wordAt (str : List Byte) (i : Nat) : Option Nat :=
  if i = 0 ∧ str.getD i 0 ≠ space then some i
  else if str.getD i 0 = space ∧ str.getD (i+1) 0 ≠ space then some (i+1)
  else none

def wordStarts (str : List Byte) : List Nat := (List.range (str.length-1)).filterMap (wordAt str)

def countWords (str : List Byte) : Nat := (wordStarts str).length

def wordEnd (str : List Byte) (word_start : Nat) : Nat :=
  ((List.range (str.length-1)).find? fun i => word_start ≤ i && str.getD i 0 == space).getD str.length

def wordLen (str : List Byte) (idx : Nat) : Nat :=
  match (wordStarts str)[idx]? with
  | none => (str.length+1) % 2^16
  | some word_start => (wordEnd str word_start - word_start) % 2^16

def getWord (str : List Byte) (idx size : Nat) : Option (List Byte) :=
  match (wordStarts str)[idx]? with
  | none => none
  | some word_start =>
    if wordLen str idx < size then some ((str.drop word_start).take (wordLen str idx)) else none

def padded (n : Nat) (bytes : List Byte) : Fin n → Byte := fun i => bytes.getD i 0

def parseFileName (filename : List Byte) : Option (Name × Ext) :=
  let name := (filename.take 8).takeWhile (· != dot)
  match filename.drop name.length with
  | [] => some (padded 8 name,padded 3 [])
  | c :: ext =>
    if c ≠ dot then none
    else if 3 < ext.length then none
    else some (padded 8 name,padded 3 ext)

def getDir (path : List Byte) (delimiter : Byte) (idx : Nat) : Option (Name × Nat) :=
  let dir := (path.drop idx).takeWhile (· != delimiter)
  if dir.length ≤ 8 then some (padded 8 dir,idx+dir.length+1) else none

def countPath (path : List Byte) : Nat := path.count slash + 1

-- The digits of an int, the last one first. C's quotient rounds towards zero, so a
-- negative number comes out in the characters below '0'.
def digits : Nat → Int → List Byte
  | 0,_ => []
  | turns+1,number =>
    BitVec.ofInt 8 (48 + number.tmod 10) :: if number.tdiv 10 = 0 then [] else digits turns (number.tdiv 10)

def integerText (number : Int) : List Byte := (digits 20 number).reverse

end Sosis.Command
