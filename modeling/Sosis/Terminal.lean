import Sosis.StringMemory

-- framebuffer.c, and putchar and puts of interrupt.c. A result `none` is a call whose
-- nesting goes deeper than it was allowed to.
namespace Sosis.Console
open ByteRecords StringMemory
open Fat32 (Word Memory)

abbrev TERMINAL_HEIGHT : Nat := 25
abbrev TERMINAL_WIDTH : Nat := 80

def FRAMEBUFFER_MEMORY_OFFSET : Word := 0xC00B8000

def charOf (c : Char) : Byte := BitVec.ofNat 8 c.toNat

-- `location` is what the CRT controller was told last.
structure Terminal where
  ram : Ram
  cursor_row : Byte
  cursor_col : Byte
  location : BitVec 16

namespace Terminal

def framebuffer_set_cursor (t : Terminal) (r c : Byte) : Terminal :=
  {t with location := BitVec.ofNat 16 (r.toNat*80 + c.toNat), cursor_row := r, cursor_col := c}

def write_exact_loc (t : Terminal) (row col c fg bg : Byte) : Terminal :=
  let loc := (row.toNat*80 + col.toNat)*2
  let color := (bg <<< 4) ||| (fg &&& 0x0F)
  let ram := t.ram.store (FRAMEBUFFER_MEMORY_OFFSET + BitVec.ofNat 32 loc) c
  {t with ram := ram.store (FRAMEBUFFER_MEMORY_OFFSET + BitVec.ofNat 32 (loc+1)) color}

def nextRow (framebuffer_auto_down : Terminal → Option Terminal) (t : Terminal) : Option Terminal :=
  let t := {t with cursor_col := 0, cursor_row := t.cursor_row+1}
  if TERMINAL_HEIGHT ≤ t.cursor_row.toNat then
    (framebuffer_auto_down t).map fun t => {t with cursor_row := 24}
  else some t

def moveRows (t : Terminal) : Terminal :=
  let ram := t.ram.memmove FRAMEBUFFER_MEMORY_OFFSET (FRAMEBUFFER_MEMORY_OFFSET + BitVec.ofNat 32 (TERMINAL_WIDTH*2))
    (BitVec.ofNat 32 (2*TERMINAL_WIDTH*(TERMINAL_HEIGHT-1)))
  {t with ram := ram}

-- The calls still allowed to nest come first.
mutual

def framebuffer_write : Nat → Terminal → Byte → Byte → Byte → Byte → Byte → Option Terminal
  | 0,_,_,_,_,_,_ => none
  | depth+1,t,row,col,c,fg,bg =>
    if c = charOf '\n' then
      (nextRow (framebuffer_auto_down depth) t).map fun t => t.framebuffer_set_cursor t.cursor_row t.cursor_col
    else do
      let (row,col) := if TERMINAL_WIDTH ≤ col.toNat then (row+1,0) else (row,col)
      let t ← if TERMINAL_HEIGHT ≤ row.toNat then framebuffer_auto_down depth t else some t
      let row := if TERMINAL_HEIGHT ≤ row.toNat then 24 else row
      let t := t.write_exact_loc row col c fg bg
      let t ← if TERMINAL_WIDTH ≤ t.cursor_col.toNat then nextRow (framebuffer_auto_down depth) t else some t
      some (t.framebuffer_set_cursor t.cursor_row t.cursor_col)

def framebuffer_auto_down : Nat → Terminal → Option Terminal
  | 0,_ => none
  | depth+1,t => do
    let t ← (List.range TERMINAL_WIDTH).foldlM (fun t col =>
      framebuffer_write depth t 24 (BitVec.ofNat 8 col) (charOf ' ') 0x07 0x00) t.moveRows
    some (t.framebuffer_set_cursor 24 0)

end

-- A call from outside may nest this deep: a write, the scroll it asks for, a write of
-- that scroll that finds the cursor past its row, its own scroll and the writes of that.
def callDepth : Nat := 5

def framebuffer_clear (t : Terminal) : Terminal :=
  let ram := t.ram.memset FRAMEBUFFER_MEMORY_OFFSET 0 (BitVec.ofNat 32 (80*25*2))
  let t := {t with ram := ram, cursor_row := 0, cursor_col := 0}
  t.framebuffer_set_cursor t.cursor_row t.cursor_col

def clearScreen (t : Terminal) : Terminal := t.framebuffer_clear.framebuffer_set_cursor 0 0

def advance (t : Terminal) (c fg bg : Byte) : Option Terminal := do
  let t := if TERMINAL_WIDTH ≤ t.cursor_col.toNat then {t with cursor_col := 0, cursor_row := t.cursor_row+1} else t
  let t ← framebuffer_write callDepth t t.cursor_row t.cursor_col c fg bg
  let t := {t with cursor_col := t.cursor_col+1}
  some (t.framebuffer_set_cursor t.cursor_row t.cursor_col)

def retreat (t : Terminal) (row col : Byte) : Option Terminal := do
  let t := {t with cursor_row := row, cursor_col := col}
  let t ← framebuffer_write callDepth t t.cursor_row t.cursor_col (charOf ' ') 0xF 0
  some (t.framebuffer_set_cursor t.cursor_row t.cursor_col)

def backspace (t : Terminal) : Option Terminal :=
  if 0 < t.cursor_row ∧ t.cursor_col = 0 then t.retreat (t.cursor_row-1) 79
  else if 0 < t.cursor_col then t.retreat t.cursor_row (t.cursor_col-1)
  else some t

def interpret (t : Terminal) (c textColor : Byte) : Option Terminal :=
  if c = charOf '\n' then
    (nextRow (framebuffer_auto_down callDepth) t).map fun t => t.framebuffer_set_cursor t.cursor_row t.cursor_col
  else if c = charOf '\t' then
    (List.range 4).foldlM (fun t _ => t.advance (charOf ' ') 0xF 0) t
  else if c = 0x08 then t.backspace
  else t.advance c textColor 0

def putchar (t : Terminal) (c textColor : Byte) : Option Terminal :=
  if c = 0 then some t
  else do
    let t ← t.interpret c textColor
    framebuffer_write callDepth t t.cursor_row (t.cursor_col+1) (charOf ' ') 0xF 0

-- The turns of the loop still to come; `ebx` is the text as the loop finds it.
def putsLoop (ebx : Bytes) (edx : Word) : Nat → Nat → Terminal → Option Terminal
  | 0,_,t => some t
  | turns+1,i,t => do
    let t ← t.putchar (ebx i) (edx.truncate 8)
    let t ← if TERMINAL_HEIGHT ≤ t.cursor_row.toNat then
        (framebuffer_auto_down callDepth t).map fun t => {t with cursor_row := 24}
      else some t
    putsLoop ebx edx turns (i+1) t

-- `(int)ecx` turns, none when that is negative
def puts (t : Terminal) (ebx : Bytes) (ecx edx : Word) : Option Terminal := putsLoop ebx edx ecx.toInt.toNat 0 t

def boot (memory : Memory) : Terminal := ⟨⟨memory,[]⟩,0,0,0⟩

end Terminal

end Sosis.Console
