import Sosis.Terminal

-- keyboard.c: scancodes to characters and cursor moves.
namespace Sosis.Console
open ByteRecords StringMemory
open Fat32 (Word Memory)

def CAPSLOCK_SCANCODE : Byte := 0x3A
def LEFT_SHIFT_SCANCODE : Byte := 0x2A
def RIGHT_SHIFT_SCANCODE : Byte := 0x36
def LEFT_SHIFT_RELEASE_SCANCODE : Byte := 0xAA
def RIGHT_SHIFT_RELEASE_SCANCODE : Byte := 0xB6
def CTRL_SCANCODE : Byte := 0x1D
def CTRL_RELEASE_SCANCODE : Byte := 0x9D
def EXT_SCANCODE_UP : Byte := 0x48
def EXT_SCANCODE_DOWN : Byte := 0x50
def EXT_SCANCODE_LEFT : Byte := 0x4B
def EXT_SCANCODE_RIGHT : Byte := 0x4D

-- A table of 256 characters, zero behind the ones written out.
def asciiMap (rows : List String) (scancode : Byte) : Byte :=
  ((rows.flatMap String.toList).map charOf).getD scancode.toNat 0

-- What follows the space bar: six zeros at 3A to 3F, then 40 to 4E with the two signs
-- of the number pad.
def keypad : String := "\x00\x00\x00\x00\x00\x00\x00\x00\x00\x00\x00\x00\x00\x00\x00\x00-\x00\x00\x00+"

def keyboard_scancode_1_to_ascii_map : Byte → Byte := asciiMap
  ["\x00\x1b1234567890-=\x08\t",
   "qwertyuiop[]\n\x00as",
   "dfghjkl;'`\x00\\zxcv",
   "bnm,./\x00*\x00 ",keypad]

def keyboard_scancode_caps_to_ascii_map : Byte → Byte := asciiMap
  ["\x00\x1b1234567890-=\x08\t",
   "QWERTYUIOP[]\n\x00AS",
   "DFGHJKL;'`\x00\\ZXCV",
   "BNM,./\x00*\x00 ",keypad]

def keyboard_scancode_shift_to_ascii_map : Byte → Byte := asciiMap
  ["\x00\x1b!@#$%^&*()_+\x08\t",
   "QWERTYUIOP\x7b\x7d\n\x00AS",
   "DFGHJKL:\"~\x00|ZXCV",
   "BNM<>?\x00*\x00 "]

structure KeyboardDriverState where
  read_extended_mode : Bool
  keyboard_input_on : Bool
  keyboard_buffer : Byte
  capslock_on : Bool
  shift_on : Bool
  ctrl_on : Bool

-- What the keyboard and the screen share: the ISR moves the cursor.
structure Session where
  terminal : Terminal
  keyboard_state : KeyboardDriverState

namespace Session

def keyboard_state_activate (s : Session) : Session :=
  {s with keyboard_state := {s.keyboard_state with keyboard_input_on := true}}

def get_keyboard_buffer (s : Session) : Byte × Session :=
  (s.keyboard_state.keyboard_buffer,{s with keyboard_state := {s.keyboard_state with keyboard_buffer := 0}})

def moveCursor (s : Session) (row col : Byte) : Session :=
  {s with terminal := s.terminal.framebuffer_set_cursor row col}

end Session

def KeyboardDriverState.modifiers (k : KeyboardDriverState) (scancode : Byte) : KeyboardDriverState :=
  if scancode = LEFT_SHIFT_SCANCODE ∨ scancode = RIGHT_SHIFT_SCANCODE then {k with shift_on := true}
  else if scancode = LEFT_SHIFT_RELEASE_SCANCODE ∨ scancode = RIGHT_SHIFT_RELEASE_SCANCODE then {k with shift_on := false}
  else if scancode = CTRL_SCANCODE then {k with ctrl_on := true}
  else if scancode = CTRL_RELEASE_SCANCODE then {k with ctrl_on := false}
  else k

def KeyboardDriverState.ascii_char (k : KeyboardDriverState) (scancode : Byte) : Byte :=
  let ascii_char :=
    if k.capslock_on then keyboard_scancode_caps_to_ascii_map scancode
    else if k.shift_on then keyboard_scancode_shift_to_ascii_map scancode
    else keyboard_scancode_1_to_ascii_map scancode
  if k.capslock_on ∧ charOf 'a' ≤ ascii_char ∧ ascii_char ≤ charOf 'z' then ascii_char + (charOf 'a' - charOf 'A')
  else ascii_char

namespace Session

-- The arrow keys; `none` where the scancode goes on to the character tables.
def arrowKey (s : Session) (scancode : Byte) : Option Session :=
  let row := s.terminal.cursor_row
  let col := s.terminal.cursor_col
  if scancode = EXT_SCANCODE_UP then
    some (if 0 < row then s.moveCursor (row-1) col else s)
  else if scancode = EXT_SCANCODE_DOWN then
    some (if row < 24 then s.moveCursor (row+1) col else s)
  else if scancode = EXT_SCANCODE_RIGHT ∧ ¬ (row = 24 ∧ col = 79) then
    some (if col = 79 then s.moveCursor (row+1) 0 else s.moveCursor row (col+1))
  else if scancode = EXT_SCANCODE_LEFT ∧ ¬ (row = 0 ∧ col = 0) then
    some (if col = 0 then s.moveCursor (row-1) 79 else s.moveCursor row (col-1))
  else none

def keyboard_isr (s : Session) (scancode : Byte) : Session :=
  if !s.keyboard_state.keyboard_input_on then s
  else if scancode = CAPSLOCK_SCANCODE then
    {s with keyboard_state := {s.keyboard_state with capslock_on := !s.keyboard_state.capslock_on}}
  else
    let s := {s with keyboard_state := s.keyboard_state.modifiers scancode}
    match s.arrowKey scancode with
    | some s => s
    | none =>
      let ascii_char := s.keyboard_state.ascii_char scancode
      {s with keyboard_state := {s.keyboard_state with keyboard_buffer := ascii_char}}

end Session

inductive ConsoleAction where
  | putchar (c textColor : Byte)
  | puts (ebx : Bytes) (ecx edx : Word)
  | key (scancode : Byte)
  | clear
  | activate

namespace Session

def onTerminal (s : Session) (result : Option Terminal) : Option Session := result.map fun t => {s with terminal := t}

def respond (s : Session) : ConsoleAction → Option Session
  | .putchar c textColor => s.onTerminal (s.terminal.putchar c textColor)
  | .puts ebx ecx edx => s.onTerminal (s.terminal.puts ebx ecx edx)
  | .key scancode => some (s.keyboard_isr scancode)
  | .clear => some {s with terminal := s.terminal.clearScreen}
  | .activate => some s.keyboard_state_activate

def perform (s : Session) (actions : List ConsoleAction) : Option Session := actions.foldlM respond s

-- The screen cleared, the cursor in its corner.
def cleared (memory : Memory) (keyboard_state : KeyboardDriverState) : Session :=
  ⟨(Terminal.boot memory).clearScreen,keyboard_state⟩

end Session

end Sosis.Console
