import Sosis.RowLayout
import Sosis.ScreenCells

-- The screen as a sheet of text. putchar blanks the cell behind the cursor, and at the
-- last but one column of the last row that cell is on a row of its own: the screen scrolls
-- one character early, and from there on rows are 79 columns wide.
namespace Sosis.Console
open ByteRecords StringMemory RowLayout
open Fat32 (Word Memory)

-- NUL and space are the same to a reader.
def reading (c : Byte) : Byte := if c = 0 then charOf ' ' else c

def isNewline (c : Byte) : Bool := c == charOf '\n'

def Printable (c : Byte) : Prop := 0x20 ≤ c ∧ c ≤ 0x7E

-- Every row has 80 columns.
def gridLayout (text : List Byte) : Sheet Byte := Sheet.layout isNewline (fun _ => TERMINAL_WIDTH) text

def columns (above : Nat) : Nat := if above < 24 then TERMINAL_WIDTH else TERMINAL_WIDTH-1

def narrowLayout (text : List Byte) : Sheet Byte := Sheet.layout isNewline columns text

-- What one cell of the last 25 rows of a sheet reads as.
def sheetReads (s : Sheet Byte) (i j : Nat) : Byte := reading ((s.cell TERMINAL_HEIGHT i j).getD 0)

def SameWindow (s s' : Sheet Byte) : Prop :=
  ∀ i < TERMINAL_HEIGHT, ∀ j < TERMINAL_WIDTH, sheetReads s i j = sheetReads s' i j

-- The length goes to puts as a uint32_t and is an int there: all of the text, up to 2^31-1
-- characters.
def printed (text : List Byte) : List Byte := text.take (BitVec.ofNat 32 text.length).toInt.toNat

namespace Terminal
variable {t t' : Terminal} {s : Sheet Byte}

def Depicts (t : Terminal) (s : Sheet Byte) : Prop :=
  ∀ i < TERMINAL_HEIGHT, ∀ j < TERMINAL_WIDTH, reading (t.glyph i j) = sheetReads s i j

-- What puts leaves on a cleared screen are the last rows of the grid.
def FixedGrid (t : Terminal) (text : List Byte) (color : Word) : Prop :=
  ∃ t', t.clearScreen.puts (fun i => text.getD i 0) (BitVec.ofNat 32 text.length) color = some t' ∧
    Depicts t' (gridLayout text)

structure Follows (t : Terminal) (s : Sheet Byte) : Prop where
  row : t.cursor_row.toNat = min s.done.length 24
  col : t.cursor_col.toNat = s.cur.length
  room : s.cur.length < columns s.done.length
  depicts : Depicts t s

theorem columns_le (above : Nat) : columns above ≤ TERMINAL_WIDTH := by
  unfold columns
  split
  · exact Nat.le_refl _
  · exact Nat.sub_le _ _

theorem columns_positive (above : Nat) : 0 < columns above := by
  unfold columns
  split
  · exact Nat.zero_lt_succ 79
  · exact Nat.zero_lt_succ 78

theorem Depicts.put (depicts : Depicts t s) {c : Byte} (wrote : Wrote t (min s.done.length 24) s.cur.length c t') :
    Depicts t' (s.add c) := by
  intro i iBound j jBound
  have added : (s.add c).cell TERMINAL_HEIGHT i j =
      if i = min s.done.length 24 ∧ j = s.cur.length then some c else s.cell TERMINAL_HEIGHT i j := Sheet.cell_add c iBound
  unfold sheetReads
  rw [wrote i iBound j jBound,added]
  by_cases here : i = min s.done.length 24 ∧ j = s.cur.length
  · rw [if_pos here,if_pos here,Option.getD_some]
  · rw [if_neg here,if_neg here]
    exact depicts i iBound j jBound

theorem Depicts.erase (depicts : Depicts t s) {row col : Nat} (empty : s.cell TERMINAL_HEIGHT row col = none)
    (wrote : Wrote t row col (charOf ' ') t') : Depicts t' s := by
  intro i iBound j jBound
  rw [wrote i iBound j jBound]
  by_cases here : i = row ∧ j = col
  · rw [if_pos here]
    unfold sheetReads
    rw [here.1,here.2,empty]
    rfl
  · rw [if_neg here]
    exact depicts i iBound j jBound

theorem Depicts.newRow_early (depicts : Depicts t s) (few : s.done.length < 24) : Depicts t s.newRow := by
  intro i iBound j jBound
  unfold sheetReads
  rw [Sheet.cell_newRow_early (Nat.succ_lt_succ few)]
  exact depicts i iBound j jBound

theorem Depicts.newRow_late (depicts : Depicts t s) (full : 24 ≤ s.done.length) (scrolled : Scrolled t t') :
    Depicts t' s.newRow := by
  intro i iBound j jBound
  unfold sheetReads
  rw [scrolled i iBound j jBound,Sheet.cell_newRow_late (Nat.succ_le_succ full)]
  simp only [TERMINAL_HEIGHT] at iBound
  by_cases last : i = 24
  · have none : s.rows.length ≤ s.done.length + 1 - TERMINAL_HEIGHT + (i+1) := by
      rw [Sheet.length_rows]
      simp only [TERMINAL_HEIGHT]
      omega
    rw [if_pos last,Sheet.cell_eq,List.getElem?_eq_none none]
    rfl
  · rw [if_neg last]
    exact depicts (i+1) (by simp only [TERMINAL_HEIGHT]; omega) j jBound

-- Behind the text of the current row everything is blank.
theorem cell_behind {i j : Nat} (iBound : i < TERMINAL_HEIGHT) (behind : min s.done.length 24 < i ∨
    i = min s.done.length 24 ∧ s.cur.length ≤ j) : s.cell TERMINAL_HEIGHT i j = none := by
  rcases behind with below | ⟨rfl,right⟩
  · exact Sheet.cell_below below iBound
  · exact (Sheet.cell_cur (Nat.zero_lt_succ 24)).trans (List.getElem?_eq_none right)

theorem advance_writes {row col : Nat} (at_ : t.At row col) (rowBound : row < TERMINAL_HEIGHT) (colBound : col < TERMINAL_WIDTH)
    {c : Byte} (fg bg : Byte) (text : c ≠ charOf '\n') :
    ∃ t', t.advance c fg bg = some t' ∧ Wrote t row col c t' ∧ t'.At row (col+1) := by
  obtain ⟨rfl,rfl⟩ := at_
  refine ⟨(t.write_exact_loc t.cursor_row t.cursor_col c fg bg).framebuffer_set_cursor t.cursor_row (t.cursor_col+1),?_,
    write_exact_loc_wrote c fg bg rowBound colBound,rfl,?_⟩
  · simp only [advance,Nat.not_le.mpr colBound,if_false,callDepth,
      framebuffer_write_plain 4 fg bg text rowBound colBound colBound,Option.bind_eq_bind,Option.bind_some]
    rfl
  · simp only [TERMINAL_WIDTH] at colBound
    exact byte_add_one (by omega)

-- The blank behind the cursor: in its row, in the next one, or in one that a scroll makes.
section erase
variable {row col : Nat}

def erase (t : Terminal) : Option Terminal := framebuffer_write callDepth t t.cursor_row (t.cursor_col+1) (charOf ' ') 0xF 0

theorem erase_inRow (at_ : t.At row col) (rowBound : row < TERMINAL_HEIGHT) (colBound : col + 1 < TERMINAL_WIDTH) :
    ∃ t', t.erase = some t' ∧ Wrote t row (col+1) (charOf ' ') t' ∧ t'.At row col := by
  obtain ⟨rfl,rfl⟩ := at_
  simp only [TERMINAL_WIDTH] at colBound
  have next : (t.cursor_col+1).toNat = t.cursor_col.toNat+1 := byte_add_one (by omega)
  have inRow : (t.cursor_col+1).toNat < TERMINAL_WIDTH := next ▸ colBound
  exact ⟨_,framebuffer_write_plain 4 0xF 0 blank_text rowBound inRow (Nat.lt_of_succ_lt colBound),
    next ▸ write_exact_loc_wrote (charOf ' ') 0xF 0 rowBound inRow,rfl,rfl⟩

theorem erase_nextRow (at_ : t.At row 79) (rowBound : row + 1 < TERMINAL_HEIGHT) :
    ∃ t', t.erase = some t' ∧ Wrote t (row+1) 0 (charOf ' ') t' ∧ t'.At row 79 := by
  obtain ⟨rfl,last⟩ := at_
  simp only [TERMINAL_HEIGHT] at rowBound
  have next : (t.cursor_row+1).toNat = t.cursor_row.toNat+1 := byte_add_one (by omega)
  have past : TERMINAL_WIDTH ≤ (t.cursor_col+1).toNat := by
    rw [byte_add_one (by omega),last]
  have below : (t.cursor_row+1).toNat < TERMINAL_HEIGHT := next ▸ rowBound
  have start : (0 : Byte).toNat < TERMINAL_WIDTH := by decide
  refine ⟨_,(framebuffer_write_wrap 4 _ 0xF 0 past).trans
    (framebuffer_write_plain 4 0xF 0 blank_text below start (last ▸ Nat.lt_succ_self 79)),
    next ▸ write_exact_loc_wrote (charOf ' ') 0xF 0 below start,rfl,last⟩

theorem erase_turns (at_ : t.At row 80) (rowBound : row + 1 < TERMINAL_HEIGHT) :
    ∃ t', t.erase = some t' ∧ Wrote t (row+1) 0 (charOf ' ') t' ∧ t'.At (row+1) 0 := by
  obtain ⟨rfl,last⟩ := at_
  simp only [TERMINAL_HEIGHT] at rowBound
  have next : (t.cursor_row+1).toNat = t.cursor_row.toNat+1 := byte_add_one (by omega)
  have past : TERMINAL_WIDTH ≤ (t.cursor_col+1).toNat := by
    rw [byte_add_one (by omega),last]
    exact Nat.le_succ 80
  have below : (t.cursor_row+1).toNat < TERMINAL_HEIGHT := next ▸ rowBound
  have start : (0 : Byte).toNat < TERMINAL_WIDTH := by decide
  refine ⟨_,(framebuffer_write_wrap 4 _ 0xF 0 past).trans
    (framebuffer_write_past 4 0xF 0 blank_text below start (Nat.le_of_eq last.symm) below),
    next ▸ write_exact_loc_wrote (charOf ' ') 0xF 0 below start,next,rfl⟩

theorem erase_scrolls (at_ : t.At 24 79) :
    ∃ middle t', t.erase = some t' ∧ Scrolled t middle ∧ Wrote middle 24 0 (charOf ' ') t' ∧ t'.At 24 0 := by
  obtain ⟨last,lastCol⟩ := at_
  have past : TERMINAL_WIDTH ≤ (t.cursor_col+1).toNat := by
    rw [byte_add_one (by omega),lastCol]
  have below : TERMINAL_HEIGHT ≤ (t.cursor_row+1).toNat := by
    rw [byte_add_one (by omega),last]
  have start : (0 : Byte).toNat < TERMINAL_WIDTH := by decide
  have rowBound : (24 : Byte).toNat < TERMINAL_HEIGHT := by decide
  obtain ⟨middle,down,scrolled,row,col⟩ := auto_down_scrolls (t := t) 2 (lastCol ▸ Nat.lt_succ_self 79)
  refine ⟨middle,
    (middle.write_exact_loc 24 0 (charOf ' ') 0xF 0).framebuffer_set_cursor middle.cursor_row middle.cursor_col,?_,scrolled,
    write_exact_loc_wrote (charOf ' ') 0xF 0 rowBound start,congrArg BitVec.toNat row,congrArg BitVec.toNat col⟩
  unfold erase
  refine (framebuffer_write_wrap 4 _ 0xF 0 past).trans ((framebuffer_write_scroll 4 0xF 0 blank_text start below).trans ?_)
  rw [down,Option.bind_some]
  exact framebuffer_write_plain 4 0xF 0 blank_text rowBound start (col ▸ start)

end erase

-- A newline: one row more, and a scroll when that is below the screen.
theorem newline_follows (follows : Follows t s) (color : Byte) :
    ∃ t', t.putchar (charOf '\n') color = some t' ∧ Follows t' s.newRow := by
  have erased (middle : Terminal) (row : middle.cursor_row.toNat = min s.newRow.done.length 24)
      (col : middle.cursor_col.toNat = 0) (depicts : Depicts middle s.newRow) :
      ∃ t', middle.erase = some t' ∧ Follows t' s.newRow := by
    have bound : min s.newRow.done.length 24 < TERMINAL_HEIGHT := Nat.lt_succ_of_le (Nat.min_le_right _ _)
    obtain ⟨t',ran,wrote,row',col'⟩ := erase_inRow ⟨row,col⟩ bound (show 0+1 < TERMINAL_WIDTH by decide)
    exact ⟨t',ran,row',col',columns_positive _,depicts.erase (cell_behind bound (Or.inr ⟨rfl,Nat.zero_le _⟩)) wrote⟩
  have more : s.newRow.done.length = s.done.length + 1 := Sheet.length_rows
  have nonzero : charOf '\n' ≠ 0 := by decide
  have bound : t.cursor_row.toNat ≤ 24 := follows.row ▸ Nat.min_le_right _ _
  have next : (t.cursor_row+1).toNat = t.cursor_row.toNat+1 := byte_add_one (by omega)
  have row := follows.row
  simp only [putchar,nonzero,if_false,interpret,if_true]
  by_cases few : s.done.length < 24
  · have inside : ¬ TERMINAL_HEIGHT ≤ (t.cursor_row+1).toNat := by
      simp only [TERMINAL_HEIGHT]
      omega
    have below : (t.cursor_row+1).toNat = min s.newRow.done.length 24 := by omega
    obtain ⟨t',ran,follows'⟩ := erased
      (({t with cursor_col := 0, cursor_row := t.cursor_row+1} : Terminal).framebuffer_set_cursor (t.cursor_row+1) 0) below rfl
      (follows.depicts.newRow_early few)
    refine ⟨t',?_,follows'⟩
    simp only [nextRow,inside,if_false,Option.map_some,Option.bind_eq_bind,Option.bind_some]
    exact ran
  · have past : TERMINAL_HEIGHT ≤ (t.cursor_row+1).toNat := by
      simp only [TERMINAL_HEIGHT]
      omega
    obtain ⟨middle,down,scrolled,_,col⟩ := auto_down_scrolls (t := {t with cursor_col := 0, cursor_row := t.cursor_row+1}) 3
      (show (0 : Byte).toNat < TERMINAL_WIDTH by decide)
    have last : (24 : Byte).toNat = min s.newRow.done.length 24 := by
      rw [more]
      show 24 = min (s.done.length+1) 24
      omega
    obtain ⟨t',ran,follows'⟩ := erased
      (({middle with cursor_row := 24} : Terminal).framebuffer_set_cursor 24 middle.cursor_col) last
      (congrArg BitVec.toNat col) (follows.depicts.newRow_late (Nat.not_lt.mp few) scrolled)
    refine ⟨t',?_,follows'⟩
    simp only [nextRow,past,if_true,callDepth,down,Option.map_some,Option.bind_eq_bind,Option.bind_some]
    exact ran

theorem Printable.text {c : Byte} (printable : Printable c) :
    c ≠ 0 ∧ c ≠ charOf '\n' ∧ c ≠ charOf '\t' ∧ c ≠ 0x08 := by
  refine ⟨?_,?_,?_,?_⟩ <;> (rintro rfl; exact absurd printable.1 (by decide))

-- Once the character is there, all that is left is the blank behind the cursor.
theorem erase_follows {row : Nat} {c : Byte} (place : row = min s.done.length 24) (at_ : t.At row (s.cur.length+1))
    (room : s.cur.length < columns s.done.length) (depicts : Depicts t (s.add c)) (text : isNewline c = false) :
    ∃ t', t.erase = some t' ∧ Follows t' (Sheet.typeset isNewline columns s c) := by
  have size : (s.add c).cur.length = s.cur.length + 1 := by simp [Sheet.add]
  have more : (s.add c).newRow.done.length = s.done.length + 1 := Sheet.length_rows
  have rowBound : row ≤ 24 := place ▸ Nat.min_le_right _ _
  unfold Sheet.typeset
  rw [text,if_neg Bool.false_ne_true]
  by_cases few : s.done.length < 24
  · have wide : columns s.done.length = 80 := if_pos few
    have above : row + 1 < TERMINAL_HEIGHT := by
      simp only [TERMINAL_HEIGHT]
      omega
    by_cases fits : s.cur.length + 1 < columns s.done.length
    · rw [if_pos fits]
      by_cases last : s.cur.length + 1 = 79
      · obtain ⟨t',ran,wrote,row',col'⟩ := erase_nextRow (last ▸ at_) above
        have below : min (s.add c).done.length 24 < row+1 := Nat.lt_succ_of_le (Nat.le_of_eq place.symm)
        have empty : (s.add c).cell TERMINAL_HEIGHT (row+1) 0 = none := cell_behind above (Or.inl below)
        exact ⟨t',ran,row'.trans place,by omega,size ▸ fits,depicts.erase empty wrote⟩
      · obtain ⟨t',ran,wrote,row',col'⟩ := erase_inRow at_ (Nat.lt_of_succ_lt above) (by simp only [TERMINAL_WIDTH]; omega)
        have empty := cell_behind (s := s.add c) (j := s.cur.length+1+1) (Nat.lt_of_succ_lt above) (Or.inr ⟨place,by omega⟩)
        exact ⟨t',ran,row'.trans place,by omega,size ▸ fits,depicts.erase empty wrote⟩
    · rw [if_neg fits]
      have full : s.cur.length + 1 = 80 := by omega
      obtain ⟨t',ran,wrote,row',col'⟩ := erase_turns (full ▸ at_) above
      have empty := cell_behind (s := (s.add c).newRow) (j := 0) above (Or.inr ⟨by omega,Nat.le_refl 0⟩)
      exact ⟨t',ran,by omega,col',columns_positive _,(depicts.newRow_early few).erase empty wrote⟩
  · have narrow : columns s.done.length = 79 := if_neg few
    have last : row = 24 := by omega
    by_cases fits : s.cur.length + 1 < columns s.done.length
    · rw [if_pos fits]
      obtain ⟨t',ran,wrote,row',col'⟩ := erase_inRow at_ (Nat.lt_succ_of_le rowBound) (by simp only [TERMINAL_WIDTH]; omega)
      have empty := cell_behind (s := s.add c) (j := s.cur.length+1+1) (Nat.lt_succ_of_le rowBound)
        (Or.inr ⟨place,by omega⟩)
      exact ⟨t',ran,row'.trans place,by omega,size ▸ fits,depicts.erase empty wrote⟩
    · rw [if_neg fits]
      have full : s.cur.length + 1 = 79 := by omega
      obtain ⟨middle,t',ran,scrolled,wrote,row',col'⟩ := erase_scrolls (last ▸ full ▸ at_)
      have empty := cell_behind (s := (s.add c).newRow) (i := 24) (j := 0) (Nat.lt_succ_self 24)
        (Or.inr ⟨by omega,Nat.le_refl 0⟩)
      exact ⟨t',ran,by omega,col',columns_positive _,(depicts.newRow_late (Nat.not_lt.mp few) scrolled).erase empty wrote⟩

-- putchar sets one character more.
theorem putchar_follows (follows : Follows t s) (color : Byte) {c : Byte} (ordinary : c = charOf '\n' ∨ Printable c) :
    ∃ t', t.putchar c color = some t' ∧ Follows t' (Sheet.typeset isNewline columns s c) := by
  rcases ordinary with rfl | printable
  · exact newline_follows follows color
  · obtain ⟨nonzero,text,noTab,noBackspace⟩ := Printable.text printable
    have rowBound : min s.done.length 24 < TERMINAL_HEIGHT := Nat.lt_succ_of_le (Nat.min_le_right _ _)
    have colBound := Nat.lt_of_lt_of_le follows.room (columns_le _)
    obtain ⟨middle,ran,wrote,at_⟩ := advance_writes ⟨follows.row,follows.col⟩ rowBound colBound color 0 text
    obtain ⟨t',erased,follows'⟩ := erase_follows rfl at_ follows.room (follows.depicts.put wrote) (beq_false_of_ne text)
    refine ⟨t',?_,follows'⟩
    simp only [putchar,nonzero,if_false,interpret,text,noTab,noBackspace,ran,Option.bind_eq_bind,Option.bind_some]
    exact erased

theorem putsLoop_follows {ebx : Bytes} (edx : Word) {text : List Byte} {i : Nat} (follows : Follows t s)
    (held : ∀ k c, text[k]? = some c → ebx (i+k) = c) (ordinary : ∀ c ∈ text, c = charOf '\n' ∨ Printable c) :
    ∃ t', putsLoop ebx edx text.length i t = some t' ∧ Follows t' (text.foldl (Sheet.typeset isNewline columns) s) := by
  induction text generalizing i t s with
  | nil => exact ⟨t,rfl,follows⟩
  | cons c rest ih =>
    have first : ebx i = c := held 0 c rfl
    obtain ⟨middle,ran,next⟩ := putchar_follows follows (edx.truncate 8) (ordinary c List.mem_cons_self)
    obtain ⟨t',later,last⟩ := ih (i := i+1) next
      (fun k c' got => by rw [Nat.add_assoc,Nat.add_comm 1]; exact held (k+1) c' got)
      fun c' member => ordinary c' (List.mem_cons_of_mem _ member)
    have onScreen : ¬ TERMINAL_HEIGHT ≤ middle.cursor_row.toNat := by
      rw [next.row]
      exact Nat.not_le.mpr (Nat.lt_succ_of_le (Nat.min_le_right _ _))
    refine ⟨t',?_,last⟩
    rw [List.length_cons,putsLoop,first,ran]
    simp only [onScreen,if_false,Option.bind_eq_bind,Option.bind_some]
    exact later

theorem clearScreen_follows : Follows t.clearScreen Sheet.start := by
  refine ⟨rfl,rfl,columns_positive _,fun i iBound j jBound => ?_⟩
  have empty : (Sheet.start : Sheet Byte).cell TERMINAL_HEIGHT i j = none := by
    refine cell_behind iBound ?_
    rcases Nat.eq_zero_or_pos i with rfl | below
    · exact Or.inr ⟨rfl,Nat.zero_le _⟩
    · exact Or.inl below
  unfold sheetReads
  rw [clearScreen_glyph iBound jBound,empty]
  rfl

-- What puts leaves, whatever the text.
theorem puts_narrow (text : List Byte) (color : Word) (ordinary : ∀ c ∈ text, c = charOf '\n' ∨ Printable c) :
    ∃ t', t.clearScreen.puts (fun i => text.getD i 0) (BitVec.ofNat 32 text.length) color = some t' ∧
      Depicts t' (narrowLayout (printed text)) := by
  have fewer : (BitVec.ofNat 32 text.length).toInt.toNat ≤ text.length := by
    have value := BitVec.toInt_eq_toNat_cond (BitVec.ofNat 32 text.length)
    have low : (BitVec.ofNat 32 text.length).toNat ≤ text.length := Nat.mod_le _ _
    split at value <;> omega
  have size : (printed text).length = (BitVec.ofNat 32 text.length).toInt.toNat := by
    unfold printed
    rw [List.length_take,Nat.min_eq_left fewer]
  have held (k : Nat) (c : Byte) (got : (printed text)[k]? = some c) : text.getD (0+k) 0 = c := by
    unfold printed at got
    rw [List.getElem?_take] at got
    split at got
    · rw [Nat.zero_add,List.getD_eq_getElem?_getD,got,Option.getD_some]
    · cases got
  have ordinary' : ∀ c ∈ printed text, c = charOf '\n' ∨ Printable c := fun c member =>
    ordinary c (List.mem_of_mem_take member)
  have looped : ∃ t', putsLoop (fun i => text.getD i 0) color (printed text).length 0 t.clearScreen = some t' ∧
      Follows t' (narrowLayout (printed text)) := putsLoop_follows color clearScreen_follows held ordinary'
  obtain ⟨t',ran,follows⟩ := looped
  rw [size] at ran
  exact ⟨t',ran,follows.depicts⟩

-- The screen is the fixed grid exactly when it makes no difference that the rows from the
-- 25th on are laid out 79 columns wide.
theorem grid_kept_iff (t : Terminal) (text : List Byte) (color : Word)
    (ordinary : ∀ c ∈ text, c = charOf '\n' ∨ Printable c) : t.FixedGrid text color ↔ SameWindow (narrowLayout (printed text)) (gridLayout text) := by
  obtain ⟨t',ran,depicts⟩ := puts_narrow (t := t) text color ordinary
  constructor
  · rintro ⟨last,ran',grid⟩ i iBound j jBound
    cases ran.symm.trans ran'
    exact (depicts i iBound j jBound).symm.trans (grid i iBound j jBound)
  · intro same
    exact ⟨t',ran,fun i iBound j jBound => (depicts i iBound j jBound).trans (same i iBound j jBound)⟩

section text
variable {text : List Byte}

theorem printed_all (size : text.length < 2^31) : printed text = text := by
  unfold printed
  have whole : (BitVec.ofNat 32 text.length).toNat = text.length := Nat.mod_eq_of_lt (by omega)
  have value := BitVec.toInt_eq_toNat_cond (BitVec.ofNat 32 text.length)
  rw [whole,if_pos (by omega)] at value
  rw [value,Int.toNat_natCast,List.take_length]

-- In particular while no row from the 25th on gets as far as the last column but one.
theorem short_rows_kept (t : Terminal) (color : Word) (size : text.length < 2^31)
    (ordinary : ∀ c ∈ text, c = charOf '\n' ∨ Printable c)
    (short : ∀ n row, 24 ≤ n → (gridLayout text).rows[n]? = some row → row.length < 79) : t.FixedGrid text color := by
  obtain ⟨t',ran,depicts⟩ := puts_narrow (t := t) text color ordinary
  have same : narrowLayout text = gridLayout text := by
    refine Sheet.layout_congr fun n row got => ?_
    by_cases few : n < 24
    · exact Or.inl (if_pos few)
    · have fits := short n row (Nat.not_lt.mp few) got
      have narrow : columns n = 79 := if_neg few
      exact Or.inr ⟨Nat.lt_succ_of_lt fits,narrow ▸ fits⟩
  rw [printed_all size,same] at depicts
  exact ⟨t',ran,depicts⟩

-- And never with anything to be seen in the last column of such a row on the screen.
theorem full_row_lost (t : Terminal) (color : Word) (size : text.length < 2^31)
    (ordinary : ∀ c ∈ text, c = charOf '\n' ∨ Printable c) {n : Nat} {row : List Byte} (late : 24 ≤ n)
    (shown : (gridLayout text).rows.length ≤ n + TERMINAL_HEIGHT) (got : (gridLayout text).rows[n]? = some row)
    {c : Byte} (lastColumn : row[79]? = some c) (seen : reading c ≠ charOf ' ') : ¬ t.FixedGrid text color := by
  rintro ⟨t',ran,grid⟩
  obtain ⟨last,ran',depicts⟩ := puts_narrow (t := t) text color ordinary
  cases ran.symm.trans ran'
  rw [printed_all size] at depicts
  have more : (gridLayout text).done.length ≤ (narrowLayout text).done.length := by
    have ahead : (gridLayout text).Ahead (narrowLayout text) := Sheet.layout_ahead columns_le text
    rcases ahead with before | ⟨same,_⟩
    · exact Nat.le_of_lt before
    · exact Nat.le_of_eq same
  have inside : n < (gridLayout text).rows.length := (List.getElem?_eq_some_iff.mp got).1
  rw [Sheet.length_rows] at inside shown
  simp only [TERMINAL_HEIGHT] at shown
  obtain ⟨i,iBound,place⟩ : ∃ i < TERMINAL_HEIGHT, (gridLayout text).done.length + 1 - TERMINAL_HEIGHT + i = n := by
    refine ⟨n - ((gridLayout text).done.length + 1 - 25),?_⟩
    simp only [TERMINAL_HEIGHT]
    omega
  have wide : sheetReads (gridLayout text) i 79 = reading c := by
    unfold sheetReads
    rw [Sheet.cell_eq,place,got,Option.bind_some,lastColumn,Option.getD_some]
  have blank : sheetReads (narrowLayout text) i 79 = charOf ' ' := by
    unfold sheetReads
    rw [Sheet.cell_eq]
    cases there : (narrowLayout text).rows[(narrowLayout text).done.length + 1 - TERMINAL_HEIGHT + i]? with
    | none => rfl
    | some narrowRow =>
      have fits := Sheet.layout_rows_le columns_positive there
      have narrow : columns ((narrowLayout text).done.length + 1 - TERMINAL_HEIGHT + i) = 79 :=
        if_neg (by simp only [TERMINAL_HEIGHT] at place ⊢; omega)
      rw [Option.bind_some,List.getElem?_eq_none (narrow ▸ fits)]
      rfl
  have same := (depicts i iBound 79 (Nat.lt_succ_self 79)).symm.trans (grid i iBound 79 (Nat.lt_succ_self 79))
  exact seen ((wide.symm.trans same.symm).trans blank)

end text

def lastRowText (n : Nat) : List Byte := List.replicate 24 (charOf '\n') ++ List.replicate n (charOf 'a')

theorem lastRowText_ordinary (n : Nat) : ∀ c ∈ lastRowText n, c = charOf '\n' ∨ Printable c := by
  intro c member
  rcases List.mem_append.mp member with newline | letter
  · exact Or.inl (List.eq_of_mem_replicate newline)
  · rw [List.eq_of_mem_replicate letter]
    exact Or.inr ⟨by decide,by decide⟩

-- 78 characters fit into the last row.
theorem grid_kept_in_last_row : (boot fun _ => 0).FixedGrid (lastRowText 78) 0xF := by
  refine (grid_kept_iff (boot fun _ => 0) (lastRowText 78) 0xF (lastRowText_ordinary 78)).mpr ?_
  have same : narrowLayout (printed (lastRowText 78)) = gridLayout (lastRowText 78) := by decide +kernel
  intro i _ j _
  rw [same]

-- The 79th makes the screen scroll.
theorem last_row_scrolls_early : ¬ (boot fun _ => 0).FixedGrid (lastRowText 79) 0xF := by
  rintro ⟨t',ran,grid⟩
  obtain ⟨last,ran',depicts⟩ := puts_narrow (t := boot fun _ => 0) (lastRowText 79) 0xF (lastRowText_ordinary 79)
  cases ran.symm.trans ran'
  have same := (depicts 24 (by decide) 0 (by decide)).symm.trans (grid 24 (by decide) 0 (by decide))
  exact absurd same (by decide +kernel)

end Terminal

end Sosis.Console
