import Sosis.ScreenBounds

-- Which cells of the screen the calls of framebuffer.c change, and where they leave the
-- cursor.
namespace Sosis.Console
open ByteRecords StringMemory TransitionRuns
open Fat32 (Word Memory)

theorem byte_add_one {b : Byte} (bound : b.toNat + 1 < 256) : (b+1).toNat = b.toNat + 1 := by
  rw [BitVec.toNat_add]
  exact Nat.mod_eq_of_lt bound

namespace Terminal
variable {t t' : Terminal} {row col : Byte}

-- The character of a cell; the byte behind it is the cell's color.
def glyph (t : Terminal) (i j : Nat) : Byte := t.ram.memory (FRAMEBUFFER_MEMORY_OFFSET + BitVec.ofNat 32 ((i*80+j)*2))

-- One cell of the screen has changed.
def Wrote (t : Terminal) (row col : Nat) (c : Byte) (t' : Terminal) : Prop :=
  ∀ i < TERMINAL_HEIGHT, ∀ j < TERMINAL_WIDTH, t'.glyph i j = if i = row ∧ j = col then c else t.glyph i j

-- Every row has gone up, and the last one is blank.
def Scrolled (t t' : Terminal) : Prop :=
  ∀ i < TERMINAL_HEIGHT, ∀ j < TERMINAL_WIDTH, t'.glyph i j = if i = 24 then charOf ' ' else t.glyph (i+1) j

def At (t : Terminal) (row col : Nat) : Prop := t.cursor_row.toNat = row ∧ t.cursor_col.toNat = col

theorem write_exact_loc_wrote (c fg bg : Byte) (rowBound : row.toNat < TERMINAL_HEIGHT)
    (colBound : col.toNat < TERMINAL_WIDTH) : Wrote t row.toNat col.toNat c (t.write_exact_loc row col c fg bg) := by
  intro i iBound j jBound
  simp only [TERMINAL_HEIGHT,TERMINAL_WIDTH] at rowBound colBound iBound jBound
  unfold glyph write_exact_loc
  rw [Ram.store_memory _ (by omega) (by omega),if_neg (by omega),Ram.store_memory _ (by omega) (by omega)]
  exact if_congr (by omega) rfl rfl

theorem moveRows_moved : Ram.Moved t.ram t.moveRows.ram FRAMEBUFFER_MEMORY_OFFSET
    (FRAMEBUFFER_MEMORY_OFFSET + BitVec.ofNat 32 160) 3840 := by
  have size : (BitVec.ofNat 32 (2*TERMINAL_WIDTH*(TERMINAL_HEIGHT-1))).toNat = 3840 := rfl
  have moved := @Ram.memmove_moved t.ram FRAMEBUFFER_MEMORY_OFFSET (FRAMEBUFFER_MEMORY_OFFSET + BitVec.ofNat 32 (TERMINAL_WIDTH*2))
    (BitVec.ofNat 32 (2*TERMINAL_WIDTH*(TERMINAL_HEIGHT-1))) (by decide) (by decide)
  rw [size] at moved
  exact moved

theorem moveRows_glyph {i j : Nat} (iBound : i < 24) (jBound : j < TERMINAL_WIDTH) :
    t.moveRows.glyph i j = t.glyph (i+1) j := by
  simp only [TERMINAL_WIDTH] at jBound
  have place : 160 + (i*80+j)*2 = ((i+1)*80+j)*2 := by omega
  unfold glyph
  rw [moveRows_moved.1 _ (by omega),BitVec.add_assoc,← BitVec.ofNat_add,place]

-- The blanks of a scroll, the first ones of the row.
theorem blanks_written (depth : Nat) (inRow : t.cursor_col.toNat < TERMINAL_WIDTH) {turns : Nat}
    (fits : turns ≤ TERMINAL_WIDTH) : ∃ t', (List.range turns).foldlM (fun t col =>
        framebuffer_write (depth+1) t 24 (BitVec.ofNat 8 col) (charOf ' ') 0x07 0x00) t = some t' ∧
      t'.cursor_col = t.cursor_col ∧ ∀ i < TERMINAL_HEIGHT, ∀ j < TERMINAL_WIDTH,
        t'.glyph i j = if i = 24 ∧ j < turns then charOf ' ' else t.glyph i j := by
  induction turns with
  | zero => exact ⟨t,rfl,rfl,fun i _ j _ => (if_neg fun both => Nat.not_lt_zero _ both.2).symm⟩
  | succ turns ih =>
    obtain ⟨middle,ran,kept,cells⟩ := ih (Nat.le_of_succ_le fits)
    simp only [TERMINAL_WIDTH] at fits
    have place : (BitVec.ofNat 8 turns).toNat = turns := Nat.mod_eq_of_lt (show turns < 256 by omega)
    have colBound : (BitVec.ofNat 8 turns).toNat < TERMINAL_WIDTH := by
      rw [place]
      exact fits
    have rowBound : (24 : Byte).toNat < TERMINAL_HEIGHT := by decide
    have wrote := framebuffer_write_plain depth 0x07 0x00 blank_text rowBound colBound (kept ▸ inRow)
    refine ⟨(middle.write_exact_loc 24 (BitVec.ofNat 8 turns) (charOf ' ') 0x07 0x00).framebuffer_set_cursor middle.cursor_row
      middle.cursor_col,?_,kept,fun i iBound j jBound => ?_⟩
    · rw [List.range_succ,List.foldlM_append,ran,Option.bind_eq_bind,Option.bind_some,List.foldlM_cons,wrote]
      rfl
    · have one := write_exact_loc_wrote (charOf ' ') 0x07 0x00 rowBound colBound (t := middle) i iBound j jBound
      refine one.trans ?_
      rw [place,cells i iBound j jBound]
      have last : (24 : Byte).toNat = 24 := rfl
      rw [last]
      by_cases here : i = 24 ∧ j = turns
      · rw [if_pos here,if_pos (by omega)]
      · rw [if_neg here]
        exact if_congr (by omega) rfl rfl

theorem auto_down_scrolls (depth : Nat) (inRow : t.cursor_col.toNat < TERMINAL_WIDTH) :
    ∃ t', framebuffer_auto_down (depth+2) t = some t' ∧ Scrolled t t' ∧ t'.cursor_row = 24 ∧ t'.cursor_col = 0 := by
  obtain ⟨t',ran,_,cells⟩ := blanks_written (t := t.moveRows) depth inRow (Nat.le_refl _)
  refine ⟨t'.framebuffer_set_cursor 24 0,?_,fun i iBound j jBound => ?_,rfl,rfl⟩
  · simp only [framebuffer_auto_down,ran,Option.bind_eq_bind,Option.bind_some]
  · refine (cells i iBound j jBound).trans ?_
    simp only [TERMINAL_HEIGHT] at iBound
    by_cases last : i = 24
    · rw [if_pos ⟨last,jBound⟩,if_pos last]
    · rw [if_neg fun both => last both.1,if_neg last,moveRows_glyph (by omega) jBound]

-- The cursor has gone past its row: the write takes it to the next one.
theorem framebuffer_write_past (depth : Nat) {c : Byte} (fg bg : Byte) (text : c ≠ charOf '\n')
    (rowBound : row.toNat < TERMINAL_HEIGHT) (colBound : col.toNat < TERMINAL_WIDTH)
    (past : TERMINAL_WIDTH ≤ t.cursor_col.toNat) (above : (t.cursor_row+1).toNat < TERMINAL_HEIGHT) :
    framebuffer_write (depth+1) t row col c fg bg =
      some ((t.write_exact_loc row col c fg bg).framebuffer_set_cursor (t.cursor_row+1) 0) := by
  have kept : (t.write_exact_loc row col c fg bg).cursor_col = t.cursor_col := rfl
  have kept' : (t.write_exact_loc row col c fg bg).cursor_row = t.cursor_row := rfl
  simp only [framebuffer_write,text,if_false,Nat.not_le.mpr rowBound,Nat.not_le.mpr colBound,Option.bind_eq_bind,
    Option.bind_some,kept,past,if_true,nextRow,kept',Nat.not_le.mpr above]
  rfl

theorem clearScreen_glyph {i j : Nat} (iBound : i < TERMINAL_HEIGHT) (jBound : j < TERMINAL_WIDTH) :
    t.clearScreen.glyph i j = 0 := by
  have size : (BitVec.ofNat 32 (80*25*2)).toNat = 4000 := rfl
  simp only [TERMINAL_HEIGHT,TERMINAL_WIDTH] at iBound jBound
  refine (Ram.memset_memory 0 (by omega)).trans (if_pos ?_)
  omega

end Terminal

end Sosis.Console
