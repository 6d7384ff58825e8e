import Sosis.ScreenGrid

-- What a scroll does to the bytes of the rows. A cursor past its row lets the first blank
-- of the bottom row ask for another scroll.
namespace Sosis.Console
open ByteRecords StringMemory
open Fat32 (Word Memory)

namespace Terminal
variable {t t' : Terminal}

def screenByte (t : Terminal) (k : Nat) : Byte := t.ram.memory (FRAMEBUFFER_MEMORY_OFFSET + BitVec.ofNat 32 k)

-- Characters at even places, each with its color behind it.
def rowByte (t : Terminal) (r j : Nat) : Byte := t.screenByte (r*160 + j)

def RowsUp (t t' : Terminal) : Prop := ∀ r < 24, ∀ j < 160, t'.rowByte r j = t.rowByte (r+1) j

def MovesRows (t : Terminal) : Prop := ∃ t', framebuffer_auto_down callDepth t = some t' ∧ RowsUp t t'

-- The rows below the first one are alike, and the bottom row begins as a blank one does.
structure SameRows (t : Terminal) : Prop where
  rows : ∀ r, 1 ≤ r → r < 24 → ∀ j < 160, t.rowByte (r+1) j = t.rowByte r j
  character : t.rowByte 24 0 = charOf ' '
  color : t.rowByte 24 1 = 0x07

def ScrollsOnce (t : Terminal) : Prop :=
  t.cursor_col.toNat < TERMINAL_WIDTH ∨ (t.cursor_row+1).toNat < TERMINAL_HEIGHT ∨ SameRows t

theorem write_exact_loc_byte {row col : Byte} (c fg bg : Byte) (rowBound : row.toNat < TERMINAL_HEIGHT)
    (colBound : col.toNat < TERMINAL_WIDTH) {k : Nat} (bound : k < 4000) :
    (t.write_exact_loc row col c fg bg).screenByte k =
      if k = (row.toNat*80 + col.toNat)*2 + 1 then (bg <<< 4) ||| (fg &&& 0x0F)
      else if k = (row.toNat*80 + col.toNat)*2 then c else t.screenByte k := by
  simp only [TERMINAL_HEIGHT,TERMINAL_WIDTH] at rowBound colBound
  unfold screenByte write_exact_loc
  rw [Ram.store_memory _ (by omega) (by omega),Ram.store_memory _ (by omega) (by omega)]

theorem moveRows_above {k : Nat} (above : k < 3840) : t.moveRows.screenByte k = t.screenByte (160+k) := by
  unfold screenByte
  rw [moveRows_moved.1 k above,BitVec.add_assoc,← BitVec.ofNat_add]

theorem moveRows_last {k : Nat} (low : 3840 ≤ k) (bound : k < 4000) : t.moveRows.screenByte k = t.screenByte k := by
  refine moveRows_moved.2 _ fun i inside same => ?_
  have := (Ram.distance_inj (by omega) (by omega)).mp same
  omega

-- The blanks of a scroll leave the rows above alone.
theorem blanks_above (depth : Nat) (inRow : t.cursor_col.toNat < TERMINAL_WIDTH) {cols : List Nat}
    (fits : ∀ col ∈ cols, col < TERMINAL_WIDTH) : ∃ t', cols.foldlM (fun t col =>
        framebuffer_write (depth+1) t 24 (BitVec.ofNat 8 col) (charOf ' ') 0x07 0x00) t = some t' ∧
      ∀ k < 3840, t'.screenByte k = t.screenByte k := by
  induction cols generalizing t with
  | nil => exact ⟨t,rfl,fun _ _ => rfl⟩
  | cons col rest ih =>
    have inside := fits col List.mem_cons_self
    have place : (BitVec.ofNat 8 col).toNat = col := Nat.mod_eq_of_lt (by simp only [TERMINAL_WIDTH] at inside; omega)
    have colBound : (BitVec.ofNat 8 col).toNat < TERMINAL_WIDTH := by
      rw [place]
      exact inside
    have rowBound : (24 : Byte).toNat < TERMINAL_HEIGHT := by decide
    have wrote := framebuffer_write_plain depth 0x07 0x00 blank_text rowBound colBound inRow
    obtain ⟨t',ran,kept⟩ := @ih ((t.write_exact_loc 24 (BitVec.ofNat 8 col) (charOf ' ') 0x07 0x00).framebuffer_set_cursor
      t.cursor_row t.cursor_col) inRow fun col' member => fits col' (List.mem_cons_of_mem _ member)
    refine ⟨t',?_,fun k above => (kept k above).trans ?_⟩
    · rw [List.foldlM_cons,wrote]
      exact ran
    · have last : (24 : Byte).toNat = 24 := rfl
      refine (write_exact_loc_byte _ _ _ rowBound colBound (by omega)).trans ?_
      rw [if_neg (by omega),if_neg (by omega)]

theorem auto_down_once (depth : Nat) (inRow : t.cursor_col.toNat < TERMINAL_WIDTH) :
    ∃ t', framebuffer_auto_down (depth+2) t = some t' ∧ t'.cursor_col = 0 ∧
      ∀ k < 3840, t'.screenByte k = t.screenByte (160+k) := by
  obtain ⟨t',ran,kept⟩ := @blanks_above t.moveRows depth inRow (List.range TERMINAL_WIDTH)
    fun col member => List.mem_range.mp member
  refine ⟨t'.framebuffer_set_cursor 24 0,?_,rfl,fun k above => (kept k above).trans (moveRows_above above)⟩
  simp only [framebuffer_auto_down,ran,Option.bind_eq_bind,Option.bind_some]

-- The first blank decides: it leaves the cursor in a row.
theorem auto_down_first {t₁ : Terminal} (depth : Nat) (inRow : t₁.cursor_col.toNat < TERMINAL_WIDTH)
    (first : framebuffer_write (depth+1) t.moveRows 24 0 (charOf ' ') 0x07 0x00 = some t₁) :
    ∃ t', framebuffer_auto_down (depth+2) t = some t' ∧ ∀ k < 3840, t'.screenByte k = t₁.screenByte k := by
  have range : List.range TERMINAL_WIDTH = 0 :: List.range' 1 79 := rfl
  obtain ⟨t',ran,kept⟩ := @blanks_above t₁ depth inRow (List.range' 1 79) fun col member => by
    simp only [List.mem_range'_1] at member
    simp only [TERMINAL_WIDTH]
    omega
  refine ⟨t'.framebuffer_set_cursor 24 0,?_,kept⟩
  have zero : BitVec.ofNat 8 0 = 0 := rfl
  simp only [framebuffer_auto_down,range,List.foldlM_cons,zero,first,ran,Option.bind_eq_bind,Option.bind_some]

section past
variable (past : TERMINAL_WIDTH ≤ t.cursor_col.toNat)
include past

theorem first_blank_above (depth : Nat) (above : (t.cursor_row+1).toNat < TERMINAL_HEIGHT) :
    ∃ t₁, framebuffer_write (depth+1) t.moveRows 24 0 (charOf ' ') 0x07 0x00 = some t₁ ∧
      t₁.cursor_col.toNat < TERMINAL_WIDTH ∧ ∀ k < 3840, t₁.screenByte k = t.screenByte (160+k) := by
  have rowBound : (24 : Byte).toNat < TERMINAL_HEIGHT := by decide
  have colBound : (0 : Byte).toNat < TERMINAL_WIDTH := by decide
  refine ⟨_,framebuffer_write_past depth _ _ blank_text rowBound colBound past above,colBound,fun k high => ?_⟩
  have last : ((24 : Byte).toNat*80 + (0 : Byte).toNat)*2 = 3840 := rfl
  refine (write_exact_loc_byte _ _ _ rowBound colBound (by omega)).trans ?_
  rw [last,if_neg (by omega),if_neg (by omega),moveRows_above high]

-- The scroll that the first blank asks for.
theorem first_blank_below (depth : Nat) (below : ¬ (t.cursor_row+1).toNat < TERMINAL_HEIGHT) :
    ∃ t₁, framebuffer_write (depth+3) t.moveRows 24 0 (charOf ' ') 0x07 0x00 = some t₁ ∧
      t₁.cursor_col.toNat < TERMINAL_WIDTH ∧ ∀ k < 3840, t₁.screenByte k =
        if k = 3681 then 0x07 else if k = 3680 then charOf ' ' else if k < 3680 then t.screenByte (320+k)
        else t.screenByte (160+k) := by
  have rowBound : (24 : Byte).toNat < TERMINAL_HEIGHT := by decide
  have colBound : (0 : Byte).toNat < TERMINAL_WIDTH := by decide
  obtain ⟨t₂,ran,col,moved⟩ := @auto_down_once {t.moveRows.write_exact_loc 24 0 (charOf ' ') 0x07 0x00 with
    cursor_col := 0, cursor_row := t.cursor_row+1} depth colBound
  have kept : (t.moveRows.write_exact_loc 24 0 (charOf ' ') 0x07 0x00).cursor_col = t.cursor_col := rfl
  have kept' : (t.moveRows.write_exact_loc 24 0 (charOf ' ') 0x07 0x00).cursor_row = t.cursor_row := rfl
  refine ⟨({t₂ with cursor_row := 24} : Terminal).framebuffer_set_cursor 24 t₂.cursor_col,?_,?_,fun k high => ?_⟩
  · simp only [framebuffer_write,blank_text,if_false,Nat.not_le.mpr rowBound,Nat.not_le.mpr colBound,Option.bind_eq_bind,
      Option.bind_some,kept,past,if_true,nextRow,kept',Nat.not_lt.mp below,ran,Option.map_some]
  · exact col ▸ colBound
  · have last : ((24 : Byte).toNat*80 + (0 : Byte).toNat)*2 = 3840 := rfl
    refine (moved k high).trans ((write_exact_loc_byte _ _ _ rowBound colBound (by omega)).trans ?_)
    rw [last]
    by_cases color : k = 3681
    · rw [if_pos color,if_pos (by omega)]
      rfl
    · rw [if_neg color,if_neg (by omega)]
      by_cases character : k = 3680
      · rw [if_pos character,if_pos (by omega)]
      · rw [if_neg character,if_neg (by omega)]
        split
        · rename_i above
          rw [moveRows_above (by omega),← Nat.add_assoc]
        · exact moveRows_last (by omega) (by omega)

end past

theorem rowsUp_of_bytes (moved : ∀ k < 3840, t'.screenByte k = t.screenByte (160+k)) : RowsUp t t' := by
  intro r above j inside
  refine (moved (r*160+j) (by omega)).trans (congrArg t.screenByte ?_)
  omega

-- Two scrolls leave what one leaves only where the rows are alike.
theorem rowsUp_twice (moved : ∀ k < 3840, t'.screenByte k =
    if k = 3681 then 0x07 else if k = 3680 then charOf ' ' else if k < 3680 then t.screenByte (320+k)
    else t.screenByte (160+k)) : RowsUp t t' ↔ SameRows t := by
  have upper : ∀ r < 23, ∀ j < 160, t'.rowByte r j = t.rowByte (r+2) j := by
    intro r above j inside
    refine (moved (r*160+j) (by omega)).trans ?_
    rw [if_neg (by omega),if_neg (by omega),if_pos (by omega)]
    exact congrArg t.screenByte (by omega)
  have lower : ∀ j < 160, t'.rowByte 23 j = if j = 1 then 0x07 else if j = 0 then charOf ' ' else t.rowByte 24 j := by
    intro j inside
    refine (moved (23*160+j) (by omega)).trans ?_
    rw [if_neg (show ¬ 23*160 + j < 3680 by omega)]
    refine if_congr (by omega) rfl (if_congr (by omega) rfl (congrArg t.screenByte ?_))
    omega
  constructor
  · intro up
    refine ⟨fun r low high j inside => ?_,(up 23 (by decide) 0 (by decide)).symm.trans (lower 0 (by decide)),
      (up 23 (by decide) 1 (by decide)).symm.trans (lower 1 (by decide))⟩
    obtain ⟨r,rfl⟩ := Nat.exists_eq_add_of_le' low
    exact (upper r (by omega) j inside).symm.trans (up r (by omega) j inside)
  · intro same r above j inside
    rcases Nat.lt_or_eq_of_le (Nat.le_of_lt_succ above) with higher | rfl
    · exact (upper r higher j inside).trans (same.rows (r+1) (by omega) (by omega) j inside)
    · rw [lower j inside]
      split
      · rename_i color
        rw [color,same.color]
      · split
        · rename_i character
          rw [character,same.character]
        · rfl

theorem movesRows_iff (t : Terminal) : MovesRows t ↔ ScrollsOnce t := by
  by_cases inRow : t.cursor_col.toNat < TERMINAL_WIDTH
  · obtain ⟨t',ran,_,moved⟩ := auto_down_once 3 inRow
    exact iff_of_true ⟨t',ran,rowsUp_of_bytes moved⟩ (Or.inl inRow)
  · have past := Nat.not_lt.mp inRow
    by_cases above : (t.cursor_row+1).toNat < TERMINAL_HEIGHT
    · obtain ⟨t₁,first,col,moved⟩ := first_blank_above past 3 above
      obtain ⟨t',ran,kept⟩ := auto_down_first 3 col first
      exact iff_of_true ⟨t',ran,rowsUp_of_bytes fun k high => (kept k high).trans (moved k high)⟩ (Or.inr (Or.inl above))
    · obtain ⟨t₁,first,col,moved⟩ := first_blank_below past 1 above
      obtain ⟨t',ran,kept⟩ := auto_down_first 3 col first
      have twice := @rowsUp_twice t t' fun k high => (kept k high).trans (moved k high)
      constructor
      · rintro ⟨last,ran',up⟩
        cases ran.symm.trans ran'
        exact Or.inr (Or.inr (twice.mp up))
      · intro once
        exact ⟨t',ran,twice.mpr ((once.resolve_left inRow).resolve_left above)⟩

-- memmove moves what it is asked to, the rows of the screen among it; the scroll around it
-- moves them once unless the cursor has gone past the end of the last row.
theorem memmove_moves_rows {ram : Ram} {dest src n : Word} (destFits : dest.toNat + n.toNat ≤ 2^32)
    (srcFits : src.toNat + n.toNat ≤ 2^32) (t : Terminal) :
    Ram.Moved ram (ram.memmove dest src n) dest src n.toNat ∧ (∀ r < 24, ∀ j < 160, t.moveRows.rowByte r j = t.rowByte (r+1) j) ∧
      (MovesRows t ↔ ScrollsOnce t) :=
  ⟨Ram.memmove_moved destFits srcFits,rowsUp_of_bytes fun _ => moveRows_above,movesRows_iff t⟩

-- Ten bytes moved up by three, on a screen that has just been cleared.
theorem overlap_moved : Ram.Moved ⟨fun a => a.truncate 8,[]⟩ (Ram.memmove ⟨fun a => a.truncate 8,[]⟩ 103 100 10) 103 100 10 ∧
    MovesRows (boot fun _ => 0).clearScreen := by
  obtain ⟨moved,_,scrolls⟩ := @memmove_moves_rows ⟨fun a => a.truncate 8,[]⟩ 103 100 10 (by decide) (by decide)
    (boot fun _ => 0).clearScreen
  exact ⟨moved,scrolls.mpr (Or.inl (by decide))⟩

-- 76 characters in the last row and a tab: the cursor is past the row when the blank behind
-- it asks for a scroll.
theorem tab_scrolls_twice : ∃ t t₁, (boot fun _ => 0).clearScreen.puts ((lastRowText 76).getD · 0) 100 0xF = some t ∧
    t.interpret (charOf '\t') 0xF = some t₁ ∧ ¬ MovesRows t₁ := by
  have reached : ((boot fun _ => 0).clearScreen.puts ((lastRowText 76).getD · 0) 100 0xF).any (fun t =>
      (t.interpret (charOf '\t') 0xF).any fun t₁ => t₁.cursor_col = 80 ∧ t₁.cursor_row = 24 ∧
        t₁.rowByte 24 2 ≠ t₁.rowByte 23 2) = true := by decide +kernel
  obtain ⟨t,ran,reached⟩ := (Option.any_eq_true _ _).mp reached
  obtain ⟨t₁,ran₁,reached⟩ := (Option.any_eq_true _ _).mp reached
  obtain ⟨col,row,letters⟩ := of_decide_eq_true reached
  refine ⟨t,t₁,ran,ran₁,fun moves => ?_⟩
  rcases (movesRows_iff t₁).mp moves with inRow | above | same
  · rw [col] at inRow
    exact absurd inRow (by decide)
  · rw [row] at above
    exact absurd above (by decide)
  · exact letters (same.rows 23 (by decide) (by decide) 2 (by decide))

end Terminal

end Sosis.Console
