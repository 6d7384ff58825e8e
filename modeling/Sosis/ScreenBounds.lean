import Sosis.Keyboard
import Sosis.TransitionRuns

-- No call leaves the screen: how deep the calls nest, where they store, and where the
-- cursor is when they return.
namespace Sosis.Console
open ByteRecords StringMemory TransitionRuns
open Fat32 (Word Memory)

theorem byte_pred {b : Byte} {n : Nat} (nonzero : b ≠ 0) (bound : b.toNat < n) : (b-1).toNat < n := by
  have one : (1 : Byte) ≤ b := BitVec.le_def.mpr (Nat.pos_of_ne_zero fun zero => nonzero (BitVec.eq_of_toNat_eq zero))
  rw [BitVec.toNat_sub_of_le one]
  exact (Nat.sub_le _ _).trans_lt bound

theorem byte_nonzero {b : Byte} (positive : 0 < b) : b ≠ 0 := by
  rintro rfl
  exact BitVec.lt_irrefl _ positive

theorem byte_succ {b : Byte} {n : Nat} (bound : b.toNat+1 < n) : (b+1).toNat < n := by
  rw [BitVec.toNat_add]
  exact (Nat.mod_le _ _).trans_lt bound

-- The 4000 bytes of the framebuffer.
def screen : Set Word := {addr | ∃ k < 4000, addr = FRAMEBUFFER_MEMORY_OFFSET + BitVec.ofNat 32 k}

namespace Terminal
variable {t : Terminal}

def Inside (t : Terminal) : Prop := t.ram.Within screen

theorem Inside.write_exact_loc (inside : t.Inside) {row col : Byte} (c fg bg : Byte) (rowBound : row.toNat < TERMINAL_HEIGHT)
    (colBound : col.toNat < TERMINAL_WIDTH) : (t.write_exact_loc row col c fg bg).Inside := by
  simp only [TERMINAL_HEIGHT,TERMINAL_WIDTH] at rowBound colBound
  exact (Ram.Within.store inside ⟨_,by omega,rfl⟩ _).store ⟨_,by omega,rfl⟩ _

-- A write to a place on the screen, with the cursor in its row: no call nests.
theorem framebuffer_write_plain (depth : Nat) {row col c : Byte} (fg bg : Byte) (text : c ≠ charOf '\n')
    (rowBound : row.toNat < TERMINAL_HEIGHT) (colBound : col.toNat < TERMINAL_WIDTH)
    (inRow : t.cursor_col.toNat < TERMINAL_WIDTH) :
    framebuffer_write (depth+1) t row col c fg bg =
      some ((t.write_exact_loc row col c fg bg).framebuffer_set_cursor t.cursor_row t.cursor_col) := by
  have kept : (t.write_exact_loc row col c fg bg).cursor_col = t.cursor_col := rfl
  simp only [framebuffer_write,text,if_false,Nat.not_le.mpr rowBound,Nat.not_le.mpr colBound,Option.bind_eq_bind,
    Option.bind_some,kept,Nat.not_le.mpr inRow]
  rfl

theorem Inside.moveRows (inside : t.Inside) : t.moveRows.Inside := by
  refine Ram.Within.memmove inside _ fun i below => ⟨i,?_,rfl⟩
  have size : (BitVec.ofNat 32 (2*TERMINAL_WIDTH*(TERMINAL_HEIGHT-1))).toNat = 3840 := rfl
  omega

-- A scroll whose writes all return, returns with the cursor at the start of the last row.
theorem auto_down_of {depth : Nat} (holds : Terminal → Prop) (safe : ∀ t, holds t → t.Inside) (moved : holds t.moveRows)
    (writes : ∀ (t : Terminal) (col : Byte), holds t → col.toNat < TERMINAL_WIDTH →
      ∃ t', framebuffer_write depth t 24 col (charOf ' ') 0x07 0x00 = some t' ∧ holds t') :
    ∃ t', framebuffer_auto_down (depth+1) t = some t' ∧ t'.Inside ∧ t'.cursor_row = 24 ∧ t'.cursor_col = 0 := by
  have each : ∀ col ∈ List.range TERMINAL_WIDTH, ∀ t, holds t → ∃ t',
      framebuffer_write depth t 24 (BitVec.ofNat 8 col) (charOf ' ') 0x07 0x00 = some t' ∧ holds t' := by
    intro col member t held
    have bound := List.mem_range.mp member
    refine writes t (BitVec.ofNat 8 col) held ?_
    simp only [TERMINAL_WIDTH,BitVec.toNat_ofNat] at *
    omega
  obtain ⟨t',ran,held⟩ := foldlM_holds moved each
  refine ⟨t'.framebuffer_set_cursor 24 0,?_,safe t' held,rfl,rfl⟩
  simp only [framebuffer_auto_down,ran,Option.bind_eq_bind,Option.bind_some]

theorem blank_text : charOf ' ' ≠ charOf '\n' := by decide

theorem auto_down_inRow (depth : Nat) (inside : t.Inside) (inRow : t.cursor_col.toNat < TERMINAL_WIDTH) :
    ∃ t', framebuffer_auto_down (depth+2) t = some t' ∧ t'.Inside ∧ t'.cursor_row = 24 ∧ t'.cursor_col = 0 := by
  refine auto_down_of (fun t => t.Inside ∧ t.cursor_col.toNat < TERMINAL_WIDTH) (fun _ held => held.1) ⟨inside.moveRows,inRow⟩ ?_
  intro t col ⟨inside,inRow⟩ bound
  have rowBound : (24 : Byte).toNat < TERMINAL_HEIGHT := by decide
  exact ⟨_,framebuffer_write_plain depth _ _ blank_text rowBound bound inRow,
    inside.write_exact_loc _ _ _ rowBound bound,inRow⟩

-- A cursor past the end of its row goes to the next one, with a scroll at the last.
theorem nextRow_returns (depth : Nat) (inside : t.Inside) :
    ∃ t', nextRow (framebuffer_auto_down (depth+2)) t = some t' ∧ t'.Inside ∧ t'.cursor_col = 0 ∧
      (t'.cursor_row = 24 ∨ t'.cursor_row = t.cursor_row+1 ∧ (t.cursor_row+1).toNat < TERMINAL_HEIGHT) := by
  unfold nextRow
  by_cases last : TERMINAL_HEIGHT ≤ (t.cursor_row+1).toNat
  · obtain ⟨t',ran,inside',_,col⟩ := @auto_down_inRow {t with cursor_col := 0, cursor_row := t.cursor_row+1} depth inside
      (show (0 : Byte).toNat < TERMINAL_WIDTH by decide)
    exact ⟨{t' with cursor_row := 24},by simp only [last,if_true,ran,Option.map_some],inside',col,Or.inl rfl⟩
  · exact ⟨{t with cursor_col := 0, cursor_row := t.cursor_row+1},by simp only [last,if_false],inside,rfl,
      Or.inr ⟨rfl,Nat.not_le.mp last⟩⟩

-- Where a write leaves the cursor.
def Settled (t t' : Terminal) : Prop :=
  t'.Inside ∧ (t'.cursor_row = t.cursor_row ∧ t'.cursor_col = t.cursor_col ∧ t.cursor_col.toNat < TERMINAL_WIDTH ∨
    t'.cursor_col = 0 ∧ (t'.cursor_row = 24 ∨ t'.cursor_row = t.cursor_row+1 ∧ (t.cursor_row+1).toNat < TERMINAL_HEIGHT))

theorem framebuffer_write_onScreen (depth : Nat) {row col c : Byte} (fg bg : Byte) (inside : t.Inside) (text : c ≠ charOf '\n')
    (rowBound : row.toNat < TERMINAL_HEIGHT) (colBound : col.toNat < TERMINAL_WIDTH) :
    ∃ t', framebuffer_write (depth+3) t row col c fg bg = some t' ∧ Settled t t' := by
  have stored := inside.write_exact_loc c fg bg rowBound colBound
  by_cases inRow : t.cursor_col.toNat < TERMINAL_WIDTH
  · exact ⟨_,framebuffer_write_plain _ _ _ text rowBound colBound inRow,stored,Or.inl ⟨rfl,rfl,inRow⟩⟩
  · obtain ⟨t',ran,inside',col',row'⟩ := nextRow_returns depth stored
    refine ⟨t'.framebuffer_set_cursor t'.cursor_row t'.cursor_col,?_,inside',Or.inr ⟨col',row'⟩⟩
    have kept : (t.write_exact_loc row col c fg bg).cursor_col = t.cursor_col := rfl
    simp only [framebuffer_write,text,if_false,Nat.not_le.mpr rowBound,Nat.not_le.mpr colBound,Option.bind_eq_bind,
      Option.bind_some,kept,Nat.not_lt.mp inRow,if_true,ran]

theorem auto_down_returns (depth : Nat) (inside : t.Inside) :
    ∃ t', framebuffer_auto_down (depth+4) t = some t' ∧ t'.Inside ∧ t'.cursor_row = 24 ∧ t'.cursor_col = 0 := by
  refine auto_down_of Inside (fun _ inside => inside) inside.moveRows ?_
  intro t col inside bound
  obtain ⟨t',ran,settled⟩ := framebuffer_write_onScreen depth 0x07 0x00 inside blank_text
    (show (24 : Byte).toNat < TERMINAL_HEIGHT by decide) bound
  exact ⟨t',ran,settled.1⟩

theorem framebuffer_write_wrap (depth : Nat) (row : Byte) {col c : Byte} (fg bg : Byte) (past : TERMINAL_WIDTH ≤ col.toNat) :
    framebuffer_write (depth+1) t row col c fg bg = framebuffer_write (depth+1) t (row+1) 0 c fg bg := by
  have start : ¬ TERMINAL_WIDTH ≤ (0 : Byte).toNat := by decide
  simp only [framebuffer_write,past,start,if_true,if_false]

theorem framebuffer_write_scroll (depth : Nat) {row col c : Byte} (fg bg : Byte) (text : c ≠ charOf '\n')
    (colBound : col.toNat < TERMINAL_WIDTH) (past : TERMINAL_HEIGHT ≤ row.toNat) :
    framebuffer_write (depth+1) t row col c fg bg =
      (framebuffer_auto_down depth t).bind fun t => framebuffer_write (depth+1) t 24 col c fg bg := by
  have last : ¬ TERMINAL_HEIGHT ≤ (24 : Byte).toNat := by decide
  simp only [framebuffer_write,text,Nat.not_le.mpr colBound,past,last,if_true,if_false,Option.bind_eq_bind,Option.bind_some]

-- Any write at all. One that asks for a place below the last row scrolls first, which
-- leaves the cursor in the last row.
theorem framebuffer_write_returns (depth : Nat) (row col : Byte) {c : Byte} (fg bg : Byte) (inside : t.Inside)
    (text : c ≠ charOf '\n') : ∃ t', framebuffer_write (depth+5) t row col c fg bg = some t' ∧ Settled t t' ∧
      (col.toNat < TERMINAL_WIDTH → TERMINAL_HEIGHT ≤ row.toNat → t'.cursor_row = 24) := by
  have bounded : ∀ row col : Byte, col.toNat < TERMINAL_WIDTH →
      ∃ t', framebuffer_write (depth+5) t row col c fg bg = some t' ∧ Settled t t' ∧
        (TERMINAL_HEIGHT ≤ row.toNat → t'.cursor_row = 24) := by
    intro row col colBound
    by_cases past : TERMINAL_HEIGHT ≤ row.toNat
    · obtain ⟨middle,down,inside',row',col'⟩ := auto_down_returns depth inside
      have inRow : middle.cursor_col.toNat < TERMINAL_WIDTH := by rw [col']; decide
      have rowBound : (24 : Byte).toNat < TERMINAL_HEIGHT := by decide
      refine ⟨(middle.write_exact_loc 24 col c fg bg).framebuffer_set_cursor middle.cursor_row middle.cursor_col,?_,
        ⟨inside'.write_exact_loc c fg bg rowBound colBound,Or.inr ⟨col',Or.inl row'⟩⟩,fun _ => row'⟩
      rw [framebuffer_write_scroll _ _ _ text colBound past,down]
      exact framebuffer_write_plain _ _ _ text rowBound colBound inRow
    · obtain ⟨t',ran,settled⟩ := framebuffer_write_onScreen (depth+2) fg bg inside text (Nat.not_le.mp past) colBound
      exact ⟨t',ran,settled,fun below => absurd below past⟩
  by_cases colBound : col.toNat < TERMINAL_WIDTH
  · obtain ⟨t',ran,settled,last⟩ := bounded row col colBound
    exact ⟨t',ran,settled,fun _ => last⟩
  · obtain ⟨t',ran,settled,_⟩ := bounded (row+1) 0 (show (0 : Byte).toNat < TERMINAL_WIDTH by decide)
    refine ⟨t',?_,settled,fun below => absurd below colBound⟩
    rw [framebuffer_write_wrap _ _ _ _ (Nat.not_lt.mp colBound),ran]

-- What holds between two steps of one call: the column may be one past the row.
structure Near (t : Terminal) : Prop where
  inside : t.Inside
  row : t.cursor_row.toNat < TERMINAL_HEIGHT

structure OnScreen (t : Terminal) : Prop extends Near t where
  col : t.cursor_col.toNat < TERMINAL_WIDTH

theorem Settled.row {t' : Terminal} (settled : Settled t t') (row : t.cursor_row.toNat < TERMINAL_HEIGHT) :
    t'.cursor_row.toNat < TERMINAL_HEIGHT := by
  rcases settled.2 with ⟨same,_⟩ | ⟨_,last | ⟨next,bound⟩⟩
  · rwa [same]
  · rw [last]; decide
  · rwa [next]

theorem Settled.col {t' : Terminal} (settled : Settled t t') : t'.cursor_col.toNat < TERMINAL_WIDTH := by
  rcases settled.2 with ⟨_,same,bound⟩ | ⟨start,_⟩
  · rwa [same]
  · rw [start]; decide

-- A cursor in front of the write that is one row below the screen asks for a scroll.
theorem advance_returns (near : Near t) {c : Byte} (fg bg : Byte) (text : c ≠ charOf '\n') :
    ∃ t', t.advance c fg bg = some t' ∧ Near t' := by
  unfold advance
  split
  · obtain ⟨t',ran,settled,last⟩ := @framebuffer_write_returns {t with cursor_col := 0, cursor_row := t.cursor_row+1} 0
      (t.cursor_row+1) 0 c fg bg near.inside text
    refine ⟨{t' with cursor_col := t'.cursor_col+1}.framebuffer_set_cursor t'.cursor_row (t'.cursor_col+1),
      by simp only [callDepth,ran,Option.bind_eq_bind,Option.bind_some],settled.1,?_⟩
    by_cases below : TERMINAL_HEIGHT ≤ (t.cursor_row+1).toNat
    · exact (congrArg BitVec.toNat (last (by decide) below)).trans_lt (by decide)
    · exact settled.row (Nat.not_le.mp below)
  · obtain ⟨t',ran,settled,_⟩ := framebuffer_write_returns 0 t.cursor_row t.cursor_col fg bg near.inside text
    exact ⟨{t' with cursor_col := t'.cursor_col+1}.framebuffer_set_cursor t'.cursor_row (t'.cursor_col+1),
      by simp only [callDepth,ran,Option.bind_eq_bind,Option.bind_some],settled.1,settled.row near.row⟩

theorem retreat_returns (near : Near t) {row : Byte} (col : Byte) (rowBound : row.toNat < TERMINAL_HEIGHT) :
    ∃ t', t.retreat row col = some t' ∧ Near t' := by
  obtain ⟨t',ran,settled,_⟩ := @framebuffer_write_returns {t with cursor_row := row, cursor_col := col} 0 row col _ 0xF 0
    near.inside blank_text
  exact ⟨t'.framebuffer_set_cursor t'.cursor_row t'.cursor_col,
    by simp only [retreat,callDepth,ran,Option.bind_eq_bind,Option.bind_some],settled.1,settled.row rowBound⟩

theorem backspace_returns (near : Near t) : ∃ t', t.backspace = some t' ∧ Near t' := by
  unfold backspace
  split
  · rename_i start
    exact retreat_returns near 79 (byte_pred (byte_nonzero start.1) near.row)
  · split
    · exact retreat_returns near _ near.row
    · exact ⟨t,rfl,near⟩

theorem interpret_returns (near : Near t) (c textColor : Byte) : ∃ t', t.interpret c textColor = some t' ∧ Near t' := by
  unfold interpret
  split
  · obtain ⟨t',ran,inside,_,row⟩ := nextRow_returns 3 near.inside
    refine ⟨t'.framebuffer_set_cursor t'.cursor_row t'.cursor_col,by simp only [callDepth,ran,Option.map_some],inside,?_⟩
    rcases row with last | ⟨next,bound⟩
    · exact (congrArg BitVec.toNat last).trans_lt (by decide)
    · exact (congrArg BitVec.toNat next).trans_lt bound
  · rename_i text
    split
    · exact foldlM_holds near fun _ _ t near => advance_returns near 0xF 0 blank_text
    · split
      · exact backspace_returns near
      · exact advance_returns near textColor 0 text

-- Every branch leaves the row right; the blank written behind the cursor brings the
-- column back.
theorem putchar_returns (on : OnScreen t) (c textColor : Byte) : ∃ t', t.putchar c textColor = some t' ∧ OnScreen t' := by
  unfold putchar
  split
  · exact ⟨t,rfl,on⟩
  · obtain ⟨middle,ran,near⟩ := interpret_returns on.toNear c textColor
    obtain ⟨t',wrote,settled,_⟩ := framebuffer_write_returns 0 middle.cursor_row (middle.cursor_col+1) 0xF 0 near.inside blank_text
    refine ⟨t',?_,⟨settled.1,settled.row near.row⟩,settled.col⟩
    simp only [ran,Option.bind_eq_bind,Option.bind_some]
    exact wrote

theorem putsLoop_returns (ebx : Bytes) (edx : Word) (turns i : Nat) (on : OnScreen t) :
    ∃ t', putsLoop ebx edx turns i t = some t' ∧ OnScreen t' := by
  induction turns generalizing i t with
  | zero => exact ⟨t,rfl,on⟩
  | succ turns ih =>
    obtain ⟨middle,ran,onMiddle⟩ := putchar_returns on (ebx i) (edx.truncate 8)
    obtain ⟨t',later,onLast⟩ := ih (i+1) onMiddle
    refine ⟨t',?_,onLast⟩
    simp only [putsLoop,ran,Nat.not_le.mpr onMiddle.row,if_false,Option.bind_eq_bind,Option.bind_some]
    exact later

theorem clearScreen_onScreen (inside : t.Inside) : OnScreen t.clearScreen := by
  refine ⟨⟨Ram.Within.memset inside 0 fun i below => ⟨i,?_,rfl⟩,Nat.zero_lt_succ 24⟩,Nat.zero_lt_succ 79⟩
  have size : (BitVec.ofNat 32 (80*25*2)).toNat = 4000 := rfl
  omega

end Terminal

namespace Session
open Terminal
variable {s : Session}

-- The guards of the arrow keys are exactly what keeps the cursor on the screen.
theorem arrowKey_onScreen {s' : Session} {scancode : Byte} (on : OnScreen s.terminal)
    (moved : s.arrowKey scancode = some s') : OnScreen s'.terminal := by
  have kept : ∀ {row col : Byte}, row.toNat < TERMINAL_HEIGHT → col.toNat < TERMINAL_WIDTH →
      OnScreen (s.moveCursor row col).terminal := fun row col => ⟨⟨on.inside,row⟩,col⟩
  have row := on.row
  have col := on.col
  simp only [TERMINAL_HEIGHT,TERMINAL_WIDTH] at row col kept
  simp only [arrowKey] at moved
  split at moved
  · cases moved
    split
    · rename_i below
      exact kept (byte_pred (byte_nonzero below) row) col
    · exact on
  · split at moved
    · cases moved
      split
      · rename_i above
        have room : s.terminal.cursor_row.toNat < 24 := BitVec.lt_def.mp above
        exact kept (byte_succ (by omega)) col
      · exact on
    · split at moved
      · rename_i right
        cases moved
        split
        · rename_i last
          refine kept (byte_succ ?_) (by decide)
          have other : s.terminal.cursor_row ≠ 24 := fun same => right.2 ⟨same,last⟩
          have different : s.terminal.cursor_row.toNat ≠ 24 := fun same => other (BitVec.eq_of_toNat_eq same)
          omega
        · rename_i notLast
          refine kept row (byte_succ ?_)
          have different : s.terminal.cursor_col.toNat ≠ 79 := fun same => notLast (BitVec.eq_of_toNat_eq same)
          omega
      · split at moved
        · rename_i left
          cases moved
          split
          · rename_i first
            exact kept (byte_pred (fun same => left.2 ⟨same,first⟩) row) (by decide)
          · rename_i notFirst
            exact kept row (byte_pred notFirst col)
        · cases moved

theorem keyboard_isr_onScreen (on : OnScreen s.terminal) (scancode : Byte) : OnScreen (s.keyboard_isr scancode).terminal := by
  unfold keyboard_isr
  split
  · exact on
  · split
    · exact on
    · simp only
      split
      · rename_i moved
        exact @arrowKey_onScreen {s with keyboard_state := s.keyboard_state.modifiers scancode} _ scancode on moved
      · exact on

theorem respond_returns (on : OnScreen s.terminal) (a : ConsoleAction) : ∃ s', s.respond a = some s' ∧ OnScreen s'.terminal := by
  cases a with
  | putchar c textColor =>
    obtain ⟨t',ran,on'⟩ := putchar_returns on c textColor
    exact ⟨{s with terminal := t'},by simp only [respond,onTerminal,ran,Option.map_some],on'⟩
  | puts ebx ecx edx =>
    obtain ⟨t',ran,on'⟩ := putsLoop_returns ebx edx ecx.toInt.toNat 0 on
    exact ⟨{s with terminal := t'},by simp only [respond,onTerminal,puts,ran,Option.map_some],on'⟩
  | key scancode => exact ⟨_,rfl,keyboard_isr_onScreen on scancode⟩
  | clear => exact ⟨_,rfl,clearScreen_onScreen on.inside⟩
  | activate => exact ⟨_,rfl,on⟩

end Session

-- Every sequence of calls returns, and leaves the cursor and all stores on the screen.
theorem console_stays_onScreen (memory : Memory) (keyboard_state : KeyboardDriverState) (actions : List ConsoleAction) :
    ∃ s, (Session.cleared memory keyboard_state).perform actions = some s ∧
      s.terminal.cursor_row ≤ 24 ∧ s.terminal.cursor_col ≤ 79 ∧
      ∀ addr ∈ s.terminal.ram.stored, ∃ k < 4000, addr = FRAMEBUFFER_MEMORY_OFFSET + BitVec.ofNat 32 k := by
  have empty : (Terminal.boot memory).Inside := fun addr member => absurd member List.not_mem_nil
  have initial : (Session.cleared memory keyboard_state).terminal.OnScreen := Terminal.clearScreen_onScreen empty
  have each : ∀ a ∈ actions, ∀ s : Session, s.terminal.OnScreen → ∃ s', s.respond a = some s' ∧ s'.terminal.OnScreen :=
    fun a _ s on => Session.respond_returns on a
  obtain ⟨s,ran,on⟩ := @foldlM_holds _ _ (fun s : Session => s.terminal.OnScreen) _ _ _ initial each
  exact ⟨s,ran,BitVec.le_def.mpr (Nat.le_of_lt_succ on.row),BitVec.le_def.mpr (Nat.le_of_lt_succ on.col),on.inside⟩

end Sosis.Console
