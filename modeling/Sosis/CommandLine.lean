import Sosis.Keyboard
import Sosis.TransitionRuns

-- The line that is being typed: the command array of keyboard.c, which system calls 4
-- and 17 edit. A result `none` is an access outside one of the two arrays.
namespace Sosis.Console
open ByteRecords TransitionRuns

abbrev commandSize : Nat := 100
abbrev CommandArray := Fin commandSize → Byte

def load (array : CommandArray) (i : Nat) : Option Byte :=
  if bound : i < commandSize then some (array ⟨i,bound⟩) else none

def store (array : CommandArray) (i : Nat) (c : Byte) : Option CommandArray :=
  if bound : i < commandSize then some (Function.update array ⟨i,bound⟩ c) else none

-- for(int i=start;i<start+turns;i++), one store to the array a turn
def storeLoop (byte : Nat → Option Byte) : Nat → Nat → CommandArray → Option CommandArray
  | 0,_,array => some array
  | turns+1,i,array => (byte i).bind fun c => (store array i c).bind (storeLoop byte turns (i+1))

-- `idx` is an int that never gets below zero.
structure CommandBuffer where
  command : CommandArray
  idx : Nat

namespace CommandBuffer

def initial : CommandBuffer := ⟨fun _ => 0,0⟩

def add_command (b : CommandBuffer) (c : Byte) : Option CommandBuffer :=
  (store b.command b.idx c).map fun command => ⟨command,b.idx+1⟩

def get_command (b : CommandBuffer) (commandShell : CommandArray) : Option (CommandArray × Nat) :=
  (storeLoop (load b.command) b.idx 0 commandShell).bind fun commandShell =>
    (storeLoop (fun _ => some 0) (commandSize - b.idx) b.idx commandShell).map fun commandShell => (commandShell,b.idx)

def clear_command (b : CommandBuffer) : Option CommandBuffer :=
  (storeLoop (fun _ => some 0) b.idx 0 b.command).map fun command => ⟨command,0⟩

def delete_command (b : CommandBuffer) : Option CommandBuffer :=
  match b.idx with
  | 0 => some b
  | idx+1 => (store b.command idx 0).map fun command => ⟨command,idx⟩

-- What system call 4 does with a character that get_keyboard_buffer has taken.
def typed (b : CommandBuffer) (c : Byte) : Option CommandBuffer :=
  if c = 0x08 then b.delete_command
  else if c ≠ 0 ∧ c ≠ charOf '\n' then b.add_command c
  else some b

end CommandBuffer

inductive LineAction where
  | take (c : Byte) (commandShell : CommandArray)
  | clear

-- The buffer, and what the last system call delivered.
structure LineState where
  buffer : CommandBuffer
  delivered : Option (CommandArray × Nat)

def LineState.initial : LineState := ⟨.initial,none⟩

def LineState.respond (s : LineState) : LineAction → Option LineState
  | .take c commandShell => (s.buffer.typed c).bind fun buffer =>
    (buffer.get_command commandShell).map fun shell => ⟨buffer,some shell⟩
  | .clear => s.buffer.clear_command.map fun buffer => ⟨buffer,none⟩

-- What the typing means.
def edit (text : List Byte) : LineAction → List Byte
  | .take c _ => if c = 0x08 then text.dropLast else if c ≠ 0 ∧ c ≠ charOf '\n' then text ++ [c] else text
  | .clear => []

def edited (actions : List LineAction) : List Byte := actions.foldl edit []

def paddedText (text : List Byte) : CommandArray := fun i => text.getD i 0

-- All accesses were inside, the index is one of the array, and what was delivered is
-- the text, padded and terminated.
def LineIsText (actions : List LineAction) : Prop :=
  ∃ s, actions.foldlM LineState.respond .initial = some s ∧ s.buffer.idx < commandSize ∧
    ∀ c commandShell, actions.getLast? = some (.take c commandShell) → ∃ shell idxShell,
      s.delivered = some (shell,idxShell) ∧ shell = paddedText (edited actions) ∧
      idxShell = (edited actions).length ∧ ∃ i, shell i = 0

section loops
variable {byte : Nat → Option Byte} {value : Nat → Byte} {array : CommandArray}

theorem storeLoop_cells {turns start : Nat} (inside : start + turns ≤ commandSize)
    (known : ∀ i, start ≤ i → i < start + turns → byte i = some (value i)) :
    storeLoop byte turns start array =
      some fun i => if start ≤ i.val ∧ i.val < start + turns then value i.val else array i := by
  induction turns generalizing start array with
  | zero =>
    refine congrArg some (funext fun i => (if_neg ?_).symm)
    omega
  | succ turns ih =>
    have bound : start < commandSize := by omega
    have stored : store array start (value start) = some (Function.update array ⟨start,bound⟩ (value start)) := dif_pos bound
    rw [storeLoop,known start (Nat.le_refl _) (by omega),Option.bind_some,stored,Option.bind_some,
      ih (by omega) fun i low high => known i (by omega) (by omega)]
    refine congrArg some (funext fun i => ?_)
    by_cases here : i = ⟨start,bound⟩
    · subst here
      rw [if_neg (by simp),Function.update_self,if_pos ⟨Nat.le_refl _,by simp⟩]
    · have other : i.val ≠ start := fun same => here (Fin.ext same)
      rw [Function.update_of_ne here]
      by_cases later : start + 1 ≤ i.val ∧ i.val < start + 1 + turns
      · rw [if_pos later,if_pos (by omega)]
      · rw [if_neg later,if_neg (by omega)]

end loops

-- The array holds the text, which may fill it to the last byte.
structure Lined (b : CommandBuffer) (text : List Byte) : Prop where
  idx : b.idx = text.length
  room : text.length ≤ commandSize
  cells : ∀ i : Fin commandSize, i.val < text.length → text[i.val]? = some (b.command i)

section lined
variable {b : CommandBuffer} {text : List Byte}

theorem initial_lined : Lined .initial [] := ⟨rfl,Nat.zero_le _,fun _ inside => absurd inside (Nat.not_lt_zero _)⟩

theorem Lined.delivers (lined : Lined b text) (commandShell : CommandArray) :
    b.get_command commandShell = some (paddedText text,text.length) := by
  have room := lined.room
  have idx := lined.idx
  have copied : storeLoop (load b.command) b.idx 0 commandShell =
      some fun i => if 0 ≤ i.val ∧ i.val < 0 + b.idx then text.getD i.val 0 else commandShell i := by
    refine @storeLoop_cells _ (fun i => text.getD i 0) _ _ _ (by omega) fun i _ inside => ?_
    have bound : i < commandSize := by omega
    have cell := lined.cells ⟨i,bound⟩ (show i < text.length by omega)
    rw [List.getD_eq_getElem?_getD,cell]
    exact dif_pos bound
  have filled := @storeLoop_cells (fun _ => some 0) (fun _ => 0)
    (fun i => if 0 ≤ i.val ∧ i.val < 0 + b.idx then text.getD i.val 0 else commandShell i) (commandSize - b.idx) b.idx
    (by omega) fun _ _ _ => rfl
  unfold CommandBuffer.get_command
  rw [copied,Option.bind_some,filled,Option.map_some,idx]
  refine congrArg (fun shell => some (shell,text.length)) (funext fun i => ?_)
  have bound : i.val < 100 := i.isLt
  unfold paddedText
  by_cases inside : i.val < text.length
  · rw [if_neg (by omega),if_pos (by omega)]
  · rw [if_pos (by omega),List.getD_eq_getElem?_getD,List.getElem?_eq_none (by omega),Option.getD_none]

theorem Lined.add (lined : Lined b text) (room : text.length < commandSize) (c : Byte) :
    ∃ b', b.add_command c = some b' ∧ Lined b' (text ++ [c]) := by
  have bound : b.idx < commandSize := lined.idx ▸ room
  have stored : store b.command b.idx c = some (Function.update b.command ⟨b.idx,bound⟩ c) := dif_pos bound
  refine ⟨⟨Function.update b.command ⟨b.idx,bound⟩ c,b.idx+1⟩,congrArg (Option.map _) stored,?_,?_,fun i inside => ?_⟩
  · simp [lined.idx]
  · rw [List.length_append]
    exact room
  · rw [List.length_append,List.length_singleton] at inside
    by_cases here : i = ⟨b.idx,bound⟩
    · subst here
      simp [lined.idx]
    · have other : i.val ≠ text.length := fun same => here (Fin.ext (same.trans lined.idx.symm))
      have old : i.val < text.length := by omega
      rw [List.getElem?_append_left old,lined.cells i old]
      exact congrArg some (Function.update_of_ne here _ _).symm

theorem Lined.delete (lined : Lined b text) : ∃ b', b.delete_command = some b' ∧ Lined b' text.dropLast := by
  have idx := lined.idx
  have room := lined.room
  unfold CommandBuffer.delete_command
  cases at_ : b.idx with
  | zero =>
    have empty : text = [] := List.length_eq_zero_iff.mp (idx.symm.trans at_)
    subst empty
    exact ⟨b,rfl,lined⟩
  | succ last =>
    have bound : last < commandSize := by omega
    have stored : store b.command last 0 = some (Function.update b.command ⟨last,bound⟩ 0) := dif_pos bound
    refine ⟨⟨Function.update b.command ⟨last,bound⟩ 0,last⟩,congrArg (Option.map _) stored,?_,?_,fun i inside => ?_⟩
    · simp only [List.length_dropLast]
      omega
    · rw [List.length_dropLast]
      omega
    · rw [List.length_dropLast] at inside
      have other : i ≠ ⟨last,bound⟩ := by
        rintro rfl
        simp only at inside
        omega
      rw [List.getElem?_dropLast,if_pos inside,lined.cells i (by omega)]
      exact congrArg some (Function.update_of_ne other _ _).symm

theorem Lined.clear (lined : Lined b text) : ∃ b', b.clear_command = some b' ∧ Lined b' [] := by
  have room := lined.room
  have idx := lined.idx
  have blanked := @storeLoop_cells (fun _ => some 0) (fun _ => 0) b.command b.idx 0 (by omega) fun _ _ _ => rfl
  exact ⟨_,congrArg (Option.map _) blanked,rfl,Nat.zero_le _,fun _ inside => absurd inside (Nat.not_lt_zero _)⟩

theorem Lined.typed (lined : Lined b text) (room : text.length < commandSize) (c : Byte) (commandShell : CommandArray) :
    ∃ b', b.typed c = some b' ∧ Lined b' (edit text (.take c commandShell)) := by
  unfold CommandBuffer.typed edit
  by_cases erases : c = 0x08
  · simp only [if_pos erases]
    exact lined.delete
  · by_cases ordinary : c ≠ 0 ∧ c ≠ charOf '\n'
    · simp only [if_neg erases,if_pos ordinary]
      exact lined.add room c
    · simp only [if_neg erases,if_neg ordinary]
      exact ⟨b,rfl,lined⟩

-- One system call, on a line with room for one more character.
theorem Lined.respond {s : LineState} (lined : Lined s.buffer text) (room : text.length < commandSize) (a : LineAction) :
    ∃ s', s.respond a = some s' ∧ Lined s'.buffer (edit text a) ∧
      ∀ c commandShell, a = .take c commandShell → s'.delivered = some (paddedText (edit text a),(edit text a).length) := by
  cases a with
  | clear =>
    obtain ⟨b',cleared,lined'⟩ := lined.clear
    exact ⟨⟨b',none⟩,congrArg (Option.map _) cleared,lined',by rintro c shell ⟨⟩⟩
  | take c commandShell =>
    obtain ⟨b',typed,lined'⟩ := lined.typed room c commandShell
    have delivers := lined'.delivers commandShell
    refine ⟨⟨b',some (paddedText (edit text (.take c commandShell)),(edit text (.take c commandShell)).length)⟩,?_,lined',
      fun _ _ _ => rfl⟩
    simp only [LineState.respond,typed,Option.bind_some,delivers,Option.map_some]

end lined

theorem edited_append (front : List LineAction) (a : LineAction) : edited (front ++ [a]) = edit (edited front) a :=
  List.foldl_concat edit [] a front

-- As long as the line has room, the buffer follows the typing.
theorem line_follows {actions : List LineAction} (fits : ∀ front, front <+: actions → front ≠ actions →
    (edited front).length < commandSize) :
    ∃ s, actions.foldlM LineState.respond .initial = some s ∧ Lined s.buffer (edited actions) ∧
      ∀ c commandShell, actions.getLast? = some (.take c commandShell) →
        s.delivered = some (paddedText (edited actions),(edited actions).length) := by
  induction actions using List.reverseRecOn with
  | nil => exact ⟨.initial,rfl,initial_lined,by simp⟩
  | append_singleton front a ih =>
    have shorter : front ≠ front ++ [a] := fun same => by simpa using congrArg List.length same
    obtain ⟨s,ran,lined,_⟩ := ih fun g prior proper => fits g (prior.trans (List.prefix_append _ _)) fun same => by
      subst same
      exact shorter (prior.eq_of_length_le (by simp)).symm
    obtain ⟨s',responded,lined',delivered⟩ := lined.respond (fits front (List.prefix_append _ _) shorter) a
    rw [edited_append]
    refine ⟨s',?_,lined',fun c commandShell last => delivered c commandShell ?_⟩
    · rw [List.foldlM_append,ran,Option.bind_eq_bind,Option.bind_some,List.foldlM_cons,responded]
      rfl
    · simpa using last

theorem Lined.text_iff {actions : List LineAction} {s : LineState} (ran : actions.foldlM LineState.respond .initial = some s)
    (lined : Lined s.buffer (edited actions)) (delivered : ∀ c commandShell, actions.getLast? = some (.take c commandShell) →
      s.delivered = some (paddedText (edited actions),(edited actions).length)) :
    LineIsText actions ↔ (edited actions).length < commandSize := by
  constructor
  · rintro ⟨s',ran',below,_⟩
    cases ran.symm.trans ran'
    exact lined.idx ▸ below
  · intro below
    refine ⟨s,ran,lined.idx ▸ below,fun c commandShell last => ⟨_,_,delivered c commandShell last,rfl,rfl,?_⟩⟩
    refine ⟨⟨_,below⟩,?_⟩
    unfold paddedText
    rw [List.getD_eq_getElem?_getD,List.getElem?_eq_none (Nat.le_refl _),Option.getD_none]

-- The line is the edited text after every call exactly when the text never fills the
-- array.
theorem line_is_text_iff (actions : List LineAction) : (∀ front, front <+: actions → LineIsText front) ↔
    ∀ front, front <+: actions → (edited front).length < commandSize := by
  constructor
  · intro texts
    suffices every : ∀ front, front <+: actions → ∀ g, g <+: front → (edited g).length < commandSize from
      fun front prior => every front prior front (List.prefix_refl front)
    intro front
    induction front using List.reverseRecOn with
    | nil =>
      intro _ g empty
      rw [List.prefix_nil.mp empty]
      exact Nat.zero_lt_succ 99
    | append_singleton front a ih =>
      intro prior g inside
      have shorter := ih ((List.prefix_append front [a]).trans prior)
      rcases List.prefix_concat_iff.mp inside with rfl | before
      · obtain ⟨s,ran,lined,delivered⟩ := line_follows fun g earlier proper =>
          shorter g ((List.prefix_concat_iff.mp earlier).resolve_left proper)
        exact (lined.text_iff ran delivered).mp (texts _ prior)
      · exact shorter g before
  · intro fits front prior
    obtain ⟨s,ran,lined,delivered⟩ := line_follows fun g earlier _ => fits g (earlier.trans prior)
    exact (lined.text_iff ran delivered).mpr (fits front prior)

def keystrokes (n : Nat) : List LineAction := List.replicate n (.take (charOf 'a') fun _ => 0)

-- The hundredth character takes the last byte, the next one is stored behind it.
theorem hundred_fill : ¬ (∀ front, front <+: keystrokes 100 → LineIsText front) ∧
    (keystrokes 101).foldlM LineState.respond .initial = none := by
  have full : ((keystrokes 100).foldlM LineState.respond .initial).any (fun s => s.buffer.idx = 100) = true := by
    decide +kernel
  refine ⟨fun texts => ?_,by decide +kernel⟩
  obtain ⟨s,ran,below,_⟩ := texts _ (List.prefix_refl _)
  rw [ran,Option.any_some,decide_eq_true_eq] at full
  exact absurd full (Nat.ne_of_lt below)

end Sosis.Console
