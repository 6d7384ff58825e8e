import Sosis.ScreenBounds

-- The one character that keyboard.c holds between an interrupt and a poll.
namespace Sosis.Console
open ByteRecords TransitionRuns

-- Interrupts and polls in any order; other calls may move the cursor, which decides
-- whether an arrow key is answered.
inductive KeyEvent where
  | key (scancode : Byte)
  | poll
  | screen (terminal : Terminal)

def Session.next (s : Session) : KeyEvent → Session
  | .key scancode => s.keyboard_isr scancode
  | .poll => s.get_keyboard_buffer.2
  | .screen terminal => {s with terminal := terminal}

def KeyStep (s : Session) (e : KeyEvent) (s' : Session) : Prop := s' = s.next e

-- The character of a scancode under the current modifiers, zero for none.
def Session.maps (s : Session) (scancode : Byte) : Byte := s.keyboard_state.ascii_char scancode

-- What a poll in this state returns.
def Session.polled (s : Session) : Byte := s.get_keyboard_buffer.1

abbrev KeyHistory := List (Transition Session KeyEvent)

-- Neither a poll nor a scancode with a character.
def Quiet (t : Transition Session KeyEvent) : Prop :=
  t.action ≠ .poll ∧ ∀ scancode, t.action = .key scancode → t.before.maps scancode = 0

-- A keystroke, and the next poll, with no other keystroke between them.
structure Awaited (history : KeyHistory) (press poll : Transition Session KeyEvent) (between : KeyHistory)
    (scancode : Byte) : Prop where
  within : ∃ earlier later, history = earlier ++ press :: (between ++ poll :: later)
  pressed : press.action = .key scancode
  character : press.before.maps scancode ≠ 0
  quiet : ∀ t ∈ between, Quiet t
  polls : poll.action = .poll

def KeepsKeystrokes (history : KeyHistory) : Prop :=
  ∀ press poll between scancode, Awaited history press poll between scancode →
    poll.before.polled = press.before.maps scancode

-- What a poll returns was pressed after the poll before it.
def PolledOnce (history : KeyHistory) : Prop :=
  ∀ earlier first between poll later, history = earlier ++ first :: (between ++ poll :: later) →
    first.action = .poll → poll.action = .poll → poll.before.polled ≠ 0 →
    ∃ before press after scancode, between = before ++ press :: after ∧ press.action = .key scancode ∧
      press.before.maps scancode = poll.before.polled ∧ ∀ t ∈ after, Quiet t

-- A scancode that is looked up in the tables: no caps lock, no arrow key that moves
-- the cursor.
def Session.LooksUp (s : Session) (scancode : Byte) : Prop :=
  scancode ≠ CAPSLOCK_SCANCODE ∧ s.arrowKey scancode = none

-- The condition: nothing without a character is looked up while a keystroke waits.
def NothingLookedUp (history : KeyHistory) : Prop :=
  ∀ press poll between scancode, Awaited history press poll between scancode →
    ∀ t ∈ between, ∀ other, t.action = .key other → ¬ t.before.LooksUp other

section isr
variable {s : Session} {scancode : Byte}

theorem modifiers_on (k : KeyboardDriverState) : (k.modifiers scancode).keyboard_input_on = k.keyboard_input_on := by
  unfold KeyboardDriverState.modifiers
  repeat' split
  all_goals rfl

theorem modifiers_buffer (k : KeyboardDriverState) : (k.modifiers scancode).keyboard_buffer = k.keyboard_buffer := by
  unfold KeyboardDriverState.modifiers
  repeat' split
  all_goals rfl

theorem arrowKey_state (s : Session) (scancode : Byte) (k : KeyboardDriverState) :
    Session.arrowKey {s with keyboard_state := k} scancode =
      (s.arrowKey scancode).map fun moved => {moved with keyboard_state := k} := by
  unfold Session.arrowKey Session.moveCursor
  simp only
  repeat' split
  all_goals rfl

-- The tables have no character for a key that is not looked up, or changes a modifier.
theorem plain_tables (scancode : Byte) :
    (scancode = CAPSLOCK_SCANCODE ∨ scancode = LEFT_SHIFT_SCANCODE ∨ scancode = RIGHT_SHIFT_SCANCODE ∨
      scancode = LEFT_SHIFT_RELEASE_SCANCODE ∨ scancode = RIGHT_SHIFT_RELEASE_SCANCODE ∨ scancode = CTRL_SCANCODE ∨
      scancode = CTRL_RELEASE_SCANCODE ∨ scancode = EXT_SCANCODE_UP ∨ scancode = EXT_SCANCODE_DOWN ∨
      scancode = EXT_SCANCODE_LEFT ∨ scancode = EXT_SCANCODE_RIGHT) →
    keyboard_scancode_1_to_ascii_map scancode = 0 ∧ keyboard_scancode_caps_to_ascii_map scancode = 0 ∧
      keyboard_scancode_shift_to_ascii_map scancode = 0 := by
  rintro (rfl | rfl | rfl | rfl | rfl | rfl | rfl | rfl | rfl | rfl | rfl) <;> decide +kernel

theorem ascii_char_zero {k : KeyboardDriverState} (zero : keyboard_scancode_1_to_ascii_map scancode = 0 ∧
    keyboard_scancode_caps_to_ascii_map scancode = 0 ∧ keyboard_scancode_shift_to_ascii_map scancode = 0) :
    k.ascii_char scancode = 0 := by
  obtain ⟨plain,caps,shift⟩ := zero
  unfold KeyboardDriverState.ascii_char
  rw [plain,caps,shift]
  simp only [ite_self]
  exact if_neg fun letter => absurd letter.2.1 (by decide)

theorem ascii_char_modifiers (k : KeyboardDriverState) : (k.modifiers scancode).ascii_char scancode = k.ascii_char scancode := by
  by_cases changes : scancode = LEFT_SHIFT_SCANCODE ∨ scancode = RIGHT_SHIFT_SCANCODE ∨
      scancode = LEFT_SHIFT_RELEASE_SCANCODE ∨ scancode = RIGHT_SHIFT_RELEASE_SCANCODE ∨
      scancode = CTRL_SCANCODE ∨ scancode = CTRL_RELEASE_SCANCODE
  · have zero := plain_tables scancode (by tauto)
    rw [ascii_char_zero zero,ascii_char_zero zero]
  · simp only [not_or] at changes
    obtain ⟨left,right,leftUp,rightUp,ctrl,ctrlUp⟩ := changes
    unfold KeyboardDriverState.modifiers
    rw [if_neg (by tauto),if_neg (by tauto),if_neg ctrl,if_neg ctrlUp]

-- Looked up or not, a key that has a character is.
theorem looksUp_of_maps (character : s.maps scancode ≠ 0) : s.LooksUp scancode := by
  by_contra other
  refine character (ascii_char_zero (plain_tables scancode ?_))
  by_cases caps : scancode = CAPSLOCK_SCANCODE
  · exact Or.inl caps
  · obtain ⟨s',moved⟩ := Option.ne_none_iff_exists'.mp fun none => other ⟨caps,none⟩
    unfold Session.arrowKey at moved
    simp only at moved
    split at moved
    · rename_i up
      tauto
    · split at moved
      · rename_i down
        tauto
      · split at moved
        · rename_i right
          have := right.1
          tauto
        · split at moved
          · rename_i left
            have := left.1
            tauto
          · cases moved

theorem isr_buffer (on : s.keyboard_state.keyboard_input_on = true) :
    (s.keyboard_isr scancode).keyboard_state.keyboard_input_on = true ∧
      (s.LooksUp scancode → (s.keyboard_isr scancode).polled = s.maps scancode) ∧
      (¬ s.LooksUp scancode → (s.keyboard_isr scancode).polled = s.polled) := by
  unfold Session.keyboard_isr
  rw [on]
  by_cases caps : scancode = CAPSLOCK_SCANCODE
  · simp only [Bool.not_true,Bool.false_eq_true,if_false,if_pos caps]
    exact ⟨on,fun looked => absurd caps looked.1,fun _ => rfl⟩
  · simp only [Bool.not_true,Bool.false_eq_true,if_false,if_neg caps]
    rw [arrowKey_state]
    cases arrow : s.arrowKey scancode with
    | none => exact ⟨(modifiers_on _).trans on,fun _ => ascii_char_modifiers _,fun not => absurd ⟨caps,arrow⟩ not⟩
    | some moved =>
      exact ⟨(modifiers_on _).trans on,fun looked => absurd (looked.2.symm.trans arrow) (by rintro ⟨⟩),
        fun _ => modifiers_buffer _⟩

end isr

def InputOn (s : Session) : Prop := s.keyboard_state.keyboard_input_on = true

theorem next_on {s : Session} (on : InputOn s) (e : KeyEvent) : InputOn (s.next e) := by
  cases e with
  | key scancode => exact (isr_buffer on).1
  | poll => exact on
  | screen terminal => exact on

-- A quiet stretch leaves the keystroke in the buffer, or a lookup has blanked it.
theorem quiet_polled {between : KeyHistory} {s s' : Session} (on : InputOn s) (run : Run KeyStep s between s')
    (quiet : ∀ t ∈ between, Quiet t) :
    InputOn s' ∧ (s'.polled = s.polled ∧ (∀ t ∈ between, ∀ other, t.action = .key other → ¬ t.before.LooksUp other) ∨
      s'.polled = 0 ∧ ∃ t ∈ between, ∃ other, t.action = .key other ∧ t.before.LooksUp other) := by
  induction run with
  | nil => exact ⟨on,Or.inl ⟨rfl,by simp⟩⟩
  | @snoc earlier middle action after prior taken ih =>
    obtain ⟨onMiddle,parts⟩ := ih fun t member => quiet t (List.mem_append_left _ member)
    obtain ⟨noPoll,noChar⟩ := quiet ⟨middle,action,after⟩ (by simp)
    cases taken
    refine ⟨next_on onMiddle action,?_⟩
    cases action with
    | poll => exact absurd rfl noPoll
    | screen terminal =>
      rcases parts with ⟨kept,unlooked⟩ | ⟨blank,t,member,looked⟩
      · refine Or.inl ⟨kept,fun t member other at_ => ?_⟩
        rcases List.mem_append.mp member with old | new
        · exact unlooked t old other at_
        · cases List.mem_singleton.mp new
          cases at_
      · exact Or.inr ⟨blank,t,List.mem_append_left _ member,looked⟩
    | key scancode =>
      obtain ⟨_,looks,passes⟩ := @isr_buffer middle scancode onMiddle
      by_cases lookup : middle.LooksUp scancode
      · exact Or.inr ⟨(looks lookup).trans (noChar scancode rfl),⟨middle,.key scancode,middle.next (.key scancode)⟩,by simp,
          scancode,rfl,lookup⟩
      · rcases parts with ⟨kept,unlooked⟩ | ⟨blank,t,member,looked⟩
        · refine Or.inl ⟨(passes lookup).trans kept,fun t member other at_ => ?_⟩
          rcases List.mem_append.mp member with old | new
          · exact unlooked t old other at_
          · cases List.mem_singleton.mp new
            cases at_
            exact lookup
        · exact Or.inr ⟨(passes lookup).trans blank,t,List.mem_append_left _ member,looked⟩

-- Once the buffer is empty, what it holds later is a keystroke made since.
theorem keystroke_behind {between : KeyHistory} {s s' : Session} (on : InputOn s) (empty : s.polled = 0)
    (run : Run KeyStep s between s') :
    InputOn s' ∧ (s'.polled = 0 ∨ ∃ before press after scancode, between = before ++ press :: after ∧
      press.action = .key scancode ∧ press.before.maps scancode = s'.polled ∧ ∀ t ∈ after, Quiet t) := by
  induction run with
  | nil => exact ⟨on,Or.inl empty⟩
  | @snoc earlier middle action last prior taken ih =>
    obtain ⟨onMiddle,parts⟩ := ih
    cases taken
    refine ⟨next_on onMiddle action,?_⟩
    have waits : (middle.next action).polled = middle.polled → Quiet ⟨middle,action,middle.next action⟩ →
        (middle.next action).polled = 0 ∨ ∃ before press after scancode,
          earlier ++ [⟨middle,action,middle.next action⟩] = before ++ press :: after ∧ press.action = .key scancode ∧
            press.before.maps scancode = (middle.next action).polled ∧ ∀ t ∈ after, Quiet t := by
      intro same quiet
      rcases parts with blank | ⟨before,press,after,scancode,rfl,pressed,held,silent⟩
      · exact Or.inl (same.trans blank)
      · refine Or.inr ⟨before,press,after ++ [⟨middle,action,middle.next action⟩],scancode,by simp,pressed,held.trans same.symm,?_⟩
        intro t member
        rcases List.mem_append.mp member with old | new
        · exact silent t old
        · cases List.mem_singleton.mp new
          exact quiet
    cases action with
    | poll => exact Or.inl rfl
    | screen terminal => exact waits rfl ⟨by simp,by simp⟩
    | key scancode =>
      obtain ⟨_,looks,passes⟩ := @isr_buffer middle scancode onMiddle
      by_cases lookup : middle.LooksUp scancode
      · exact Or.inr ⟨earlier,_,[],scancode,rfl,rfl,(looks lookup).symm,by simp⟩
      · refine waits (passes lookup) ⟨by simp,?_⟩
        rintro other ⟨⟩
        by_contra character
        exact lookup (looksUp_of_maps character)

theorem polled_once {history : KeyHistory} {s last : Session} (on : InputOn s) (run : Run KeyStep s history last) :
    PolledOnce history := by
  rintro earlier first between poll later rfl isPoll polls character
  obtain ⟨m,before,rest⟩ := run.split
  have onFirst : InputOn m := before.invariant on fun s e s' held taken => by
    cases taken
    exact next_on held e
  obtain ⟨rfl,taken,rest⟩ := rest.uncons
  rw [isPoll] at taken
  obtain ⟨m',within,onward⟩ := rest.split
  obtain ⟨rfl,_⟩ := onward.uncons
  have emptied : first.after = first.before.next .poll := taken
  rw [emptied] at within
  obtain ⟨_,blank | found⟩ := keystroke_behind (next_on onFirst .poll) rfl within
  · exact absurd blank character
  · exact found

-- What waits at the next poll is the keystroke exactly when nothing was looked up meanwhile.
theorem awaited_iff {history : KeyHistory} {s last : Session} (on : InputOn s) (run : Run KeyStep s history last)
    (awaited : Awaited history press poll between scancode) :
    poll.before.polled = press.before.maps scancode ↔
      ∀ t ∈ between, ∀ other, t.action = .key other → ¬ t.before.LooksUp other := by
  obtain ⟨⟨earlier,later,rfl⟩,pressed,character,quiet,polls⟩ := awaited
  obtain ⟨m,before,rest⟩ := run.split
  have onPress : InputOn m := before.invariant on fun s e s' held taken => by
    cases taken
    exact next_on held e
  obtain ⟨rfl,taken,rest⟩ := rest.uncons
  rw [pressed] at taken
  obtain ⟨m',within,onward⟩ := rest.split
  obtain ⟨rfl,_⟩ := onward.uncons
  have handled : press.after = press.before.keyboard_isr scancode := taken
  obtain ⟨onAfter,looks,_⟩ := @isr_buffer press.before scancode onPress
  have typed := looks (looksUp_of_maps character)
  rw [← handled] at onAfter typed
  obtain ⟨_,⟨kept,unlooked⟩ | ⟨blank,t,member,other,at_,looked⟩⟩ := quiet_polled onAfter within quiet
  · exact ⟨fun _ => unlooked,fun _ => kept.trans typed⟩
  · constructor
    · intro returned
      exact absurd (returned.symm.trans blank) character
    · intro unlooked
      exact absurd looked (unlooked t member other at_)

-- Keystrokes are kept, and never polled twice, exactly when nothing without a character
-- is looked up before the poll.
theorem keystrokes_kept_iff {history : KeyHistory} {s last : Session} (on : InputOn s)
    (run : Run KeyStep s history last) :
    KeepsKeystrokes history ∧ PolledOnce history ↔ NothingLookedUp history := by
  constructor
  · rintro ⟨keeps,_⟩ press poll between scancode awaited
    exact (awaited_iff on run awaited).mp (keeps press poll between scancode awaited)
  · intro unlooked
    refine ⟨fun press poll between scancode awaited => ?_,polled_once on run⟩
    exact (awaited_iff on run awaited).mpr (unlooked press poll between scancode awaited)

-- 'a' pressed, released and polled.
def tapped : List KeyEvent := [.key 0x1E,.key 0x9E,.poll]

def listening : Session := Session.cleared (fun _ => 0) ⟨false,true,0,false,false,false⟩

theorem listening_on : InputOn listening := rfl

def transitions (s : Session) : List KeyEvent → KeyHistory
  | [] => []
  | e :: rest => ⟨s,e,s.next e⟩ :: transitions (s.next e) rest

theorem transitions_run (s : Session) (events : List KeyEvent) :
    Run KeyStep s (transitions s events) (events.foldl Session.next s) := by
  induction events generalizing s with
  | nil => exact .nil
  | cons e rest ih => exact Run.cons rfl (ih (s.next e))

-- Caps lock is handled without a lookup, so the keystroke waits for the poll.
theorem keystroke_kept_through_capslock :
    KeepsKeystrokes (transitions listening [.key 0x1E,.key CAPSLOCK_SCANCODE,.poll]) ∧
      PolledOnce (transitions listening [.key 0x1E,.key CAPSLOCK_SCANCODE,.poll]) := by
  refine (keystrokes_kept_iff listening_on (transitions_run listening [.key 0x1E,.key CAPSLOCK_SCANCODE,.poll])).mpr ?_
  rintro press poll between scancode ⟨⟨earlier,later,split⟩,_⟩ t member other handled
  have length := congrArg List.length split
  simp only [transitions,List.length_append,List.length_cons,List.length_nil] at length
  have one := List.length_pos_of_mem member
  obtain rfl := List.eq_nil_of_length_eq_zero (show earlier.length = 0 by omega)
  obtain rfl := List.eq_nil_of_length_eq_zero (show later.length = 0 by omega)
  obtain ⟨u,rfl⟩ := List.length_eq_one_iff.mp (show between.length = 1 by omega)
  cases List.mem_singleton.mp member
  cases split
  cases handled
  exact fun looked => looked.1 rfl

-- The release of the key has no character, and takes its place.
theorem release_eats_keystroke :
    ¬ ∀ history s last, InputOn s → Run KeyStep s history last → KeepsKeystrokes history ∧ PolledOnce history := by
  intro keeps
  have lost := (keeps _ _ _ listening_on (transitions_run listening tapped)).1 ⟨listening,.key 0x1E,listening.next (.key 0x1E)⟩
    ⟨(listening.next (.key 0x1E)).next (.key 0x9E),.poll,_⟩ [⟨listening.next (.key 0x1E),.key 0x9E,_⟩] 0x1E
    ⟨⟨[],[],rfl⟩,rfl,by decide +kernel,?_,rfl⟩
  · exact absurd lost (by decide +kernel)
  · rintro t member
    cases List.mem_singleton.mp member
    refine ⟨by simp,?_⟩
    rintro scancode ⟨⟩
    decide +kernel

end Sosis.Console
