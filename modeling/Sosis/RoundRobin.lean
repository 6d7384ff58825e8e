import Sosis.CyclicOrder
import Sosis.KernelRuns

-- The order in which the scheduler goes round the active processes while none is
-- created or destroyed.
namespace Sosis.Kernel
open CyclicOrder

namespace KernelState
variable {k k' : KernelState} {cur i : Slot}

-- What comes in front of a call: the timer saves a context, others save none.
def saveFirst (k : KernelState) : Option Context → Option KernelState
  | some ctx => k.scheduler_save_context_to_current_running_pcb ctx
  | none => some k

def call (k : KernelState) (saved : Option Context) : Option KernelState :=
  (k.saveFirst saved).bind fun k => k.scheduler_switch_to_next_process.map Prod.snd

-- The states after each of the calls.
def calls : List (Option Context) → KernelState → Option (List KernelState)
  | [],_ => some []
  | saved :: rest,k => do
    let k ← k.call saved
    let states ← calls rest k
    return k :: states

theorem tick_call {frame : InterruptFrame} (timer : frame.int_number = PIC1_OFFSET + IRQ_TIMER)
    (several : k.active_process_count > 1) : (main_interrupt_handler k frame).map Prod.snd =
      k.call (some ⟨frame.cpu,frame.int_stack.eip,frame.int_stack.eflags,none⟩) := by
  unfold main_interrupt_handler call
  rw [if_pos timer,if_pos several]
  rw [Option.map_bind]
  congr 1
  funext k
  exact Option.map_map _ _ _

def Running (k : KernelState) (i : Slot) : Prop := (k.process_list i).metadata.cur_state = .RUNNING

-- At most the current slot is marked as running.
def MarksCurrent (k : KernelState) : Prop := ∀ i, k.active i = true → k.Running i → k.cur_idx = i.val

def Directories (k : KernelState) : Prop :=
  ∀ i, k.active i = true → (k.process_list i).context.page_directory_virtual_addr ≠ none

theorem Lodged.directories (lodged : Lodged k) : k.Directories := by
  intro i active
  obtain ⟨d,directory,_⟩ := lodged.housed i active
  rw [directory]
  exact Option.some_ne_none _

theorem activeFrom_eq (k : KernelState) (turns : Nat) (idx : Slot) :
    k.activeFrom turns idx = (upFrom turns idx).find? k.active := by
  induction turns generalizing idx with
  | zero => rfl
  | succ turns ih =>
    rw [activeFrom,upFrom,List.find?_cons,ih]
    cases k.active idx <;> rfl

theorem first_slot (at_ : k.cur_idx = cur.val) : Fin.ofNat PROCESS_COUNT_MAX (k.cur_idx + 1).toNat = cur + 1 := by
  rw [at_]
  apply Fin.ext
  simp only [PROCESS_COUNT_MAX,Fin.ofNat,Fin.add_def,Fin.val_one]
  omega

-- What a switch does to the scheduling states.
structure Turned (k k' : KernelState) (i : Slot) : Prop where
  cur_idx : k'.cur_idx = i.val
  alike : Alike k k'
  chosen : k'.Running i
  others : ∀ j, j ≠ i → k'.Running j → k.Running j ∧ k.cur_idx ≠ j.val

theorem setState_running {j : Slot} {cur_state : PROCESS_STATE} :
    (k.setState i cur_state).Running j ↔ if j = i then cur_state = .RUNNING else k.Running j := by
  unfold Running setState
  by_cases same : j = i <;> simp [same]

theorem switch_turned {rest : List Slot} (at_ : k.cur_idx = cur.val) (first : order k.active cur = i :: rest)
    (directories : k.Directories) :
    ∃ ctx k', k.scheduler_switch_to_next_process = some (ctx,k') ∧ Turned k k' i := by
  have found : k.activeFrom PROCESS_COUNT_MAX (Fin.ofNat PROCESS_COUNT_MAX (k.cur_idx + 1).toNat) = some i := by
    rw [first_slot at_,activeFrom_eq,← List.head?_filter]
    exact congrArg List.head? first
  have queued : (k.preempt.process_list i).context.page_directory_virtual_addr =
      (k.process_list i).context.page_directory_virtual_addr := congrArg _ ((preempt_alike k).contexts i)
  obtain ⟨page_dir,directory⟩ := Option.ne_none_iff_exists'.mp (directories i (activeFrom_active found))
  have ran : k.scheduler_switch_to_next_process = some ((k.preempt.process_list i).context,
      setState {k.preempt with cr3 := page_dir,cur_idx := i.val} i .RUNNING) := by
    simp only [scheduler_switch_to_next_process,Option.bind_eq_bind,Option.bind_eq_some_iff]
    exact ⟨i,found,page_dir,queued.trans directory,rfl⟩
  obtain ⟨j,switched⟩ := switch_cases ran
  refine ⟨_,_,ran,rfl,switched.alike,?_,fun j other running => ?_⟩
  · exact setState_running.mpr (by simp)
  · have before := setState_running.mp running
    rw [if_neg other] at before
    change k.preempt.Running j at before
    unfold preempt at before
    rw [running_of_val at_] at before
    have older := setState_running.mp before
    split at older
    · cases older
    · rename_i away
      refine ⟨older,fun here => away (Fin.ext ?_)⟩
      exact_mod_cast here.symm.trans at_

theorem saveFirst_defined (saved : Option Context) (at_ : k.cur_idx = cur.val) : ∃ middle, k.saveFirst saved = some middle ∧
    middle.cur_idx = k.cur_idx ∧ (∀ j, middle.active j = k.active j) ∧ (∀ j, middle.Running j ↔ k.Running j) ∧
    ∀ j, (middle.process_list j).context.page_directory_virtual_addr =
      (k.process_list j).context.page_directory_virtual_addr := by
  cases saved with
  | none => exact ⟨k,rfl,rfl,fun _ => rfl,fun _ => Iff.rfl,fun _ => rfl⟩
  | some ctx =>
    obtain ⟨middle,ran⟩ : ∃ middle, k.scheduler_save_context_to_current_running_pcb ctx = some middle := by
      unfold scheduler_save_context_to_current_running_pcb
      rw [running_of_val at_]
      exact ⟨_,rfl⟩
    obtain ⟨j,done⟩ := save_cases ran
    refine ⟨middle,ran,done.cur_idx,fun j => congrArg Metadata.active (done.metadata j),fun j => ?_,fun l => ?_⟩
    · unfold Running
      rw [done.metadata j]
    · by_cases same : l = j
      · rw [same,done.context]
      · rw [done.others l same]

theorem call_turned {rest : List Slot} (saved : Option Context) (at_ : k.cur_idx = cur.val)
    (first : order k.active cur = i :: rest) (directories : k.Directories) :
    ∃ k', k.call saved = some k' ∧ k'.cur_idx = i.val ∧ k'.active = k.active ∧ k'.Directories ∧
      (k.MarksCurrent → ∀ j, k'.active j = true → (k'.Running j ↔ k'.cur_idx = j.val)) := by
  obtain ⟨middle,ready,idx,actives,runnings,same⟩ := saveFirst_defined saved at_
  have activesEq : middle.active = k.active := funext actives
  have directories' : middle.Directories := fun j active => by
    rw [same]
    exact directories j (actives j ▸ active)
  obtain ⟨ctx,k',ran,turned⟩ := switch_turned (idx.trans at_) (activesEq ▸ first) directories'
  have kept : ∀ j, k'.active j = k.active j := fun j => (turned.alike.actives j).trans (actives j)
  refine ⟨k',?_,turned.cur_idx,funext kept,fun j active => ?_,fun marks j active => ⟨fun running => ?_,fun here => ?_⟩⟩
  · unfold call
    rw [ready,Option.bind_some,ran]
    rfl
  · rw [turned.alike.contexts]
    exact directories' j (turned.alike.actives j ▸ active)
  · by_cases chosen : j = i
    · rw [chosen]
      exact turned.cur_idx
    · obtain ⟨before,away⟩ := turned.others j chosen running
      exact absurd (idx.trans (marks j (kept j ▸ active) ((runnings j).mp before))) away
  · have chosen : j = i := Fin.ext (by exact_mod_cast here.symm.trans turned.cur_idx)
    rw [chosen]
    exact turned.chosen

-- As long as no process comes or goes, the calls follow the ring.
theorem calls_turns (saves : List (Option Context)) (at_ : k.cur_idx = cur.val) (busy : ∃ j, k.active j = true)
    (directories : k.Directories) : ∃ states, calls saves k = some states ∧
      states.map cur_idx = (turns k.active saves.length cur).map (fun i => (i.val : Int)) ∧
      (∀ s ∈ states, s.active = k.active) ∧
      (k.MarksCurrent → ∀ s ∈ states, ∀ j, s.active j = true → (s.Running j ↔ s.cur_idx = j.val)) := by
  induction saves generalizing k cur with
  | nil => exact ⟨[],rfl,rfl,by simp,by simp⟩
  | cons saved rest ih =>
    obtain ⟨j,active⟩ := busy
    obtain ⟨i,others,first⟩ := List.exists_cons_of_ne_nil (List.ne_nil_of_mem ((@mem_order _ _ _ cur _).mpr active))
    obtain ⟨k',ran,idx,actives,directories',marked⟩ := call_turned saved at_ first directories
    obtain ⟨states,later,chosen,same,marks⟩ := ih idx ⟨j,by rw [actives]; exact active⟩ directories'
    refine ⟨k' :: states,?_,?_,fun s member => ?_,fun marksK s member => ?_⟩
    · unfold calls
      rw [ran,Option.bind_eq_bind,Option.bind_some,later]
      rfl
    · rw [List.map_cons,chosen,actives,idx,List.length_cons,turns]
      simp only [first,List.map_cons]
    · rcases List.mem_cons.mp member with rfl | old
      · exact actives
      · exact (same s old).trans actives
    · rcases List.mem_cons.mp member with rfl | old
      · exact marked marksK
      · exact marks (fun j active running => (marked marksK j active).mp running) s old

-- Any |A| calls in a row go to each active slot once, in the order of the ring that
-- starts behind the current slot, and the next |A| calls repeat them.
theorem round_robin (cur : Slot) (at_ : k.cur_idx = cur.val) (busy : ∃ j, k.active j = true)
    (directories : k.Directories) (saves : List (Option Context)) :
    ∃ states, calls saves k = some states ∧ states.length = saves.length ∧
      (order k.active cur).Nodup ∧ (∀ j, j ∈ order k.active cur ↔ k.active j = true) ∧
      (∀ s, s + k.actives.card ≤ saves.length → ((states.drop s).take k.actives.card).map cur_idx =
        ((order k.active cur).rotate s).map fun i => (i.val : Int)) ∧
      (∀ s, s + 2*k.actives.card ≤ saves.length → ((states.drop (s + k.actives.card)).take k.actives.card).map cur_idx =
        ((states.drop s).take k.actives.card).map cur_idx) ∧
      (∀ s ∈ states, s.active = k.active) ∧
      (k.MarksCurrent → ∀ s ∈ states, ∀ j, s.active j = true → (s.Running j ↔ s.cur_idx = j.val)) := by
  obtain ⟨j,active⟩ := busy
  obtain ⟨states,ran,chosen,same,marked⟩ := calls_turns saves at_ ⟨j,active⟩ directories
  have nonempty : order k.active cur ≠ [] := List.ne_nil_of_mem (mem_order.mpr active)
  have size : (order k.active cur).length = k.actives.card := length_order
  have window : ∀ s, s + k.actives.card ≤ saves.length → ((states.drop s).take k.actives.card).map cur_idx =
      ((order k.active cur).rotate s).map fun i => (i.val : Int) := by
    intro s inside
    rw [List.map_take,List.map_drop,chosen,← List.map_drop,← List.map_take,← size]
    rw [turns_window nonempty (size.symm ▸ inside)]
  have lengths := congrArg List.length chosen
  rw [List.length_map,List.length_map,length_turns nonempty] at lengths
  refine ⟨states,ran,lengths,nodup_order,fun j => mem_order,window,fun s inside => ?_,same,marked⟩
  rw [window (s + k.actives.card) (by omega),window s (by omega),← size,← List.rotate_rotate]
  congr 1
  rw [← List.length_rotate (order k.active cur) s,List.rotate_length]

-- A table of two processes, with the current slot between them dead.
def pairTable : KernelState := {boot with
  process_list := fun i => {ProcessControlBlock.zero with
    metadata := ⟨i.val,.READY,i = 3 || i = 9,fun _ => 0⟩
    context := {ProcessControlBlock.zero.context with page_directory_virtual_addr := some .kernel}}
  active_process_count := 2
  cur_idx := 5}

theorem round_robin_pair : ∃ states, calls [none,none,none,none] pairTable = some states ∧ states.map cur_idx = [9,3,9,3] ∧
    ∀ s ∈ states, ∀ j, s.active j = true → (s.Running j ↔ s.cur_idx = j.val) := by
  have directories : pairTable.Directories := fun _ _ => Option.some_ne_none _
  have marks : pairTable.MarksCurrent := fun _ _ running => absurd running (by rintro ⟨⟩)
  obtain ⟨states,ran,length,_,_,window,_,_,marked⟩ := round_robin 5 rfl ⟨3,by decide⟩ directories [none,none,none,none]
  refine ⟨states,ran,?_,marked marks⟩
  have two : pairTable.actives.card = 2 := by decide
  have ring : order pairTable.active 5 = [9,3] := by decide
  have first := window 0 (by rw [two]; decide)
  have second := window 2 (by rw [two]; decide)
  rw [two,ring] at first second
  rw [List.take_of_length_le (by rw [List.length_drop,length]; decide)] at second
  rw [← List.take_append_drop 2 states,List.map_append,second]
  exact congrArg (· ++ [9,3]) first

end KernelState

end Sosis.Kernel
