import Sosis.ProcessIndices
import Sosis.RoundRobin

-- How long a process waits for the processor while others come and go: the timer
-- interrupt never gets stuck, and at each one the process is nearer to its turn.
namespace Sosis.Kernel
open TransitionRuns CyclicOrder

def KernelAction.isTick : KernelAction → Bool
  | .tick _ => true
  | _ => false

namespace KernelState
variable {k k' : KernelState} {cur i : Slot}

theorem Lodged.several (lodged : Lodged k) {j : Slot} (one : k.active i = true) (two : k.active j = true) (apart : i ≠ j) :
    k.active_process_count > 1 := by
  have card : 1 < k.actives.card := Finset.one_lt_card.mpr ⟨i,mem_actives.mpr one,j,mem_actives.mpr two,apart⟩
  rw [lodged.table.count]
  exact_mod_cast card

-- With two processes or more the timer goes to the first active slot behind the current.
theorem tick_turned {frame : InterruptFrame} (lodged : Lodged k) (at_ : k.cur_idx = cur.val)
    (timer : frame.int_number = PIC1_OFFSET + IRQ_TIMER) (several : k.active_process_count > 1)
    {first : Slot} {rest : List Slot} (ring : order k.active cur = first :: rest) :
    ∃ k', k.operate (.tick frame) = some k' ∧ k'.cur_idx = first.val := by
  obtain ⟨k',ran,chosen,_⟩ := call_turned (some ⟨frame.cpu,frame.int_stack.eip,frame.int_stack.eflags,none⟩) at_ ring
    lodged.directories
  exact ⟨k',(tick_call timer several).trans ran,chosen⟩

-- The process in the slot has the processor, on its own page directory.
structure Runs (k : KernelState) (i : Slot) : Prop where
  cur_idx : k.cur_idx = i.val
  active : k.active i = true
  directory : (k.process_list i).context.page_directory_virtual_addr = some k.cr3

theorem Lodged.runs (lodged : Lodged k) (at_ : k.cur_idx = cur.val) : Runs k cur := by
  rcases lodged.running with none | ⟨cur',idx,active,directory⟩
  · exact absurd (at_.symm.trans none) (by omega)
  · obtain rfl : cur' = cur := Fin.ext (by exact_mod_cast idx.symm.trans at_)
    exact ⟨at_,active,directory⟩

-- Whatever has happened, the timer branch returns, and to a process that runs then.
theorem Lodged.ticks (lodged : Lodged k) (at_ : k.cur_idx = cur.val) {frame : InterruptFrame}
    (timer : frame.int_number = PIC1_OFFSET + IRQ_TIMER) : ∃ k' next, k.operate (.tick frame) = some k' ∧ Runs k' next := by
  by_cases several : k.active_process_count > 1
  · have member : cur ∈ order k.active cur := mem_order.mpr (lodged.runs at_).active
    obtain ⟨first,rest,ring⟩ := List.exists_cons_of_ne_nil (List.ne_nil_of_mem member)
    obtain ⟨k',ran,chosen⟩ := tick_turned lodged at_ timer several ring
    have follows : k.Follows (.tick frame) := ⟨by omega,timer⟩
    exact ⟨k',first,ran,(lodged.kept follows trivial ran).runs chosen⟩
  · exact ⟨k,cur,by simp [operate,main_interrupt_handler,timer,several],lodged.runs at_⟩

theorem operate_cur_idx {a : KernelAction} (ran : k.operate a = some k') (calm : a.isTick = false)
    (later : a ≠ .first) : k'.cur_idx = k.cur_idx := by
  cases a with
  | first => exact absurd rfl later
  | tick => cases calm
  | init =>
    rcases creation_cases ran with rfl | ⟨_,_,_,created⟩
    · rfl
    · exact created.cur_idx
  | create =>
    rcases creation_cases ran with rfl | ⟨_,_,_,created⟩
    · rfl
    · exact created.cur_idx
  | destroy pid =>
    obtain ⟨⟨r,k''⟩,answered,same⟩ := Option.map_eq_some_iff.mp ran
    cases same
    rcases destroy_cases answered with ⟨_,same,_⟩ | ⟨_,j,destroyed⟩
    · rw [same]
    · exact destroyed.cur_idx

-- Someone else has the processor.
def Waits (i : Slot) (k : KernelState) : Prop :=
  Lodged k ∧ k.active i = true ∧ ∃ cur : Slot, k.cur_idx = cur.val ∧ cur ≠ i

-- The slots the search would still pass on its way to `i`, that one included.
def ahead (i : Slot) (k : KernelState) : Nat := (i - Fin.ofNat PROCESS_COUNT_MAX k.cur_idx.toNat).val

theorem ahead_eq (at_ : k.cur_idx = cur.val) : ahead i k = (i - cur).val := by
  unfold ahead
  rw [at_,Int.toNat_natCast,Fin.ofNat_val_eq_self]

theorem Waits.step (waits : Waits i k) {a : KernelAction} (step : Next Obeys k a k') (alive : k'.active i = true) :
    k'.cur_idx = i.val ∨ Waits i k' ∧ ahead i k' + a.isTick.toNat ≤ ahead i k := by
  obtain ⟨lodged,active,cur,at_,other⟩ := waits
  obtain ⟨⟨follows,spares⟩,ran⟩ := step
  have lodged' := lodged.kept follows spares ran
  by_cases tick : a.isTick = true
  · cases a with
    | init | first | create | destroy => cases tick
    | tick frame =>
      have several := lodged.several (lodged.runs at_).active active other
      obtain ⟨first,rest,ring⟩ := List.exists_cons_of_ne_nil (List.ne_nil_of_mem ((@mem_order _ _ _ cur _).mpr active))
      obtain ⟨k'',ran',chosen⟩ := tick_turned lodged at_ follows.2 several ring
      cases ran.symm.trans ran'
      by_cases here : first = i
      · exact Or.inl (here ▸ chosen)
      · refine Or.inr ⟨⟨lodged',alive,first,chosen,here⟩,?_⟩
        have nearer := order_nearer ring active other.symm
        rw [ahead_eq at_,ahead_eq chosen,tick]
        exact nearer
  · have calm : a.isTick = false := by simpa using tick
    have later : a ≠ .first := by
      rintro rfl
      exact absurd (at_.symm.trans follows.1) (by omega)
    have kept := operate_cur_idx ran calm later
    refine Or.inr ⟨⟨lodged',alive,cur,kept.trans at_,other⟩,?_⟩
    rw [ahead_eq at_,ahead_eq (kept.trans at_),calm]
    exact Nat.le_refl _

-- From boot on, through any creations, destructions and timer interrupts: a process that
-- stays alive has the processor after as many timer interrupts as its slot is steps
-- behind the current one on the ring, at most 15. And the timer always returns to a process.
theorem waits_at_most {earlier history : List (Transition KernelState KernelAction)} (run : Run (Next Obeys) boot earlier k)
    (at_ : k.cur_idx = cur.val) (active : k.active i = true) (onward : Run (Next Obeys) k history k')
    (alive : ∀ t ∈ history, t.after.active i = true) (ticks : (i - cur).val ≤ history.countP fun t => t.action.isTick) :
    (∀ frame : InterruptFrame, frame.int_number = PIC1_OFFSET + IRQ_TIMER →
      ∃ k' next, k.operate (.tick frame) = some k' ∧ Runs k' next) ∧
      (cur = i ∨ ∃ t ∈ history, t.after.cur_idx = i.val) := by
  have kept : ∀ (k : KernelState) (a : KernelAction) (k' : KernelState), Lodged k → Next Obeys k a k' → Lodged k' :=
    fun _ _ _ lodged step => lodged.kept step.1.1 step.1.2 step.2
  have lodged := run.invariant boot_lodged kept
  refine ⟨fun frame => lodged.ticks at_,?_⟩
  by_cases here : cur = i
  · exact Or.inl here
  · have waits : Waits i k := ⟨lodged,active,cur,at_,here⟩
    have each : ∀ s a s', Waits i s → Next Obeys s a s' ∧ s'.active i = true →
        s'.cur_idx = i.val ∨ Waits i s' ∧ ahead i s' + a.isTick.toNat ≤ ahead i s :=
      fun _ _ _ waits both => waits.step both.1 both.2
    rcases Run.within waits each (onward.restrict alive) with reached | ⟨⟨_,_,last,idx,away⟩,bound⟩
    · exact Or.inr reached
    · have positive : 0 < ahead i k' := by
        rw [ahead_eq idx]
        refine Nat.pos_of_ne_zero fun zero => away (sub_eq_zero.mp (Fin.ext ?_)).symm
        rw [zero,Fin.val_zero]
      rw [ahead_eq at_] at bound
      omega

def timerFrame : InterruptFrame := ⟨⟨0,0,0,0,0,0,0,0,0,0,0,0⟩,PIC1_OFFSET + IRQ_TIMER,0,0,0,0⟩

-- The program the shell has started runs in slot 15, and slot 0 is next.
theorem waits_at_most_shell : ∃ (earlier : List (Transition KernelState KernelAction)) (k k' : KernelState), Run (Next Obeys) boot earlier k ∧
    earlier.map Transition.action = [.init,.first,.create helperRequest,.tick timerFrame] ∧
    k.cur_idx = ((15 : Slot).val : Int) ∧ Next Obeys k (KernelAction.tick timerFrame) k' ∧
    (∀ frame : InterruptFrame, frame.int_number = PIC1_OFFSET + IRQ_TIMER →
      ∃ k' next, k.operate (.tick frame) = some k' ∧ Runs k' next) ∧
    ((15 : Slot) = 0 ∨ ∃ t ∈ [(⟨k,.tick timerFrame,k'⟩ : Transition KernelState KernelAction)],
      t.after.cur_idx = ((0 : Slot).val : Int)) := by
  have checked : ((boot.operates Obeys [.init,.first,.create helperRequest,.tick timerFrame]).any fun k =>
      decide (k.cur_idx = ((15 : Slot).val : Int) ∧ k.active 0 = true ∧ k.Obeys (.tick timerFrame)) &&
      (k.operate (.tick timerFrame)).any fun k' => k'.active (0 : Slot)) = true := by decide +kernel
  obtain ⟨k,operated,found⟩ := (Option.any_eq_true _ _).mp checked
  obtain ⟨met,ticked⟩ := Bool.and_eq_true_iff.mp found
  obtain ⟨at_,active,obeys⟩ := of_decide_eq_true met
  obtain ⟨k',ran,stays⟩ := (Option.any_eq_true _ _).mp ticked
  obtain ⟨earlier,run,actions⟩ := operates_run operated
  have onward : Run (Next Obeys) k [⟨k,.tick timerFrame,k'⟩] k' := Run.single ⟨obeys,ran⟩
  exact ⟨earlier,k,k',run,actions,at_,⟨obeys,ran⟩,
    waits_at_most run at_ active onward (List.forall_mem_singleton.mpr stays) (show ((0 : Slot) - 15).val ≤ 1 by decide)⟩

end KernelState

end Sosis.Kernel
