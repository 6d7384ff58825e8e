import Sosis.Preemption

-- The kernel as the calls it makes from boot on: the init process is created and
-- switched to, and then come timer interrupts, creations and destructions.
namespace Sosis.Kernel
open TransitionRuns
open Fat32 (Word FAT32DriverRequest)

inductive KernelAction where
  | init
  | first
  | tick (frame : InterruptFrame)
  | create (request : FAT32DriverRequest)
  | destroy (pid : Word)

namespace KernelState

def operate (k : KernelState) : KernelAction → Option KernelState
  | .init => (k.process_create_user_process shellRequest).map Prod.snd
  | .first => k.scheduler_switch_to_next_process.map Prod.snd
  | .tick frame => (main_interrupt_handler k frame).map Prod.snd
  | .create request => (k.process_create_user_process request).map Prod.snd
  | .destroy pid => (k.process_destroy pid).map Prod.snd

-- The order of kernel_setup; afterwards any active process can be destroyed.
def Follows (k : KernelState) : KernelAction → Prop
  | .init => k.cur_idx = -1 ∧ k.active_process_count = 0
  | .first => k.cur_idx = -1 ∧ k.active_process_count ≠ 0
  | .tick frame => k.cur_idx ≠ -1 ∧ frame.int_number = PIC1_OFFSET + IRQ_TIMER
  | .create _ => k.cur_idx ≠ -1
  | .destroy pid => k.cur_idx ≠ -1 ∧ ∃ i, k.active i = true ∧ k.pid i = pid

def Spares (k : KernelState) : KernelAction → Prop
  | .destroy pid => ∀ i, k.active i = true → k.pid i = pid → k.cur_idx ≠ i.val
  | _ => True

def Next (allowed : KernelState → KernelAction → Prop) (k : KernelState) (a : KernelAction) (k' : KernelState) : Prop :=
  allowed k a ∧ k.operate a = some k'

-- Every active process has a directory in use, of its own, and the one that runs is
-- active and on its directory.
structure Lodged (k : KernelState) : Prop where
  table : Table k
  running : k.cur_idx = -1 ∨ ∃ cur : Slot, k.cur_idx = cur.val ∧ k.active cur = true ∧
    (k.process_list cur).context.page_directory_virtual_addr = some k.cr3
  housed : ∀ i, k.active i = true → ∃ d, (k.process_list i).context.page_directory_virtual_addr = some (.list d) ∧
    k.paging.page_directory_used d = true
  apart : ∀ i j, k.active i = true → k.active j = true → (k.process_list i).context.page_directory_virtual_addr =
    (k.process_list j).context.page_directory_virtual_addr → i = j

variable {k k' : KernelState}

theorem boot_lodged : Lodged boot :=
  ⟨boot_table,Or.inl rfl,fun _ active => (by cases active),fun _ _ active _ _ => (by cases active)⟩

section created
variable {request : FAT32DriverRequest} {i : Slot} {d : Fin PAGING_DIRECTORY_TABLE_MAX_COUNT} {opened : PagingState}

theorem Created.used (created : Created k k' request i d opened) :
    k'.paging.page_directory_used = Function.update k.paging.page_directory_used d true := by
  rw [(mapPages_frame created.mapped).1,created.opens.used]

theorem Lodged.created (lodged : Lodged k) (created : Created k k' request i d opened) : Lodged k' := by
  have free := created.inactive lodged.table.count
  have before {j : Slot} (active : k'.active j = true) (other : j ≠ i) : k.active j = true :=
    created.active_other other ▸ active
  -- the directory opened was unused, and an active process has one in use
  have unlike {j : Slot} (active : k'.active j = true) (other : j ≠ i) :
      (k'.process_list j).context.page_directory_virtual_addr ≠ some (.list d) := by
    obtain ⟨e,directory,used⟩ := lodged.housed j (before active other)
    rw [created.others j other,directory]
    rintro ⟨⟩
    rw [created.opens.unused] at used
    cases used
  refine ⟨lodged.table.created created,?_,fun j active => ?_,fun j j' active active' same => ?_⟩
  · rw [created.cur_idx,created.cr3]
    refine lodged.running.imp id ?_
    rintro ⟨cur,idx,active,directory⟩
    have other : cur ≠ i := by
      rintro rfl
      rw [free] at active
      cases active
    refine ⟨cur,idx,(created.active_other other).trans active,?_⟩
    rw [created.others cur other]
    exact directory
  · rw [created.used]
    by_cases same : j = i
    · subst same
      exact ⟨d,created.directory,Function.update_self _ _ _⟩
    · obtain ⟨e,directory,used⟩ := lodged.housed j (before active same)
      refine ⟨e,by rw [created.others j same]; exact directory,?_⟩
      by_cases here : e = d
      · rw [here,Function.update_self]
      · rw [Function.update_of_ne here]
        exact used
  · by_cases here : j = i <;> by_cases there : j' = i
    · exact here.trans there.symm
    · subst here
      exact absurd (same.symm.trans created.directory) (unlike active' there)
    · subst there
      exact absurd (same.trans created.directory) (unlike active here)
    · rw [created.others j here,created.others j' there] at same
      exact lodged.apart j j' (before active here) (before active' there) same

end created

theorem Lodged.destroyed (lodged : Lodged k) {pid : Word} {i : Slot} (destroyed : Destroyed k k' pid i)
    (active : k.active i = true) (waiting : k.cur_idx ≠ i.val) : Lodged k' := by
  obtain ⟨d,own,_⟩ := lodged.housed i active
  have contexts := destroyed.context_kept
  have before {j : Slot} (now : k'.active j = true) : j ≠ i ∧ k.active j = true := by
    rw [← mem_actives,destroyed.actives] at now
    exact ⟨Finset.ne_of_mem_erase now,mem_actives.mp (Finset.mem_of_mem_erase now)⟩
  refine ⟨lodged.table.destroyed destroyed active,?_,fun j now => ?_,fun j j' now now' same => ?_⟩
  · rw [destroyed.cur_idx,destroyed.cr3]
    refine lodged.running.imp id ?_
    rintro ⟨cur,idx,running,directory⟩
    have other : cur ≠ i := by
      rintro rfl
      exact waiting idx
    refine ⟨cur,idx,?_,by rw [contexts]; exact directory⟩
    rw [← mem_actives,destroyed.actives]
    exact Finset.mem_erase.mpr ⟨other,mem_actives.mpr running⟩
  · obtain ⟨other,still⟩ := before now
    obtain ⟨e,directory,used⟩ := lodged.housed j still
    have different : e ≠ d := by
      rintro rfl
      exact other (lodged.apart j i still active (directory.trans own.symm))
    exact ⟨e,by rw [contexts]; exact directory,(Machine.destroyed_elsewhere destroyed own different).1.trans used⟩
  · rw [contexts,contexts] at same
    exact lodged.apart j j' (before now).2 (before now').2 same

theorem Lodged.switched (lodged : Lodged k) {i : Slot} {ctx : Context} (switched : Switched k k' i ctx) : Lodged k' := by
  have alike := switched.alike
  refine ⟨lodged.table.alike alike,Or.inr ⟨i,switched.cur_idx,(alike.actives i).trans switched.active,?_⟩,fun j active => ?_,
    fun j j' active active' => ?_⟩
  · rw [alike.contexts,← switched.context,switched.directory]
  · rw [alike.contexts,alike.paging]
    exact lodged.housed j (alike.actives j ▸ active)
  · rw [alike.contexts,alike.contexts]
    exact lodged.apart j j' (alike.actives j ▸ active) (alike.actives j' ▸ active')

theorem Lodged.saved (lodged : Lodged k) {i : Slot} {ctx : Context} (saved : Saved k k' i ctx) : Lodged k' := by
  have actives (j : Slot) : k'.active j = k.active j := congrArg Metadata.active (saved.metadata j)
  refine ⟨lodged.table.saved saved,?_,fun j active => ?_,fun j j' active active' => ?_⟩
  · rw [saved.cur_idx,saved.cr3]
    refine lodged.running.imp id ?_
    rintro ⟨cur,idx,running,directory⟩
    exact ⟨cur,idx,(actives cur).trans running,(saved.directory cur).trans directory⟩
  · rw [saved.directory,saved.paging]
    exact lodged.housed j (actives j ▸ active)
  · rw [saved.directory,saved.directory]
    exact lodged.apart j j' (actives j ▸ active) (actives j' ▸ active')

theorem creation_cases {request : FAT32DriverRequest}
    (ran : (k.process_create_user_process request).map Prod.snd = some k') :
    k' = k ∨ ∃ i d opened, Created k k' request i d opened := by
  obtain ⟨⟨code,k''⟩,answered,same⟩ := Option.map_eq_some_iff.mp ran
  cases same
  rcases create_cases answered with ⟨_,same⟩ | ⟨_,i,d,opened,created⟩
  · exact Or.inl same
  · exact Or.inr ⟨i,d,opened,created⟩

theorem Lodged.creation (lodged : Lodged k) {request : FAT32DriverRequest}
    (ran : (k.process_create_user_process request).map Prod.snd = some k') : Lodged k' := by
  rcases creation_cases ran with rfl | ⟨i,d,opened,created⟩
  · exact lodged
  · exact lodged.created created

-- The first slot with the pid of an active process is that process.
theorem Lodged.victim (lodged : Lodged k) {pid : Word} {i : Slot} (named : k.pid i = pid)
    (ran : (k.process_destroy pid).map Prod.snd = some k') : Destroyed k k' pid i := by
  obtain ⟨⟨r,k''⟩,answered,same⟩ := Option.map_eq_some_iff.mp ran
  cases same
  rcases destroy_cases answered with ⟨_,_,none⟩ | ⟨_,j,destroyed⟩
  · exact absurd named (none i)
  · exact lodged.table.destroyed_unique destroyed named ▸ destroyed

theorem Lodged.kept (lodged : Lodged k) {a : KernelAction} (follows : k.Follows a) (spares : k.Spares a)
    (ran : k.operate a = some k') : Lodged k' := by
  cases a with
  | init => exact lodged.creation ran
  | first =>
    obtain ⟨⟨ctx,k''⟩,switches,same⟩ := Option.map_eq_some_iff.mp ran
    cases same
    obtain ⟨i,switched⟩ := switch_cases switches
    exact lodged.switched switched
  | tick frame =>
    obtain ⟨⟨next,k''⟩,handled,same⟩ := Option.map_eq_some_iff.mp ran
    cases same
    rcases Machine.main_interrupt_cases handled with ⟨_,_,same⟩ | ⟨_,cur,i,middle,ctx,_,saved,switched⟩
    · cases same
      exact lodged
    · exact (lodged.saved saved).switched switched
  | create request => exact lodged.creation ran
  | destroy pid =>
    obtain ⟨_,i,active,named⟩ := follows
    exact lodged.destroyed (lodged.victim named ran) active (spares i active named)

instance (k : KernelState) : DecidablePred k.Follows
  | .init => inferInstanceAs (Decidable (_ ∧ _))
  | .first => inferInstanceAs (Decidable (_ ∧ _))
  | .tick _ => inferInstanceAs (Decidable (_ ∧ _))
  | .create _ => inferInstanceAs (Decidable (_ ≠ _))
  | .destroy _ => inferInstanceAs (Decidable (_ ∧ _))

instance (k : KernelState) : DecidablePred k.Spares
  | .init => .isTrue trivial
  | .first => .isTrue trivial
  | .tick _ => .isTrue trivial
  | .create _ => .isTrue trivial
  | .destroy pid => inferInstanceAs (Decidable (∀ i, k.active i = true → k.pid i = pid → k.cur_idx ≠ i.val))

-- A concrete sequence of calls, as far as each of them is allowed.
def operates (allowed : KernelState → KernelAction → Prop) [∀ k a, Decidable (allowed k a)] (k : KernelState) :
    List KernelAction → Option KernelState
  | [] => some k
  | a :: rest => if allowed k a then (k.operate a).bind fun k => operates allowed k rest else none

theorem operates_run {allowed : KernelState → KernelAction → Prop} [∀ k a, Decidable (allowed k a)]
    {actions : List KernelAction} (operated : k.operates allowed actions = some k') :
    ∃ history, Run (Next allowed) k history k' ∧ history.map Transition.action = actions := by
  induction actions generalizing k with
  | nil =>
    cases operated
    exact ⟨[],.nil,rfl⟩
  | cons a rest ih =>
    obtain ⟨follows,later⟩ := Option.ite_none_right_eq_some.mp operated
    obtain ⟨middle,ran,later⟩ := Option.bind_eq_some_iff.mp later
    obtain ⟨history,run,actions⟩ := ih later
    have step : Next allowed k a middle := ⟨follows,ran⟩
    exact ⟨_,.cons step run,by simp [actions]⟩

end KernelState

end Sosis.Kernel
