import Sosis.ProcessSteps

-- Histories of creations, destructions and switches after kernel_setup, and when the
-- process table stays consistent in them.
namespace Sosis.Kernel
open TransitionRuns
open Fat32 (Word FAT32DriverRequest)

inductive ProcessAction where
  | create (request : FAT32DriverRequest)
  | destroy (pid : Word)
  | save (ctx : Context)
  | switch

namespace KernelState

def perform (k : KernelState) : ProcessAction → Option KernelState
  | .create request => (k.process_create_user_process request).map Prod.snd
  | .destroy pid => (k.process_destroy pid).map Prod.snd
  | .save ctx => k.scheduler_save_context_to_current_running_pcb ctx
  | .switch => k.scheduler_switch_to_next_process.map Prod.snd

def Step (k : KernelState) (a : ProcessAction) (k' : KernelState) : Prop := k.perform a = some k'

def actives (k : KernelState) : Finset Slot := Finset.univ.filter fun i => k.active i = true

structure Consistent (k : KernelState) : Prop where
  count : k.active_process_count = k.actives.card
  nonzero : ∀ i, k.active i = true → k.pid i ≠ 0
  distinct : ∀ i j, k.active i = true → k.active j = true → k.pid i = k.pid j → i = j

-- The table is consistent afterwards; a creation that succeeds fills a slot that was
-- not active and touches no other; a destruction answers true only for the pid of an
-- active process, and otherwise changes nothing.
def Kept (k : KernelState) (a : ProcessAction) (k' : KernelState) : Prop :=
  Consistent k' ∧ match a with
    | .create request => k.process_create_user_process request = some (PROCESS_CREATE_SUCCESS,k') →
        ∃ i, k.active i = false ∧ k'.active i = true ∧ ∀ j, j ≠ i → k'.process_list j = k.process_list j
    | .destroy pid => k.process_destroy pid = some (true,k') ∧ (∃ i, k.active i = true ∧ k.pid i = pid) ∨
        k.process_destroy pid = some (false,k') ∧ k' = k
    | .save _ | .switch => True

-- No dead slot still carries the pid that is to be destroyed.
def NotDead (k : KernelState) : ProcessAction → Prop
  | .destroy pid => ∀ i, k.active i = false → k.pid i ≠ pid
  | _ => True

-- Dead slots keep their pid, and the directories ever opened number the pids.
structure Table (k : KernelState) : Prop where
  count : k.active_process_count = k.actives.card
  nonzero : ∀ i, k.active i = true → k.pid i ≠ 0
  distinct : ∀ i j, k.pid i = k.pid j → k.pid i ≠ 0 → i = j
  issued : ∀ i, ((k.pid i).toNat : Int) ≤ k.total_pid
  blank : ∀ i, k.pid i = 0 → (k.process_list i).context.page_directory_virtual_addr = none
  budget : k.total_pid + k.paging.page_dir_free = PAGING_DIRECTORY_TABLE_MAX_COUNT
  left : 0 ≤ k.paging.page_dir_free

variable {k k' : KernelState}

theorem mem_actives {i : Slot} : i ∈ k.actives ↔ k.active i = true := by simp [actives]

theorem Table.consistent (table : Table k) : Consistent k :=
  ⟨table.count,table.nonzero,fun i j active _ same => table.distinct i j same (table.nonzero i active)⟩

theorem boot_table : Table boot := by
  refine ⟨by decide,fun i active => ?_,fun i j _ nonzero => ?_,fun i => ?_,fun i _ => rfl,by decide,by decide⟩
  · cases active
  · exact absurd rfl nonzero
  · exact Int.le_refl 0

theorem Table.alike (table : Table k) (alike : Alike k k') : Table k' := by
  have same : k'.actives = k.actives := by
    ext i
    rw [mem_actives,mem_actives,alike.actives]
  refine ⟨?_,fun i => ?_,fun i j => ?_,fun i => ?_,fun i => ?_,?_,?_⟩
  · rw [alike.count,same]; exact table.count
  · rw [alike.actives,alike.pids]; exact table.nonzero i
  · rw [alike.pids,alike.pids]; exact table.distinct i j
  · rw [alike.pids,alike.total_pid]; exact table.issued i
  · rw [alike.pids,alike.contexts]; exact table.blank i
  · rw [alike.total_pid,alike.paging]; exact table.budget
  · rw [alike.paging]; exact table.left

section created
variable {request : FAT32DriverRequest} {i : Slot} {d : Fin PAGING_DIRECTORY_TABLE_MAX_COUNT} {opened : PagingState}

theorem Created.active (created : Created k k' request i d opened) : k'.active i = true := by
  unfold KernelState.active
  rw [created.metadata]

theorem Created.active_other (created : Created k k' request i d opened) {j : Slot} (other : j ≠ i) :
    k'.active j = k.active j := by
  unfold KernelState.active
  rw [created.others j other]

theorem Created.pid_other (created : Created k k' request i d opened) {j : Slot} (other : j ≠ i) :
    k'.pid j = k.pid j := by
  unfold KernelState.pid
  rw [created.others j other]

-- The count is trusted when it is 0, so the slot is free only in a consistent table.
theorem Created.inactive (created : Created k k' request i d opened) (count : k.active_process_count = k.actives.card) :
    k.active i = false := by
  have slot := created.slot
  unfold process_list_get_inactive_index at slot
  split at slot
  · rename_i none
    rw [none] at count
    have empty : k.actives = ∅ := Finset.card_eq_zero.mp (by exact_mod_cast count.symm)
    rw [← Bool.not_eq_true,← mem_actives,empty]
    exact Finset.notMem_empty i
  · obtain ⟨_,found⟩ := Option.dite_none_right_eq_some.mp slot
    exact inactiveFrom_inactive found

theorem Created.actives (created : Created k k' request i d opened) : k'.actives = insert i k.actives := by
  ext j
  rw [Finset.mem_insert,mem_actives,mem_actives]
  by_cases same : j = i
  · subst same
    simp [created.active]
  · simp [created.active_other same,same]

theorem Created.dir_free (created : Created k k' request i d opened) :
    k'.paging.page_dir_free = k.paging.page_dir_free - 1 :=
  (mapPages_frame created.mapped).2.1.trans created.opens.free

-- At most 32 pids are ever issued: the next creation finds no directory left.
theorem Created.pid (created : Created k k' request i d opened) (table : Table k) :
    ((k'.pid i).toNat : Int) = k.total_pid + 1 := by
  have nonnegative : 0 ≤ k.total_pid := le_trans (Int.natCast_nonneg _) (table.issued i)
  have budget := table.budget
  have left := table.left
  simp only [PAGING_DIRECTORY_TABLE_MAX_COUNT] at budget
  unfold KernelState.pid
  rw [created.metadata,BitVec.toNat_ofInt]
  omega

theorem Table.created (table : Table k) (created : Created k k' request i d opened) : Table k' := by
  have free := created.inactive table.count
  have pid := created.pid table
  have nonnegative : 0 ≤ k.total_pid := le_trans (Int.natCast_nonneg _) (table.issued i)
  have fresh : ∀ j, j ≠ i → k'.pid j ≠ k'.pid i := by
    intro j other same
    have issued := table.issued j
    rw [← created.pid_other other,same] at issued
    omega
  have positive : k'.pid i ≠ 0 := by
    intro zero
    rw [zero,show (0 : Word).toNat = 0 from rfl] at pid
    omega
  refine ⟨?_,fun j active => ?_,fun j j' same nonzero => ?_,fun j => ?_,fun j zero => ?_,?_,?_⟩
  · rw [created.count,created.actives,Finset.card_insert_of_notMem (by simp [mem_actives,free]),table.count]
    exact (Nat.cast_succ _).symm
  · by_cases here : j = i
    · exact here ▸ positive
    · rw [created.pid_other here]
      exact table.nonzero j (created.active_other here ▸ active)
  · by_cases here : j = i <;> by_cases there : j' = i
    · exact here.trans there.symm
    · exact absurd (here ▸ same.symm) (fresh j' there)
    · exact absurd (there ▸ same) (fresh j here)
    · rw [created.pid_other here] at same nonzero
      rw [created.pid_other there] at same
      exact table.distinct j j' same nonzero
  · rw [created.total_pid]
    by_cases here : j = i
    · rw [here,pid]
    · rw [created.pid_other here]
      exact (table.issued j).trans (by omega)
  · by_cases here : j = i
    · exact absurd (here ▸ zero) positive
    · rw [created.others j here]
      exact table.blank j (created.pid_other here ▸ zero)
  · rw [created.total_pid,created.dir_free]
    have budget := table.budget
    omega
  · rw [created.dir_free]
    have some_ := created.opens.budget
    have left := table.left
    omega

end created

section destroyed
variable {pid : Word} {i : Slot}

theorem Destroyed.pid_kept (destroyed : Destroyed k k' pid i) (j : Slot) : k'.pid j = k.pid j := by
  unfold KernelState.pid
  by_cases same : j = i
  · rw [same,destroyed.metadata]
  · rw [destroyed.others j same]

theorem Destroyed.actives (destroyed : Destroyed k k' pid i) : k'.actives = k.actives.erase i := by
  ext j
  rw [Finset.mem_erase,mem_actives,mem_actives]
  unfold KernelState.active
  by_cases same : j = i
  · rw [same,destroyed.metadata]
    simp
  · rw [destroyed.others j same]
    simp [same]

theorem Destroyed.context_kept (destroyed : Destroyed k k' pid i) (j : Slot) :
    (k'.process_list j).context = (k.process_list j).context := by
  by_cases same : j = i
  · rw [same,destroyed.context]
  · rw [destroyed.others j same]

theorem Destroyed.dir_free (destroyed : Destroyed k k' pid i) : k'.paging.page_dir_free = k.paging.page_dir_free := by
  obtain ⟨page_dir,released,r,_,frees,freed⟩ := destroyed.paging
  rcases paging_free_page_directory_cases freed with ⟨_,same⟩ | ⟨d,_,cleared,_⟩
  · rw [same,frees.free]
  · rw [cleared.free,frees.free]

theorem Table.destroyed (table : Table k) (destroyed : Destroyed k k' pid i) (active : k.active i = true) : Table k' := by
  have member : i ∈ k.actives := mem_actives.mpr active
  have subset : ∀ j, k'.active j = true → k.active j = true := by
    intro j now
    rw [← mem_actives,destroyed.actives] at now
    exact mem_actives.mp (Finset.mem_of_mem_erase now)
  refine ⟨?_,fun j now => ?_,fun j j' => ?_,fun j => ?_,fun j => ?_,?_,?_⟩
  · rw [destroyed.count,destroyed.actives,table.count,← Finset.card_erase_add_one member]
    omega
  · rw [destroyed.pid_kept]; exact table.nonzero j (subset j now)
  · rw [destroyed.pid_kept,destroyed.pid_kept]; exact table.distinct j j'
  · rw [destroyed.pid_kept,destroyed.total_pid]; exact table.issued j
  · rw [destroyed.pid_kept,destroyed.context_kept]; exact table.blank j
  · rw [destroyed.total_pid,destroyed.dir_free]; exact table.budget
  · rw [destroyed.dir_free]; exact table.left

-- A slot that is destroyed once owned a directory, so its pid is the only one of its kind.
theorem Table.destroyed_unique (table : Table k) (destroyed : Destroyed k k' pid i) {j : Slot} (same : k.pid j = pid) :
    j = i := by
  obtain ⟨page_dir,_,_,directory,_⟩ := destroyed.paging
  refine table.distinct j i (same.trans destroyed.named.symm) fun zero => ?_
  rw [table.blank i (destroyed.named.trans (same.symm.trans zero))] at directory
  cases directory

end destroyed

theorem Saved.directory {i : Slot} {ctx : Context} (saved : Saved k k' i ctx) (j : Slot) :
    (k'.process_list j).context.page_directory_virtual_addr = (k.process_list j).context.page_directory_virtual_addr := by
  by_cases same : j = i
  · rw [same,saved.context]
  · rw [saved.others j same]

theorem Table.saved (table : Table k) {i : Slot} {ctx : Context} (saved : Saved k k' i ctx) : Table k' := by
  have pids : ∀ j, k'.pid j = k.pid j := fun j => congrArg Metadata.pid (saved.metadata j)
  have active : ∀ j, k'.active j = k.active j := fun j => congrArg Metadata.active (saved.metadata j)
  have same : k'.actives = k.actives := by
    ext j
    rw [mem_actives,mem_actives,active]
  refine ⟨?_,fun j => ?_,fun j j' => ?_,fun j => ?_,fun j => ?_,?_,?_⟩
  · rw [saved.count,same]; exact table.count
  · rw [active,pids]; exact table.nonzero j
  · rw [pids,pids]; exact table.distinct j j'
  · rw [pids,saved.total_pid]; exact table.issued j
  · rw [pids,saved.directory]; exact table.blank j
  · rw [saved.total_pid,saved.paging]; exact table.budget
  · rw [saved.paging]; exact table.left

theorem step_cases {a : ProcessAction} (step : k.Step a k') :
    (∃ request, a = .create request ∧ ((∃ code, k.process_create_user_process request = some (code,k') ∧
        code ≠ PROCESS_CREATE_SUCCESS ∧ k' = k) ∨
      k.process_create_user_process request = some (PROCESS_CREATE_SUCCESS,k') ∧
        ∃ i d opened, Created k k' request i d opened)) ∨
    (∃ pid, a = .destroy pid ∧ (k.process_destroy pid = some (false,k') ∧ k' = k ∧ (∀ i, k.pid i ≠ pid) ∨
      k.process_destroy pid = some (true,k') ∧ ∃ i, Destroyed k k' pid i)) ∨
    (∃ ctx, a = .save ctx ∧ ∃ i, Saved k k' i ctx) ∨
    (a = .switch ∧ ∃ i ctx, Switched k k' i ctx) := by
  cases a with
  | create request =>
    obtain ⟨⟨code,k''⟩,ran,rfl⟩ := Option.map_eq_some_iff.mp step
    refine Or.inl ⟨request,rfl,?_⟩
    rcases create_cases ran with ⟨failed,same⟩ | ⟨rfl,created⟩
    · exact Or.inl ⟨code,ran,failed,same⟩
    · exact Or.inr ⟨ran,created⟩
  | destroy pid =>
    obtain ⟨⟨r,k''⟩,ran,rfl⟩ := Option.map_eq_some_iff.mp step
    refine Or.inr (Or.inl ⟨pid,rfl,?_⟩)
    rcases destroy_cases ran with ⟨rfl,same,none⟩ | ⟨rfl,destroyed⟩
    · exact Or.inl ⟨ran,same,none⟩
    · exact Or.inr ⟨ran,destroyed⟩
  | save ctx => exact Or.inr (Or.inr (Or.inl ⟨ctx,rfl,save_cases step⟩))
  | switch =>
    obtain ⟨⟨ctx,k''⟩,ran,rfl⟩ := Option.map_eq_some_iff.mp step
    obtain ⟨i,switched⟩ := switch_cases ran
    exact Or.inr (Or.inr (Or.inr ⟨rfl,i,ctx,switched⟩))

theorem Table.kept (table : Table k) {a : ProcessAction} (alive : k.NotDead a) (step : k.Step a k') : Table k' := by
  rcases step_cases step with ⟨request,rfl,⟨_,_,_,rfl⟩ | ⟨_,i,d,opened,created⟩⟩ |
      ⟨pid,rfl,⟨_,rfl,_⟩ | ⟨_,i,destroyed⟩⟩ | ⟨ctx,rfl,i,saved⟩ | ⟨rfl,i,ctx,switched⟩
  · exact table
  · exact table.created created
  · exact table
  · refine table.destroyed destroyed ?_
    by_contra dead
    exact alive i (by simpa using dead) destroyed.named
  · exact table.saved saved
  · exact table.alike switched.alike

theorem kept_exact (table : Table k) {a : ProcessAction} (step : k.Step a k') : Kept k a k' ↔ k.NotDead a := by
  constructor
  · rintro ⟨_,kept⟩
    rcases step_cases step with ⟨request,rfl,_⟩ | ⟨pid,rfl,either⟩ | ⟨ctx,rfl,_⟩ | ⟨rfl,_⟩
    · trivial
    · intro j dead same
      rcases either with ⟨_,_,unknown⟩ | ⟨ran,i,destroyed⟩
      · exact unknown j same
      · have unique {j : Slot} : k.pid j = pid → j = i := table.destroyed_unique destroyed
        rcases kept with ⟨_,holder,active,named⟩ | ⟨answer,_⟩
        · rw [unique named,← unique same,dead] at active
          cases active
        · rw [ran] at answer
          cases answer
    · trivial
    · trivial
  · intro alive
    refine ⟨(table.kept alive step).consistent,?_⟩
    rcases step_cases step with ⟨request,rfl,⟨code,ran,failed,_⟩ | ⟨_,i,d,opened,created⟩⟩ |
      ⟨pid,rfl,⟨ran,same,_⟩ | ⟨ran,i,destroyed⟩⟩ | ⟨ctx,rfl,_⟩ | ⟨rfl,_⟩
    · intro success
      rw [ran] at success
      cases success
      exact absurd rfl failed
    · exact fun _ => ⟨i,created.inactive table.count,created.active,created.others⟩
    · exact Or.inr ⟨ran,same⟩
    · refine Or.inl ⟨ran,i,?_,destroyed.named⟩
      by_contra dead
      exact alive i (by simpa using dead) destroyed.named
    · trivial
    · trivial

theorem setup_table (booted : kernel_setup = some k) : Table k := by
  simp only [kernel_setup,Option.bind_eq_bind,Option.bind_eq_some_iff] at booted
  obtain ⟨⟨code,created⟩,creates,⟨ctx,switched⟩,switches,same⟩ := booted
  cases same
  obtain ⟨i,switched⟩ := switch_cases switches
  refine Table.alike ?_ switched.alike
  rcases create_cases creates with ⟨_,rfl⟩ | ⟨_,j,d,opened,first⟩
  · exact boot_table
  · exact boot_table.created first

theorem kept_always_iff {k₀ k : KernelState} (booted : kernel_setup = some k₀)
    {history : List (Transition KernelState ProcessAction)} (run : Run Step k₀ history k) :
    (∀ t ∈ history, Kept t.before t.action t.after) ↔ ∀ t ∈ history, t.before.NotDead t.action := by
  have keeps : ∀ (k : KernelState) (a : ProcessAction) (k' : KernelState), Table k → k.NotDead a → k.Step a k' → Table k' :=
    fun _ _ _ table alive step => table.kept alive step
  exact Run.each_iff (setup_table booted) keeps (fun _ _ _ table step => kept_exact table step) run

def replay (k : KernelState) : List ProcessAction → Option KernelState
  | [] => some k
  | a :: rest => (k.perform a).bind fun k => replay k rest

theorem replay_run {actions : List ProcessAction} (replayed : k.replay actions = some k') :
    ∃ history, Run Step k history k' ∧ history.map Transition.action = actions := by
  induction actions generalizing k with
  | nil =>
    cases replayed
    exact ⟨[],.nil,rfl⟩
  | cons a rest ih =>
    obtain ⟨middle,step,later⟩ := Option.bind_eq_some_iff.mp replayed
    obtain ⟨history,run,actions⟩ := ih later
    exact ⟨_,.cons step run,by simp [actions]⟩

theorem setup_run {actions : List ProcessAction} (defined : (kernel_setup.bind (·.replay actions)).isSome = true) :
    ∃ k₀ k history, kernel_setup = some k₀ ∧ Run Step k₀ history k ∧ history.map Transition.action = actions := by
  obtain ⟨k,replayed⟩ := Option.isSome_iff_exists.mp defined
  obtain ⟨k₀,booted,replayed⟩ := Option.bind_eq_some_iff.mp replayed
  obtain ⟨history,run,actions⟩ := replay_run replayed
  exact ⟨k₀,k,history,booted,run,actions⟩

def helperRequest : FAT32DriverRequest := {shellRequest with buffer_size := 0x1000}

theorem kept_always_iff_helper : ∃ k₀ k history, kernel_setup = some k₀ ∧ Run Step k₀ history k ∧
    history.map Transition.action = [.create helperRequest,.switch,.destroy 1] ∧
    ((∀ t ∈ history, Kept t.before t.action t.after) ↔ ∀ t ∈ history, t.before.NotDead t.action) := by
  have defined : (kernel_setup.bind (·.replay [.create helperRequest,.switch,.destroy 1])).isSome = true := by
    decide +kernel
  obtain ⟨k₀,k,history,booted,run,actions⟩ := setup_run defined
  exact ⟨k₀,k,history,booted,run,actions,kept_always_iff booted run⟩

-- Pid 2 is destroyed twice: the second time the count drops although nothing was
-- alive under that pid, and one of the two processes left is not counted.
def destroyedTwice : List ProcessAction := [.create helperRequest,.create helperRequest,.destroy 2,.destroy 2]

theorem destroyedTwice_miscounts : ∃ k₀ k history, kernel_setup = some k₀ ∧ Run Step k₀ history k ∧
    history.map Transition.action = destroyedTwice ∧ k.active_process_count = 1 ∧ k.actives.card = 2 ∧
    ¬ ∀ t ∈ history, Kept t.before t.action t.after := by
  have wrong : (kernel_setup.bind (·.replay destroyedTwice)).any
      (fun k => k.active_process_count = 1 ∧ k.actives.card = 2) = true := by decide +kernel
  cases replayed : kernel_setup.bind (·.replay destroyedTwice) with
  | none =>
    rw [replayed] at wrong
    cases wrong
  | some k =>
    rw [replayed,Option.any_some,decide_eq_true_eq] at wrong
    obtain ⟨k₀,booted,replayed⟩ := Option.bind_eq_some_iff.mp replayed
    obtain ⟨history,run,actions⟩ := replay_run replayed
    refine ⟨k₀,k,history,booted,run,actions,wrong.1,wrong.2,fun always => ?_⟩
    have consistent : Consistent k :=
      run.last_of_always (setup_table booted).consistent fun t member => (always t member).1
    have count := consistent.count
    rw [wrong.1,wrong.2] at count
    cases count

end KernelState

end Sosis.Kernel
