import Sosis.ProcessMemory

-- Histories of the pool of page directories: page_dir_free counts down in
-- paging_create_new_page_directory, and nothing counts it up again.
namespace Sosis.Kernel
open FirstFit TransitionRuns
open Fat32 (Word FAT32DriverRequest)

inductive DirectoryAction where
  | create
  | free (page_dir : PageDirectoryPtr)
  | map (page_dir : PageDirectoryPtr) (virtual_addr : Word)
  | unmap (page_dir : PageDirectoryPtr) (virtual_addr : Word)

namespace PagingState

def unused (s : PagingState) : Finset DirectorySlot := Finset.univ.filter fun d => s.page_directory_used d = false

-- Pages are mapped in between, in directories that are in use.
def PoolStep (s : PagingState) (a : DirectoryAction) (s' : PagingState) : Prop :=
  match a with
  | .create => ∃ page_dir, s.paging_create_new_page_directory = some (page_dir,s')
  | .free d => ∃ r, s.paging_free_page_directory d = some (r,s')
  | .map d addr => (∃ i, d = .list i ∧ s.page_directory_used i = true) ∧ ∃ r, s.paging_allocate_user_page_frame d addr = some (r,s')
  | .unmap d addr => ∃ r, s.paging_free_user_page_frame d addr = some (r,s')

-- The pool knows how many directories are left, and hands out clean ones until then.
structure PoolExact (s : PagingState) : Prop where
  count : s.page_dir_free = s.unused.card
  answers : ∃ page_dir s', s.paging_create_new_page_directory = some (page_dir,s')
  null : ∀ page_dir s', s.paging_create_new_page_directory = some (page_dir,s') →
    (page_dir = none ↔ ∀ d, s.page_directory_used d = true)
  fresh : ∀ page_dir s', s.paging_create_new_page_directory = some (some page_dir,s') →
    ∃ d, page_dir = .list d ∧ s.page_directory_used d = false ∧ s'.Bare d

def GivesBack (s : PagingState) (a : DirectoryAction) : Prop :=
  ∃ d, a = .free (.list d) ∧ s.page_directory_used d = true

-- A directory that is not in use maps nothing.
def Cleared (s : PagingState) : Prop := ∀ d, s.page_directory_used d = false → s.Bare d

variable {s s' : PagingState} {d : DirectorySlot}

theorem mem_unused : d ∈ s.unused ↔ s.page_directory_used d = false := by simp [unused]

theorem unused_eq_empty : s.unused.card = 0 ↔ ∀ d, s.page_directory_used d = true := by
  rw [Finset.card_eq_zero,Finset.eq_empty_iff_forall_notMem]
  simp [mem_unused]

theorem boot_cleared : Cleared boot := fun _ _ _ _ present => by cases present

theorem Opened.unused_card (opens : Opened s s' d) : s'.unused.card + 1 = s.unused.card := by
  have erased : s'.unused = s.unused.erase d := by
    ext e
    rw [Finset.mem_erase,mem_unused,mem_unused,opens.used]
    by_cases same : e = d <;> simp [same]
  rw [erased]
  exact Finset.card_erase_add_one (mem_unused.mpr opens.unused)

theorem Opened.bare (opens : Opened s s' d) (cleared : Cleared s) : s'.Bare d := by
  intro k notKernel present
  rw [Present,opens.others _ k (Or.inr notKernel)] at present
  exact cleared d opens.unused k notKernel present

theorem create_null (ran : s.paging_create_new_page_directory = some (none,s')) : s.page_dir_free = 0 ∧ s' = s := by
  unfold paging_create_new_page_directory at ran
  split at ran
  · rename_i zero
    cases ran
    exact ⟨zero,rfl⟩
  · obtain ⟨_,_,same⟩ := Option.map_eq_some_iff.mp ran
    cases same

theorem null_iff : s.paging_create_new_page_directory = some (none,s) ↔ s.page_dir_free = 0 := by
  constructor
  · exact fun ran => (create_null ran).1
  · intro zero
    unfold paging_create_new_page_directory
    rw [if_pos zero]

-- Over cleared directories the counter decides everything else.
theorem poolExact_iff (cleared : Cleared s) : PoolExact s ↔ s.page_dir_free = s.unused.card := by
  constructor
  · exact PoolExact.count
  · intro count
    refine ⟨count,?_,fun page_dir s' ran => ?_,fun page_dir s' ran => ?_⟩
    · unfold paging_create_new_page_directory
      split
      · exact ⟨_,_,rfl⟩
      · rename_i more
        obtain ⟨d,member⟩ := Finset.card_pos.mp (by omega : 0 < s.unused.card)
        obtain ⟨e,found⟩ := firstFit_isSome (p := fun i => s.page_directory_used i == false) (Nat.zero_le d.val)
          (by simpa using mem_unused.mp member)
        exact ⟨_,_,by rw [found]; rfl⟩
    · rw [← unused_eq_empty]
      cases page_dir with
      | none =>
        obtain ⟨zero,_⟩ := create_null ran
        exact iff_of_true rfl (by omega)
      | some page_dir =>
        obtain ⟨d,_,opens⟩ := paging_create_cases ran
        have fewer := Opened.unused_card opens
        exact iff_of_false (by simp) (by omega)
    · obtain ⟨d,same,opens⟩ := paging_create_cases ran
      exact ⟨d,same,opens.unused,Opened.bare opens cleared⟩

theorem boot_poolExact : PoolExact boot := (poolExact_iff boot_cleared).mpr (by decide)

theorem unused_congr (same : s'.page_directory_used = s.page_directory_used) : s'.unused = s.unused := by
  unfold unused
  rw [same]

theorem Frees.pool {p : PageDirectoryPtr} (frees : Frees p s s') (cleared : Cleared s) :
    Cleared s' ∧ s'.page_dir_free = s.page_dir_free ∧ s'.unused = s.unused :=
  ⟨fun d unused => frees.bare (cleared d (frees.used ▸ unused)),frees.free,unused_congr frees.used⟩

-- A call that leaves the counter and the directories in use alone changes nothing here.
theorem PoolExact.congr (cleared' : Cleared s') (free : s'.page_dir_free = s.page_dir_free) (same : s'.unused = s.unused)
    (exact : PoolExact s) : PoolExact s' := by
  rw [poolExact_iff cleared',free,same]
  exact exact.count

theorem freed_exact {page_dir : PageDirectoryPtr} {r : Bool} (cleared : Cleared s) (exact : PoolExact s)
    (ran : s.paging_free_page_directory page_dir = some (r,s')) : PoolExact s' ↔ ¬ s.GivesBack (.free page_dir) := by
  rw [poolExact_iff (freed_bare ran cleared)]
  rcases paging_free_page_directory_cases ran with ⟨rfl,rfl⟩ | ⟨d,rfl,frees,_⟩
  · refine iff_of_true exact.count ?_
    rintro ⟨d,same,_⟩
    cases same
  · have used : s'.page_directory_used = Function.update s.page_directory_used d false := frees.used
    have free : s'.page_dir_free = s.page_dir_free := frees.free
    have count := exact.count
    cases before : s.page_directory_used d with
    | true =>
      have grown : s'.unused = insert d s.unused := by
        ext e
        rw [Finset.mem_insert,mem_unused,mem_unused,used]
        by_cases same : e = d <;> simp [same]
      have new : d ∉ s.unused := fun member => by
        rw [mem_unused,before] at member
        cases member
      rw [free,grown,Finset.card_insert_of_notMem new]
      refine iff_of_false (by omega) fun none => none ⟨d,rfl,before⟩
    | false =>
      have same : s'.unused = s.unused := unused_congr (by rw [used,← before,Function.update_eq_self])
      rw [free,same]
      refine iff_of_true count ?_
      rintro ⟨e,sameDirectory,inUse⟩
      cases sameDirectory
      rw [before] at inUse
      cases inUse

theorem PoolStep.cleared {a : DirectoryAction} (step : s.PoolStep a s') (cleared : Cleared s) : Cleared s' := by
  cases a with
  | create =>
    obtain ⟨page_dir,ran⟩ := step
    cases page_dir with
    | none => exact (create_null ran).2 ▸ cleared
    | some page_dir =>
      obtain ⟨d,_,opens⟩ := paging_create_cases ran
      exact opens.bare_later cleared
  | free d =>
    obtain ⟨r,ran⟩ := step
    exact freed_bare ran cleared
  | map d addr =>
    obtain ⟨⟨i,rfl,inUse⟩,r,ran⟩ := step
    rcases paging_allocate_cases ran with ⟨_,_,rfl⟩ | ⟨_,_,f,took⟩
    · exact cleared
    · intro e unused
      rw [took.used] at unused
      refine took.bare_other ?_ (cleared e unused)
      rintro ⟨⟩
      rw [inUse] at unused
      cases unused
  | unmap d addr =>
    obtain ⟨r,ran⟩ := step
    exact (Frees.pool (Frees.of_free ran) cleared).1

theorem PoolStep.exact {a : DirectoryAction} (step : s.PoolStep a s') (cleared : Cleared s) (exact : PoolExact s) :
    PoolExact s' ↔ ¬ s.GivesBack a := by
  have cleared' := step.cleared cleared
  cases a with
  | create =>
    obtain ⟨page_dir,ran⟩ := step
    refine iff_of_true ?_ (by rintro ⟨_,⟨⟩,_⟩)
    cases page_dir with
    | none => exact (create_null ran).2 ▸ exact
    | some page_dir =>
      obtain ⟨d,_,opens⟩ := paging_create_cases ran
      have fewer := Opened.unused_card opens
      have count := exact.count
      rw [poolExact_iff cleared',opens.free]
      omega
  | free d =>
    obtain ⟨r,ran⟩ := step
    exact freed_exact cleared exact ran
  | map d addr =>
    obtain ⟨_,r,ran⟩ := step
    refine iff_of_true ?_ (by rintro ⟨_,⟨⟩,_⟩)
    rcases paging_allocate_cases ran with ⟨_,_,rfl⟩ | ⟨_,_,f,took⟩
    · exact exact
    · exact exact.congr cleared' took.free (unused_congr took.used)
  | unmap d addr =>
    obtain ⟨r,ran⟩ := step
    obtain ⟨_,free,same⟩ := Frees.pool (Frees.of_free ran) cleared
    exact iff_of_true (exact.congr cleared' free same) (by rintro ⟨_,⟨⟩,_⟩)

end PagingState

namespace KernelState
variable {k k' : KernelState}

-- Pids and directories are handed out together, and none comes back.
structure Spent (k : KernelState) : Prop where
  budget : k.total_pid + k.paging.page_dir_free = PAGING_DIRECTORY_TABLE_MAX_COUNT
  left : 0 ≤ k.paging.page_dir_free

theorem boot_spent : Spent boot := ⟨by decide,by decide⟩

theorem Spent.kept {a : ProcessAction} (spent : Spent k) (step : k.Step a k') : Spent k' := by
  have budget := spent.budget
  have left := spent.left
  rcases step_cases step with ⟨request,rfl,⟨_,_,_,rfl⟩ | ⟨_,i,d,opened,created⟩⟩ |
      ⟨pid,rfl,⟨_,rfl,_⟩ | ⟨_,i,destroyed⟩⟩ | ⟨ctx,rfl,i,saved⟩ | ⟨rfl,i,ctx,switched⟩
  · exact spent
  · have some_ := created.opens.budget
    refine ⟨?_,?_⟩
    · rw [created.total_pid,created.dir_free]
      omega
    · rw [created.dir_free]
      omega
  · exact spent
  · exact ⟨by rw [destroyed.total_pid,destroyed.dir_free]; exact budget,by rw [destroyed.dir_free]; exact left⟩
  · exact ⟨by rw [saved.total_pid,saved.paging]; exact budget,by rw [saved.paging]; exact left⟩
  · exact ⟨by rw [switched.alike.total_pid,switched.alike.paging]; exact budget,by rw [switched.alike.paging]; exact left⟩

def ReceivesDirectory (k : KernelState) : Prop :=
  ∀ page_dir s', k.paging.paging_create_new_page_directory = some (page_dir,s') → page_dir ≠ none

theorem receivesDirectory_iff (spent : Spent k) : ReceivesDirectory k ↔ k.total_pid < PAGING_DIRECTORY_TABLE_MAX_COUNT := by
  have budget := spent.budget
  have left := spent.left
  constructor
  · intro receives
    by_contra all
    have zero : k.paging.page_dir_free = 0 := by omega
    exact receives none k.paging (PagingState.null_iff.mpr zero) rfl
  · rintro few page_dir s' ran rfl
    obtain ⟨zero,_⟩ := PagingState.create_null ran
    omega

end KernelState

open PagingState in
-- The pool of directories on its own, and under the processes.
theorem pool_exact_iff {history : List (Transition PagingState DirectoryAction)} {s : PagingState}
    {processes : List (Transition KernelState ProcessAction)} {k : KernelState} (run : Run PoolStep boot history s)
    (started : Run KernelState.Step KernelState.boot processes k) :
    ((∀ t ∈ history, PoolExact t.after) ↔ ∀ t ∈ history, ¬ t.before.GivesBack t.action) ∧
      (k.ReceivesDirectory ↔ k.total_pid < PAGING_DIRECTORY_TABLE_MAX_COUNT) := by
  constructor
  · have keeps : ∀ (s : PagingState) (a : DirectoryAction) (s' : PagingState), Cleared s → PoolExact s → ¬ s.GivesBack a →
        s.PoolStep a s' → Cleared s' := fun _ _ _ cleared _ _ step => step.cleared cleared
    have exact : ∀ (s : PagingState) (a : DirectoryAction) (s' : PagingState), Cleared s → PoolExact s →
        s.PoolStep a s' → (PoolExact s' ↔ ¬ s.GivesBack a) := fun _ _ _ cleared exact step => step.exact cleared exact
    exact Run.always_iff boot_cleared boot_poolExact keeps exact run
  · have kept : ∀ (k : KernelState) (a : ProcessAction) (k' : KernelState), k.Spent → k.Step a k' → k'.Spent :=
      fun _ _ _ spent step => spent.kept step
    exact KernelState.receivesDirectory_iff (started.invariant KernelState.boot_spent kept)

namespace PagingState

def lent : Option PagingState := boot.paging_create_new_page_directory.bind fun r =>
  if r.1 = some (.list 0) then (r.2.paging_free_page_directory (.list 0)).map Prod.snd else none

theorem lent_run {s : PagingState} (ran : lent = some s) : ∃ history, Run PoolStep boot history s ∧
    history.map Transition.action = [.create,.free (.list 0)] := by
  obtain ⟨⟨page_dir,s₁⟩,created,freed⟩ := Option.bind_eq_some_iff.mp ran
  obtain ⟨rfl,freed⟩ := Option.ite_none_right_eq_some.mp freed
  obtain ⟨⟨r,s₂⟩,answered,same⟩ := Option.map_eq_some_iff.mp freed
  cases same
  have first : boot.PoolStep .create s₁ := ⟨_,created⟩
  have second : s₁.PoolStep (.free (.list 0)) s₂ := ⟨r,answered⟩
  exact ⟨_,.cons first (.single second),rfl⟩

end PagingState

open PagingState in
theorem pool_exact_iff_lent : ∃ history s processes k, Run PoolStep boot history s ∧
    history.map Transition.action = [.create,.free (.list 0)] ∧ Run KernelState.Step KernelState.boot processes k ∧
    processes.map Transition.action = KernelState.setup ∧
    ((∀ t ∈ history, PoolExact t.after) ↔ ∀ t ∈ history, ¬ t.before.GivesBack t.action) ∧
      (k.ReceivesDirectory ↔ k.total_pid < PAGING_DIRECTORY_TABLE_MAX_COUNT) := by
  have lends : lent.isSome = true := by decide +kernel
  have boots : (KernelState.boot.replay KernelState.setup).isSome = true := by decide +kernel
  obtain ⟨s,lends⟩ := Option.isSome_iff_exists.mp lends
  obtain ⟨k,boots⟩ := Option.isSome_iff_exists.mp boots
  obtain ⟨lending,run,calls⟩ := lent_run lends
  obtain ⟨booting,start,steps⟩ := KernelState.replay_run boots
  exact ⟨lending,s,booting,k,run,calls,start,steps,pool_exact_iff run start⟩

-- All 32 directories are unused again, and the counter says 31.
open PagingState in
theorem lent_miscounts : ∃ history s, Run PoolStep boot history s ∧
    history.map Transition.action = [.create,.free (.list 0)] ∧ s.page_dir_free = 31 ∧ s.unused.card = 32 ∧
    ¬ ∀ t ∈ history, PoolExact t.after := by
  have counted : (lent.any fun s => s.page_dir_free = 31 ∧ s.unused.card = 32) = true := by decide +kernel
  obtain ⟨s,lends,counted⟩ := (Option.any_eq_true _ _).mp counted
  obtain ⟨free,unused⟩ := of_decide_eq_true counted
  obtain ⟨history,run,calls⟩ := lent_run lends
  refine ⟨history,s,run,calls,free,unused,fun always => ?_⟩
  have count := (run.last_of_always boot_poolExact always).count
  rw [free,unused] at count
  cases count

end Sosis.Kernel
