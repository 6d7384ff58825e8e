import Sosis.PagingFrames
import Sosis.Process

-- One specification for each call of process.c and scheduler.c: which slot it
-- touches, what it puts there, and what it leaves alone.
namespace Sosis.Kernel
open FirstFit
open Fat32 (Word FAT32DriverRequest)

abbrev Slot := Fin PROCESS_COUNT_MAX

-- Pages of one directory have been given back, in some order.
inductive Frees (d : PageDirectoryPtr) : PagingState → PagingState → Prop where
  | refl : Frees d s s
  | step : PagingState.Returned s middle d k f → Frees d middle s' → Frees d s s'

namespace Frees
variable {d : PageDirectoryPtr} {s s' s'' : PagingState}

theorem trans (left : Frees d s s') (right : Frees d s' s'') : Frees d s s'' := by
  induction left with
  | refl => exact right
  | step returned _ ih => exact .step returned (ih right)

theorem of_free {addr : Word} {r : Bool} (ran : s.paging_free_user_page_frame d addr = some (r,s')) : Frees d s s' := by
  rcases PagingState.paging_free_cases ran with ⟨_,_,rfl⟩ | ⟨_,_,returned⟩
  · exact .refl
  · exact .step returned .refl

theorem used (frees : Frees d s s') : s'.page_directory_used = s.page_directory_used := by
  induction frees with
  | refl => rfl
  | step returned _ ih => rw [ih,returned.used]

theorem free (frees : Frees d s s') : s'.page_dir_free = s.page_dir_free := by
  induction frees with
  | refl => rfl
  | step returned _ ih => rw [ih,returned.free]

theorem other (frees : Frees d s s') {d' : PageDirectoryPtr} (other : d' ≠ d) : s'.directory d' = s.directory d' := by
  induction frees with
  | refl => rfl
  | step returned _ ih =>
    rw [ih]
    funext k
    exact returned.others d' k (Or.inl other)

theorem present (frees : Frees d s s') {k : PageIndex} (present : (s'.directory d k).flag.present_bit = true) :
    s'.directory d k = s.directory d k := by
  induction frees with
  | refl => rfl
  | @step s middle k' f s' returned _ ih =>
    have kept := ih present
    rw [kept] at present ⊢
    by_cases same : k = k'
    · subst same
      rw [returned.entry] at present
      cases present
    · exact returned.others d k (Or.inr same)

end Frees

theorem releasePages_frees {page_dir : PageDirectoryPtr} {turns i : Nat} {used used' : Fin PROCESS_PAGE_FRAME_COUNT_MAX → Word}
    {s s' : PagingState} (ran : releasePages (some page_dir) turns i used s = some (used',s')) : Frees page_dir s s' := by
  induction turns generalizing i used s with
  | zero =>
    cases ran
    exact .refl
  | succ turns ih =>
    unfold releasePages at ran
    split at ran
    · rw [Option.bind_some] at ran
      obtain ⟨⟨r,middle⟩,freed,later⟩ := Option.bind_eq_some_iff.mp ran
      exact (Frees.of_free freed).trans (ih later)
    · cases ran

theorem page_index_shift (j : Nat) (bound : j < PAGE_ENTRY_COUNT) :
    page_index (BitVec.ofNat 32 j <<< 22) = BitVec.ofNat 10 j := by
  have small : j < 1024 := bound
  apply BitVec.eq_of_toNat_eq
  rw [page_index_toNat,BitVec.toNat_shiftLeft,BitVec.toNat_ofNat,BitVec.toNat_ofNat,Nat.shiftLeft_eq]
  omega

-- Induction over the entries still to visit: those already passed are not present.
theorem freeEntries_cleared {page_dir : PageDirectoryPtr} {turns : Nat} {s s' : PagingState} (fits : turns ≤ PAGE_ENTRY_COUNT)
    (ran : PagingState.freeEntries page_dir turns s = some s') : Frees page_dir s s' ∧
      ∀ k : PageIndex, PAGE_ENTRY_COUNT ≤ k.toNat + turns → k ≠ 0x300 → (s'.directory page_dir k).flag.present_bit = false := by
  induction turns generalizing s with
  | zero =>
    cases ran
    refine ⟨.refl,fun k low => ?_⟩
    have small := k.isLt
    simp only [PAGE_ENTRY_COUNT] at low
    omega
  | succ turns ih =>
    have fewer : turns ≤ PAGE_ENTRY_COUNT := Nat.le_of_succ_le fits
    have place : PAGE_ENTRY_COUNT - (turns+1) < PAGE_ENTRY_COUNT := by simp only [PAGE_ENTRY_COUNT] at fits ⊢; omega
    have here : ∀ k : PageIndex, PAGE_ENTRY_COUNT ≤ k.toNat + (turns+1) →
        PAGE_ENTRY_COUNT ≤ k.toNat + turns ∨ k = BitVec.ofNat 10 (PAGE_ENTRY_COUNT - (turns+1)) := by
      intro k low
      by_cases later : PAGE_ENTRY_COUNT ≤ k.toNat + turns
      · exact Or.inl later
      · refine Or.inr (BitVec.eq_of_toNat_eq ?_)
        rw [BitVec.toNat_ofNat]
        simp only [PAGE_ENTRY_COUNT] at *
        omega
    simp only [PagingState.freeEntries] at ran
    split at ran
    · rename_i kernel
      obtain ⟨frees,cleared⟩ := ih fewer ran
      refine ⟨frees,fun k low notKernel => ?_⟩
      rcases here k low with later | rfl
      · exact cleared k later notKernel
      · rw [kernel] at notKernel
        exact absurd rfl notKernel
    · split at ran
      · obtain ⟨⟨r,middle⟩,freed,later⟩ := Option.bind_eq_some_iff.mp ran
        obtain ⟨frees,cleared⟩ := ih fewer later
        refine ⟨(Frees.of_free freed).trans frees,fun k low notKernel => ?_⟩
        rcases here k low with inRest | rfl
        · exact cleared k inRest notKernel
        · rcases PagingState.paging_free_cases freed with ⟨_,absent,same⟩ | ⟨_,f,returned⟩
          · rw [page_index_shift _ place] at absent
            subst same
            by_contra present
            rw [frees.present (by simpa using present)] at present
            exact present absent
          · have gone := returned.entry
            rw [page_index_shift _ place] at gone
            by_contra present
            rw [frees.present (by simpa using present),gone] at present
            exact present rfl
      · rename_i absent
        obtain ⟨frees,cleared⟩ := ih fewer ran
        refine ⟨frees,fun k low notKernel => ?_⟩
        rcases here k low with inRest | rfl
        · exact cleared k inRest notKernel
        · by_contra present
          rw [frees.present (by simpa using present)] at present
          exact absent (by simpa using present)

-- The directory a creation opens was unused and now holds the kernel's mapping.
structure Opened (s s' : PagingState) (d : Fin PAGING_DIRECTORY_TABLE_MAX_COUNT) : Prop where
  unused : s.page_directory_used d = false
  used : s'.page_directory_used = Function.update s.page_directory_used d true
  free : s'.page_dir_free = s.page_dir_free - 1
  budget : s.page_dir_free ≠ 0
  kernel : s'.directory (.list d) 0x300 = kernel_entry
  others : ∀ d' k, (d' ≠ .list d ∨ k ≠ 0x300) → s'.directory d' k = s.directory d' k
  pool : s'.page_manager_state = s.page_manager_state

theorem paging_create_cases {s s' : PagingState} {page_dir : PageDirectoryPtr}
    (ran : s.paging_create_new_page_directory = some (some page_dir,s')) : ∃ d, page_dir = .list d ∧ Opened s s' d := by
  unfold PagingState.paging_create_new_page_directory at ran
  split at ran
  · cases ran
  · rename_i budget
    obtain ⟨d,found,same⟩ := Option.map_eq_some_iff.mp ran
    cases same
    refine ⟨d,rfl,by simpa using (firstFit_some.mp found).2.1,rfl,rfl,budget,by simp,fun d' k other => ?_,rfl⟩
    by_cases here : d' = .list d
    · subst here
      have notKernel : k ≠ 0x300 := other.resolve_left fun different => different rfl
      simp only [Function.update_self]
      exact Function.update_of_ne notKernel _ _
    · simp [here]

theorem paging_free_page_directory_cases {s s' : PagingState} {page_dir : PageDirectoryPtr} {r : Bool}
    (ran : s.paging_free_page_directory page_dir = some (r,s')) : page_dir = .kernel ∧ s' = s ∨
      ∃ d, page_dir = .list d ∧
        Frees (.list d) {s with page_directory_used := Function.update s.page_directory_used d false} s' ∧
        ∀ k : PageIndex, k ≠ 0x300 → (s'.directory (.list d) k).flag.present_bit = false := by
  cases page_dir with
  | kernel =>
    cases ran
    exact Or.inl ⟨rfl,rfl⟩
  | list d =>
    obtain ⟨s'',walked,same⟩ := Option.map_eq_some_iff.mp ran
    cases same
    obtain ⟨frees,cleared⟩ := freeEntries_cleared (Nat.le_refl _) walked
    exact Or.inr ⟨d,rfl,frees,fun k => cleared k (Nat.le_add_left _ _)⟩

-- One turn of the loop in process_create_user_process.
theorem mapPages_succ {page_dir : PageDirectoryPtr} {buf : Word} {turns i : Nat}
    {used used' : Fin PROCESS_PAGE_FRAME_COUNT_MAX → Word} {s s' : PagingState} :
    mapPages page_dir buf (turns+1) i used s = some (used',s') ↔ ∃ (bound : i < PROCESS_PAGE_FRAME_COUNT_MAX) (r : Bool)
      (middle : PagingState), s.paging_allocate_user_page_frame page_dir
          (buf + BitVec.ofNat 32 i * BitVec.ofNat 32 PAGE_FRAME_SIZE) = some (r,middle) ∧
        mapPages page_dir buf turns (i+1)
          (Function.update used ⟨i,bound⟩ (buf + BitVec.ofNat 32 i * BitVec.ofNat 32 PAGE_FRAME_SIZE)) middle =
            some (used',s') := by
  constructor
  · intro ran
    unfold mapPages at ran
    split at ran
    · rename_i bound
      obtain ⟨⟨r,middle⟩,allocated,later⟩ := Option.bind_eq_some_iff.mp ran
      exact ⟨bound,r,middle,allocated,later⟩
    · cases ran
  · rintro ⟨bound,r,middle,allocated,later⟩
    unfold mapPages
    rw [dif_pos bound]
    exact Option.bind_eq_some_iff.mpr ⟨(r,middle),allocated,later⟩

theorem mapPages_frame {page_dir : PageDirectoryPtr} {buf : Word} {turns i : Nat}
    {used used' : Fin PROCESS_PAGE_FRAME_COUNT_MAX → Word} {s s' : PagingState}
    (ran : mapPages page_dir buf turns i used s = some (used',s')) :
    s'.page_directory_used = s.page_directory_used ∧ s'.page_dir_free = s.page_dir_free ∧
      ∀ d, d ≠ page_dir → s'.directory d = s.directory d := by
  induction turns generalizing i used s with
  | zero =>
    cases ran
    exact ⟨rfl,rfl,fun _ _ => rfl⟩
  | succ turns ih =>
    obtain ⟨_,r,middle,allocated,later⟩ := mapPages_succ.mp ran
    obtain ⟨usedKept,freeKept,others⟩ := ih later
    rcases PagingState.paging_allocate_cases allocated with ⟨_,_,rfl⟩ | ⟨_,_,f,took⟩
    · exact ⟨usedKept,freeKept,others⟩
    · refine ⟨usedKept.trans took.used,freeKept.trans took.free,fun d other => (others d other).trans ?_⟩
      funext k
      exact took.others d k (Or.inl other)

namespace KernelState
variable {k k' k'' : KernelState}

-- What a successful creation puts into the slot it picked.
structure Created (k k' : KernelState) (request : FAT32DriverRequest) (i : Slot)
    (d : Fin PAGING_DIRECTORY_TABLE_MAX_COUNT) (opened : PagingState) : Prop where
  slot : k.process_list_get_inactive_index = some i
  below : request.buf < KERNEL_VIRTUAL_ADDRESS_BASE
  checked : k.paging.paging_allocate_check (page_frame_count_needed request) = true
  fits : page_frame_count_needed request ≤ BitVec.ofNat 32 PROCESS_PAGE_FRAME_COUNT_MAX
  opens : Opened k.paging opened d
  mapped : mapPages (.list d) request.buf (page_frame_count_needed request).toNat 0
    (k.process_list i).memory.virtual_addr_used opened = some ((k'.process_list i).memory.virtual_addr_used,k'.paging)
  metadata : (k'.process_list i).metadata = ⟨BitVec.ofInt 32 (k.total_pid + 1),.READY,true,request.name⟩
  directory : (k'.process_list i).context.page_directory_virtual_addr = some (.list d)
  esp : (k'.process_list i).context.cpu.esp = 0x400000
  eflags : (k'.process_list i).context.eflags =
    (k.process_list i).context.eflags ||| (CPU_EFLAGS_BASE_FLAG ||| CPU_EFLAGS_FLAG_INTERRUPT_ENABLE)
  pages : (k'.process_list i).memory.page_frame_used_count = page_frame_count_needed request
  others : ∀ j, j ≠ i → k'.process_list j = k.process_list j
  count : k'.active_process_count = k.active_process_count + 1
  total_pid : k'.total_pid = k.total_pid + 1
  cur_idx : k'.cur_idx = k.cur_idx
  cr3 : k'.cr3 = k.cr3

theorem create_cases {request : FAT32DriverRequest} {code : Int}
    (ran : k.process_create_user_process request = some (code,k')) :
    code ≠ PROCESS_CREATE_SUCCESS ∧ k' = k ∨
      code = PROCESS_CREATE_SUCCESS ∧ ∃ i d opened, Created k k' request i d opened := by
  unfold process_create_user_process at ran
  split at ran
  · cases ran
    exact Or.inl ⟨by decide,rfl⟩
  · split at ran
    · cases ran
      exact Or.inl ⟨by decide,rfl⟩
    · rename_i below
      split at ran
      · cases ran
        exact Or.inl ⟨by decide,rfl⟩
      · rename_i enough
        simp only [Option.bind_eq_bind,Option.bind_eq_some_iff] at ran
        obtain ⟨i,slot,⟨directory,opened⟩,creates,page_dir,rfl,⟨used,paging⟩,mapped,same⟩ := ran
        obtain ⟨d,rfl,opens⟩ := paging_create_cases creates
        simp only [Bool.or_eq_true,Bool.not_eq_true',decide_eq_true_eq,not_or,Bool.not_eq_false] at enough
        cases same
        refine Or.inr ⟨rfl,i,d,opened,slot,BitVec.not_le.mp below,enough.1,BitVec.not_lt.mp enough.2,opens,?_,?_,?_,?_,?_,?_,
          fun j other => ?_,rfl,rfl,rfl,rfl⟩
        · simpa using mapped
        · simp
        · simp
        · simp
        · simp
        · simp
        · exact Function.update_of_ne other _ _

-- What a destruction does to the first slot with the pid, active or not.
structure Destroyed (k k' : KernelState) (pid : Word) (i : Slot) : Prop where
  named : k.pid i = pid
  first : ∀ j, j < i → k.pid j ≠ pid
  metadata : (k'.process_list i).metadata = {(k.process_list i).metadata with active := false}
  context : (k'.process_list i).context = (k.process_list i).context
  others : ∀ j, j ≠ i → k'.process_list j = k.process_list j
  count : k'.active_process_count = k.active_process_count - 1
  total_pid : k'.total_pid = k.total_pid
  cur_idx : k'.cur_idx = k.cur_idx
  cr3 : k'.cr3 = k.cr3
  paging : ∃ page_dir released r, (k.process_list i).context.page_directory_virtual_addr = some page_dir ∧
    Frees page_dir k.paging released ∧ released.paging_free_page_directory page_dir = some (r,k'.paging)

theorem destroy_cases {pid : Word} {r : Bool} (ran : k.process_destroy pid = some (r,k')) :
    r = false ∧ k' = k ∧ (∀ i, k.pid i ≠ pid) ∨ r = true ∧ ∃ i, Destroyed k k' pid i := by
  unfold process_destroy at ran
  cases found : firstFit (fun i => k.pid i == pid) 0 with
  | none =>
    rw [found] at ran
    cases ran
    refine Or.inl ⟨rfl,rfl,fun i => ?_⟩
    simpa using firstFit_none.mp found i (Nat.zero_le _)
  | some i =>
    obtain ⟨_,named,before⟩ := firstFit_some.mp found
    simp only [found,release_memory,Option.bind_eq_bind,Option.bind_eq_some_iff] at ran
    obtain ⟨middle,⟨⟨used,released⟩,walked,page_dir,at_,⟨r',paging⟩,freed,kept⟩,same⟩ := ran
    cases kept
    cases same
    rw [at_] at walked
    refine Or.inr ⟨rfl,i,by simpa using named,fun j less => by simpa using before j (Nat.zero_le _) less,?_,?_,
      fun j other => ?_,rfl,rfl,rfl,?_,page_dir,released,r',at_,releasePages_frees walked,freed⟩
    · simp
    · simp
    · simp [other]
    · by_cases same : k.cr3 = page_dir <;> simp [same]

theorem inactiveFrom_inactive {turns : Nat} {idx i : Slot} (found : k.inactiveFrom turns idx = some i) : k.active i = false := by
  induction turns generalizing idx with
  | zero => cases found
  | succ turns ih =>
    unfold inactiveFrom at found
    split at found
    · exact ih found
    · rename_i inactive
      cases found
      simpa using inactive

theorem activeFrom_active {turns : Nat} {idx i : Slot} (found : k.activeFrom turns idx = some i) : k.active i = true := by
  induction turns generalizing idx with
  | zero => cases found
  | succ turns ih =>
    unfold activeFrom at found
    split at found
    · rename_i active
      cases found
      exact active
    · exact ih found

theorem inactiveFrom_none {turns : Nat} {idx : Slot} (missed : k.inactiveFrom turns idx = none) :
    ∀ n, n < turns → k.active (idx - Fin.ofNat PROCESS_COUNT_MAX n) = true := by
  induction turns generalizing idx with
  | zero => exact fun n less => absurd less (Nat.not_lt_zero n)
  | succ turns ih =>
    unfold inactiveFrom at missed
    split at missed
    · rename_i here
      intro n less
      cases n with
      | zero =>
        rw [show idx - Fin.ofNat PROCESS_COUNT_MAX 0 = idx from Fin.ext (by simp)]
        exact here
      | succ n =>
        have next : idx - Fin.ofNat PROCESS_COUNT_MAX (n+1) = idx - 1 - Fin.ofNat PROCESS_COUNT_MAX n := by
          apply Fin.ext
          simp only [PROCESS_COUNT_MAX,Fin.sub_def,Fin.ofNat,Fin.val_one]
          omega
        rw [next]
        exact ih missed n (Nat.lt_of_succ_lt_succ less)
    · cases missed

theorem activeFrom_none {turns : Nat} {idx : Slot} (missed : k.activeFrom turns idx = none) :
    ∀ n, n < turns → k.active (idx + Fin.ofNat PROCESS_COUNT_MAX n) = false := by
  induction turns generalizing idx with
  | zero => exact fun n less => absurd less (Nat.not_lt_zero n)
  | succ turns ih =>
    unfold activeFrom at missed
    split at missed
    · cases missed
    · rename_i here
      intro n less
      cases n with
      | zero =>
        rw [show idx + Fin.ofNat PROCESS_COUNT_MAX 0 = idx from Fin.ext (by simp)]
        simpa using here
      | succ n =>
        have next : idx + Fin.ofNat PROCESS_COUNT_MAX (n+1) = idx + 1 + Fin.ofNat PROCESS_COUNT_MAX n := by
          apply Fin.ext
          simp only [PROCESS_COUNT_MAX,Fin.add_def,Fin.ofNat,Fin.val_one]
          omega
        rw [next]
        exact ih missed n (Nat.lt_of_succ_lt_succ less)

-- All the way round is enough.
theorem inactiveFrom_finds (idx : Slot) {j : Slot} (inactive : k.active j = false) :
    ∃ i, k.inactiveFrom PROCESS_COUNT_MAX idx = some i := by
  cases found : k.inactiveFrom PROCESS_COUNT_MAX idx with
  | some i => exact ⟨i,rfl⟩
  | none =>
    have reached : idx - Fin.ofNat PROCESS_COUNT_MAX (idx-j).val = j := by
      rw [Fin.ofNat_val_eq_self]
      exact sub_sub_cancel idx j
    have full := inactiveFrom_none found _ (idx-j).isLt
    rw [reached,inactive] at full
    cases full

theorem activeFrom_finds (idx : Slot) {j : Slot} (active : k.active j = true) :
    ∃ i, k.activeFrom PROCESS_COUNT_MAX idx = some i := by
  cases found : k.activeFrom PROCESS_COUNT_MAX idx with
  | some i => exact ⟨i,rfl⟩
  | none =>
    have reached : idx + Fin.ofNat PROCESS_COUNT_MAX (j-idx).val = j := by
      rw [Fin.ofNat_val_eq_self]
      exact add_sub_cancel idx j
    have empty := activeFrom_none found _ (j-idx).isLt
    rw [reached,active] at empty
    cases empty

-- Two states with the same tables but for the scheduling state of the processes.
structure Alike (k k' : KernelState) : Prop where
  contexts : ∀ j, (k'.process_list j).context = (k.process_list j).context
  memory : ∀ j, (k'.process_list j).memory = (k.process_list j).memory
  actives : ∀ j, k'.active j = k.active j
  pids : ∀ j, k'.pid j = k.pid j
  paging : k'.paging = k.paging
  count : k'.active_process_count = k.active_process_count
  total_pid : k'.total_pid = k.total_pid

theorem Alike.refl (k : KernelState) : Alike k k :=
  ⟨fun _ => rfl,fun _ => rfl,fun _ => rfl,fun _ => rfl,rfl,rfl,rfl⟩

theorem Alike.trans (left : Alike k k') (right : Alike k' k'') : Alike k k'' :=
  ⟨fun j => (right.contexts j).trans (left.contexts j),fun j => (right.memory j).trans (left.memory j),
    fun j => (right.actives j).trans (left.actives j),fun j => (right.pids j).trans (left.pids j),
    right.paging.trans left.paging,right.count.trans left.count,right.total_pid.trans left.total_pid⟩

theorem setState_alike (k : KernelState) (i : Slot) (cur_state : PROCESS_STATE) : Alike k (k.setState i cur_state) := by
  refine ⟨fun j => ?_,fun j => ?_,fun j => ?_,fun j => ?_,rfl,rfl,rfl⟩ <;>
    by_cases same : j = i <;> simp [setState,active,pid,same]

-- The process that runs is put back in the queue.
def preempt (k : KernelState) : KernelState :=
  match k.running with
  | some cur => k.setState cur .READY
  | none => k

theorem preempt_alike (k : KernelState) : Alike k k.preempt := by
  unfold preempt
  split
  · exact setState_alike k _ .READY
  · exact .refl k

-- A switch to slot `i`: nothing but scheduling state changes.
structure Switched (k k' : KernelState) (i : Slot) (ctx : Context) : Prop where
  active : k.active i = true
  context : ctx = (k.process_list i).context
  directory : ctx.page_directory_virtual_addr = some k'.cr3
  cur_idx : k'.cur_idx = i.val
  alike : Alike k k'

theorem switch_cases {ctx : Context} (ran : k.scheduler_switch_to_next_process = some (ctx,k')) :
    ∃ i, Switched k k' i ctx := by
  simp only [scheduler_switch_to_next_process,Option.bind_eq_bind,Option.bind_eq_some_iff] at ran
  obtain ⟨i,found,page_dir,directory,same⟩ := ran
  change some ((k.preempt.process_list i).context,setState {k.preempt with cr3 := page_dir,cur_idx := i.val} i .RUNNING) =
    some (ctx,k') at same
  change (k.preempt.process_list i).context.page_directory_virtual_addr = some page_dir at directory
  cases same
  have queued := preempt_alike k
  have moved : Alike k.preempt {k.preempt with cr3 := page_dir,cur_idx := i.val} :=
    ⟨fun _ => rfl,fun _ => rfl,fun _ => rfl,fun _ => rfl,rfl,rfl,rfl⟩
  exact ⟨i,activeFrom_active found,queued.contexts i,directory,rfl,
    (queued.trans moved).trans (setState_alike _ i .RUNNING)⟩

-- Saving a context replaces the registers of the slot that runs, nothing else.
structure Saved (k k' : KernelState) (i : Slot) (ctx : Context) : Prop where
  running : k.cur_idx = i.val
  context : (k'.process_list i).context = {(k.process_list i).context with
    cpu := ctx.cpu
    eflags := ctx.eflags
    eip := ctx.eip}
  metadata : ∀ j, (k'.process_list j).metadata = (k.process_list j).metadata
  memory : ∀ j, (k'.process_list j).memory = (k.process_list j).memory
  others : ∀ j, j ≠ i → k'.process_list j = k.process_list j
  paging : k'.paging = k.paging
  count : k'.active_process_count = k.active_process_count
  total_pid : k'.total_pid = k.total_pid
  cur_idx : k'.cur_idx = k.cur_idx
  cr3 : k'.cr3 = k.cr3

theorem running_val {i : Slot} (running : k.running = some i) : k.cur_idx = i.val := by
  unfold KernelState.running at running
  split at running
  · rename_i bound
    cases running
    exact (Int.toNat_of_nonneg bound.1).symm
  · cases running

theorem running_of_val {i : Slot} (at_ : k.cur_idx = i.val) : k.running = some i := by
  have bound : 0 ≤ k.cur_idx ∧ k.cur_idx < PROCESS_COUNT_MAX := by
    rw [at_]
    exact ⟨Int.natCast_nonneg _,by exact_mod_cast i.isLt⟩
  unfold running
  rw [dif_pos bound]
  exact congrArg some (Fin.ext (by simp [at_]))

-- A switch goes through once there is somebody to switch to and every active process
-- has a directory.
theorem switch_defined {j : Slot} (active : k.active j = true)
    (directory : ∀ i, k.active i = true → (k.process_list i).context.page_directory_virtual_addr ≠ none) :
    ∃ ctx k', k.scheduler_switch_to_next_process = some (ctx,k') := by
  obtain ⟨i,found⟩ := activeFrom_finds (Fin.ofNat PROCESS_COUNT_MAX (k.cur_idx + 1).toNat) active
  obtain ⟨page_dir,at_⟩ := Option.ne_none_iff_exists'.mp (directory i (activeFrom_active found))
  have queued : (k.preempt.process_list i).context.page_directory_virtual_addr = some page_dir := by
    rw [(preempt_alike k).contexts,at_]
  refine ⟨(k.preempt.process_list i).context,setState {k.preempt with cr3 := page_dir,cur_idx := i.val} i .RUNNING,?_⟩
  simp only [scheduler_switch_to_next_process,Option.bind_eq_bind,Option.bind_eq_some_iff]
  exact ⟨i,found,page_dir,queued,rfl⟩

theorem save_cases {ctx : Context} (ran : k.scheduler_save_context_to_current_running_pcb ctx = some k') :
    ∃ i, Saved k k' i ctx := by
  obtain ⟨i,running,same⟩ := Option.map_eq_some_iff.mp ran
  cases same
  refine ⟨i,running_val running,by simp,fun j => ?_,fun j => ?_,fun j other => ?_,rfl,rfl,rfl,rfl,rfl⟩
  · by_cases same : j = i <;> simp [same]
  · by_cases same : j = i <;> simp [same]
  · exact Function.update_of_ne other _ _

end KernelState

end Sosis.Kernel
