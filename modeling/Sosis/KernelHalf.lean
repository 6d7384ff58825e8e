import Sosis.ProcessContext
import Sosis.ProcessMemory

-- The entries from 0x300 on of the directory a creation makes. Only the first byte of
-- the image is compared with the kernel's base.
namespace Sosis.Kernel
open TransitionRuns
open Fat32 (Word FAT32DriverRequest)

def KERNEL_PAGE : PageIndex := 0x300

def PageDirectoryEntry.UserMapped (entry : PageDirectoryEntry) : Prop :=
  entry.flag.user_bit = true ∧ entry.flag.present_bit = true

structure KernelHalfKept (table : PageDirectory) : Prop where
  present : (table KERNEL_PAGE).flag.present_bit = true
  notUser : (table KERNEL_PAGE).flag.user_bit = false
  frame : (table KERNEL_PAGE).lower_address = 0
  above : ∀ k, KERNEL_PAGE ≤ k → ¬ (table k).UserMapped

namespace PagingState
variable {d : PageDirectoryPtr} {buf : Word} {turns i : Nat} {used used' : Fin PROCESS_PAGE_FRAME_COUNT_MAX → Word}
  {s s' : PagingState}

-- As long as the counter lasts a turn maps its page for the user, after that it maps
-- nothing.
theorem mapPages_entry (below : buf < KERNEL_VIRTUAL_ADDRESS_BASE) (ran : mapPages d buf turns i used s = some (used',s'))
    {j : Nat} (low : i ≤ j) (high : j < i + turns) :
    j < i + s.freeCount ∧ (s'.directory d (pageAt buf j)).flag = userFlag ∨
      i + s.freeCount ≤ j ∧ s'.directory d (pageAt buf j) = s.directory d (pageAt buf j) := by
  induction turns generalizing i used s with
  | zero => omega
  | succ turns ih =>
    have fits := mapPages_fits ran (Nat.succ_ne_zero _)
    obtain ⟨bound,r,middle,allocated,later⟩ := mapPages_succ.mp ran
    have first := mapPages_first below fits later
    rcases paging_allocate_cases allocated with ⟨_,none,rfl⟩ | ⟨_,some_,f,took⟩
    · refine Or.inr ⟨by omega,?_⟩
      by_cases here : j = i
      · rw [here,first]
      · rcases ih later (by omega) (by omega) with ⟨less,_⟩ | ⟨_,kept⟩
        · omega
        · exact kept
    · have fewer := took.count
      by_cases here : j = i
      · refine Or.inl ⟨by omega,?_⟩
        rw [here,first]
        exact congrArg PageDirectoryEntry.flag took.entry
      · rcases ih later (by omega) (by omega) with ⟨less,user⟩ | ⟨more,kept⟩
        · exact Or.inl ⟨by omega,user⟩
        · refine Or.inr ⟨by omega,?_⟩
          rw [kept]
          refine took.others d _ (Or.inr fun same => here ?_)
          exact pageAt_injective below (by omega) bound same

end PagingState

open PagingState

namespace KernelState
variable {k k' : KernelState} {request : FAT32DriverRequest}

-- The pages that get a frame end below the kernel's, and the directory that the
-- creation opens holds nothing of a user's above it.
structure Clears (k : KernelState) (request : FAT32DriverRequest) : Prop where
  pages : request.buf.toNat / PAGE_FRAME_SIZE + min (page_frame_count_needed request).toNat k.paging.freeCount ≤
    KERNEL_PAGE.toNat
  blank : ∀ d, FirstFit.firstFit (fun d => k.paging.page_directory_used d == false) 0 = some d →
    ∀ p, KERNEL_PAGE < p → ¬ (k.paging.directory (.list d) p).UserMapped

theorem first_unused {s s' : PagingState} {d : DirectorySlot}
    (ran : s.paging_create_new_page_directory = some (some (.list d),s')) :
    FirstFit.firstFit (fun d => s.page_directory_used d == false) 0 = some d := by
  unfold PagingState.paging_create_new_page_directory at ran
  split at ran
  · cases ran
  · obtain ⟨e,found,same⟩ := Option.map_eq_some_iff.mp ran
    cases same
    exact found

section created
variable {i : Slot} {d : DirectorySlot} {opened : PagingState} (created : Created k k' request i d opened)
include created

theorem Created.entry_cases {j : Nat} (turn : j < (page_frame_count_needed request).toNat) :
    j < k.paging.freeCount ∧ (k'.paging.directory (.list d) (pageAt request.buf j)).flag = userFlag ∨
      k.paging.freeCount ≤ j ∧
        k'.paging.directory (.list d) (pageAt request.buf j) = opened.directory (.list d) (pageAt request.buf j) := by
  obtain ⟨_,count,_,_⟩ := Opened.same_pool created.opens
  have few := created.few
  have either := mapPages_entry created.below created.mapped (Nat.zero_le j) (by omega)
  rwa [count,Nat.zero_add] at either

theorem Created.entry_user {j : Nat} (turn : j < min (page_frame_count_needed request).toNat k.paging.freeCount) :
    (k'.paging.directory (.list d) (pageAt request.buf j)).flag = userFlag := by
  obtain ⟨inLoop,inPool⟩ := lt_min_iff.mp turn
  rcases created.entry_cases inLoop with ⟨_,user⟩ | ⟨more,_⟩
  · exact user
  · omega

-- An entry that no turn gave a frame is the one of the opened directory.
theorem Created.entry_kept {p : PageIndex} (untouched : ∀ j < min (page_frame_count_needed request).toNat k.paging.freeCount,
    p ≠ pageAt request.buf j) : k'.paging.directory (.list d) p = opened.directory (.list d) p := by
  by_cases mapped : ∃ j < (page_frame_count_needed request).toNat, p = pageAt request.buf j
  · obtain ⟨j,turn,rfl⟩ := mapped
    rcases created.entry_cases turn with ⟨less,_⟩ | ⟨_,same⟩
    · exact absurd rfl (untouched j (lt_min turn less))
    · exact same
  · exact mapPages_other created.mapped fun j _ high at_ => mapped ⟨j,by omega,at_⟩

theorem Created.page_toNat {j : Nat} (turn : j < min (page_frame_count_needed request).toNat k.paging.freeCount) :
    (pageAt request.buf j).toNat = request.buf.toNat / PAGE_FRAME_SIZE + j :=
  pageAt_toNat created.below (lt_of_lt_of_le (lt_min_iff.mp turn).1 created.few)

-- The pages go up one by one from below the kernel's.
theorem Created.reaches_kernel (beyond : ¬ request.buf.toNat / PAGE_FRAME_SIZE +
    min (page_frame_count_needed request).toNat k.paging.freeCount ≤ KERNEL_PAGE.toNat) :
    ∃ j < min (page_frame_count_needed request).toNat k.paging.freeCount, pageAt request.buf j = KERNEL_PAGE := by
  have start : request.buf.toNat / PAGE_FRAME_SIZE ≤ KERNEL_PAGE.toNat := by
    have low : request.buf.toNat < 0xC0000000 := BitVec.lt_def.mp created.below
    rw [show KERNEL_PAGE.toNat = 768 from rfl]
    simp only [PAGE_FRAME_SIZE]
    omega
  obtain ⟨j,at_⟩ : ∃ j, request.buf.toNat / PAGE_FRAME_SIZE + j = KERNEL_PAGE.toNat := Nat.le.dest start
  have turn : j < min (page_frame_count_needed request).toNat k.paging.freeCount := by omega
  exact ⟨j,turn,BitVec.eq_of_toNat_eq ((created.page_toNat turn).trans at_)⟩

theorem Created.clears_iff (first : FirstFit.firstFit (fun d => k.paging.page_directory_used d == false) 0 = some d) :
    KernelHalfKept (k'.paging.directory (.list d)) ↔ k.Clears request := by
  constructor
  · intro half
    refine ⟨?_,fun e found p above user => ?_⟩
    · by_contra beyond
      obtain ⟨j,turn,here⟩ := created.reaches_kernel beyond
      have notUser := half.notUser
      rw [← here,created.entry_user turn] at notUser
      cases notUser
    · cases found.symm.trans first
      refine half.above p (BitVec.le_of_lt above) ?_
      by_cases mapped : ∃ j < min (page_frame_count_needed request).toNat k.paging.freeCount, p = pageAt request.buf j
      · obtain ⟨j,turn,rfl⟩ := mapped
        unfold PageDirectoryEntry.UserMapped
        rw [created.entry_user turn]
        exact ⟨rfl,rfl⟩
      · rw [created.entry_kept fun j turn at_ => mapped ⟨j,turn,at_⟩,
          created.opens.others _ p (Or.inr (BitVec.ne_of_lt above).symm)]
        exact user
  · intro clears
    have untouched {p : PageIndex} (above : KERNEL_PAGE ≤ p) :
        ∀ j < min (page_frame_count_needed request).toNat k.paging.freeCount, p ≠ pageAt request.buf j := by
      rintro j turn rfl
      have high := BitVec.le_def.mp above
      rw [created.page_toNat turn] at high
      have pages := clears.pages
      omega
    have here : k'.paging.directory (.list d) KERNEL_PAGE = kernel_entry :=
      (created.entry_kept (untouched (BitVec.le_refl _))).trans created.opens.kernel
    refine ⟨by rw [here]; rfl,by rw [here]; rfl,by rw [here]; rfl,fun p above user => ?_⟩
    by_cases kernel : p = KERNEL_PAGE
    · rw [kernel,here] at user
      cases user.1
    · rw [created.entry_kept (untouched above),created.opens.others _ p (Or.inr kernel)] at user
      exact clears.blank d first p (BitVec.lt_of_le_ne above (Ne.symm kernel)) user

end created

-- Whatever the state of the allocator, for every request that is accepted.
theorem kernelHalf_iff (succeeds : k.process_create_user_process request = some (PROCESS_CREATE_SUCCESS,k')) :
    ∃ i page_dir, k.process_list_get_inactive_index = some i ∧
      (k'.process_list i).context.page_directory_virtual_addr = some page_dir ∧
      (KernelHalfKept (k'.paging.directory page_dir) ↔ k.Clears request) := by
  rcases create_cases succeeds with ⟨failed,_⟩ | ⟨_,i,d,opened,created⟩
  · exact absurd rfl failed
  · obtain ⟨j,page_dir,_,_,creates,context⟩ := creates_of_create succeeds
    cases creates.slot.symm.trans created.slot
    have same : some page_dir = some (.list d) := by
      rw [← created.directory,context]
      rfl
    cases same
    exact ⟨i,.list d,created.slot,created.directory,created.clears_iff (first_unused creates.opens)⟩

-- One byte loaded at the last page below the kernel: the page for the stack is the
-- kernel's own.
def overhang : FAT32DriverRequest := {shellRequest with buf := 0xBFC00000,buffer_size := 1}

theorem overhang_creates : creates overhang 15 2 = true := by decide +kernel

theorem kernelHalf_iff_overhang : ∃ history k k' i page_dir, Run Step boot history k ∧
    history.map Transition.action = setup ∧
    k.process_create_user_process overhang = some (PROCESS_CREATE_SUCCESS,k') ∧
    k.process_list_get_inactive_index = some i ∧
    (k'.process_list i).context.page_directory_virtual_addr = some page_dir ∧
    (KernelHalfKept (k'.paging.directory page_dir) ↔ k.Clears overhang) := by
  obtain ⟨history,k,k',run,actions,succeeds,_⟩ := setup_create overhang_creates
  obtain ⟨i,page_dir,slot,directory,half⟩ := kernelHalf_iff succeeds
  exact ⟨history,k,k',i,page_dir,run,actions,succeeds,slot,directory,half⟩

theorem overhang_maps_kernel : ∃ history k k' i page_dir, Run Step boot history k ∧
    history.map Transition.action = setup ∧
    k.process_create_user_process overhang = some (PROCESS_CREATE_SUCCESS,k') ∧
    k.process_list_get_inactive_index = some i ∧
    (k'.process_list i).context.page_directory_virtual_addr = some page_dir ∧
    ¬ KernelHalfKept (k'.paging.directory page_dir) := by
  have checked : (boot.replay setup).any (fun k => (k.process_create_user_process overhang).any fun result =>
      result.1 = PROCESS_CREATE_SUCCESS ∧ k.process_list_get_inactive_index = some 15 ∧
        (result.2.process_list 15).context.page_directory_virtual_addr.any fun page_dir =>
          (result.2.paging.directory page_dir KERNEL_PAGE).flag.user_bit) = true := by decide +kernel
  obtain ⟨k,replayed,checked⟩ := (Option.any_eq_true _ _).mp checked
  obtain ⟨⟨code,k'⟩,succeeds,checked⟩ := (Option.any_eq_true _ _).mp checked
  obtain ⟨rfl,slot,checked⟩ := of_decide_eq_true checked
  obtain ⟨page_dir,directory,user⟩ := (Option.any_eq_true _ _).mp checked
  obtain ⟨history,run,actions⟩ := replay_run replayed
  refine ⟨history,k,k',15,page_dir,run,actions,succeeds,slot,directory,fun half => ?_⟩
  rw [half.notUser] at user
  cases user

end KernelState

end Sosis.Kernel
