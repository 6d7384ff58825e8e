import Sosis.ProcessTable

-- What a process starts with, against what the process before it left in the slot.
namespace Sosis.Kernel
open Fat32 (Word FAT32DriverRequest)

-- Two states that differ only in the blocks of processes that are not active.
structure SameLiving (k k' : KernelState) : Prop where
  active : ∀ i, k'.active i = k.active i
  living : ∀ i, k.active i = true → k'.process_list i = k.process_list i
  paging : k'.paging = k.paging
  count : k'.active_process_count = k.active_process_count
  cur_idx : k'.cur_idx = k.cur_idx
  total_pid : k'.total_pid = k.total_pid
  cr3 : k'.cr3 = k.cr3

-- The registers process_context_switch loads.
structure Context.StartsAs (ctx ctx' : Context) : Prop where
  cpu : ctx'.cpu = ctx.cpu
  eip : ctx'.eip = ctx.eip
  eflags : ctx'.eflags = ctx.eflags

def INITIAL_EFLAGS : Word := CPU_EFLAGS_BASE_FLAG ||| CPU_EFLAGS_FLAG_INTERRUPT_ENABLE

-- The registers that a creation does not assign, and the flags it does not set.
structure Context.LeftAlike (ctx ctx' : Context) : Prop where
  edi : ctx'.cpu.edi = ctx.cpu.edi
  esi : ctx'.cpu.esi = ctx.cpu.esi
  ebp : ctx'.cpu.ebp = ctx.cpu.ebp
  ebx : ctx'.cpu.ebx = ctx.cpu.ebx
  edx : ctx'.cpu.edx = ctx.cpu.edx
  ecx : ctx'.cpu.ecx = ctx.cpu.ecx
  eax : ctx'.cpu.eax = ctx.cpu.eax
  eflags : ctx'.eflags &&& ~~~INITIAL_EFLAGS = ctx.eflags &&& ~~~INITIAL_EFLAGS

-- The context of a new process, over the one its slot held.
def Context.created (old : Context) (request : FAT32DriverRequest) (page_dir : PageDirectoryPtr) : Context where
  cpu := {old.cpu with
    ds := GDT_USER_DATA_SEGMENT_SELECTOR
    es := GDT_USER_DATA_SEGMENT_SELECTOR
    fs := GDT_USER_DATA_SEGMENT_SELECTOR
    gs := GDT_USER_DATA_SEGMENT_SELECTOR
    esp := 0x400000}
  eip := request.buf
  eflags := old.eflags ||| INITIAL_EFLAGS
  page_directory_virtual_addr := some page_dir

theorem or_eq_iff {a b mask : Word} : a ||| mask = b ||| mask ↔ a &&& ~~~mask = b &&& ~~~mask := by
  have masked (w : Word) : (w ||| mask) &&& ~~~mask = w &&& ~~~mask := by
    rw [BitVec.and_or_distrib_right,BitVec.and_not_self]
    exact BitVec.or_zero
  have restored (w : Word) : (w &&& ~~~mask) ||| mask = w ||| mask := by
    ext j inside
    cases bit : mask[j] <;> simp [bit]
  constructor
  · intro same
    rw [← masked a,← masked b,same]
  · intro same
    rw [← restored a,← restored b,same]

theorem Context.startsAs_iff (old old' : Context) (request : FAT32DriverRequest) (page_dir page_dir' : PageDirectoryPtr) :
    (old.created request page_dir).StartsAs (old'.created request page_dir') ↔ old.LeftAlike old' := by
  constructor
  · rintro ⟨cpu,_,eflags⟩
    simp only [Context.created,CPURegister.mk.injEq] at cpu
    obtain ⟨edi,esi,ebp,_,ebx,edx,ecx,eax,_⟩ := cpu
    exact ⟨edi,esi,ebp,ebx,edx,ecx,eax,or_eq_iff.mp eflags⟩
  · intro left
    refine ⟨?_,rfl,or_eq_iff.mpr left.eflags⟩
    simp only [Context.created,left.edi,left.esi,left.ebp,left.ebx,left.edx,left.ecx,left.eax]

-- What the loop maps does not depend on the addresses recorded before.
theorem mapPages_same {page_dir : PageDirectoryPtr} {buf : Word} {turns i : Nat}
    {used used' : Fin PROCESS_PAGE_FRAME_COUNT_MAX → Word} {s s' : PagingState}
    (ran : mapPages page_dir buf turns i used s = some (used',s')) (other : Fin PROCESS_PAGE_FRAME_COUNT_MAX → Word) :
    ∃ mapped, mapPages page_dir buf turns i other s = some (mapped,s') := by
  induction turns generalizing i used other s with
  | zero =>
    cases ran
    exact ⟨other,rfl⟩
  | succ turns ih =>
    obtain ⟨bound,r,middle,allocated,later⟩ := mapPages_succ.mp ran
    obtain ⟨mapped,maps⟩ := ih later (Function.update other ⟨i,bound⟩ _)
    exact ⟨mapped,mapPages_succ.mpr ⟨bound,r,middle,allocated,maps⟩⟩

namespace SameLiving
variable {k k' k₁ : KernelState}

theorem inactiveFrom (same : SameLiving k k') (turns : Nat) (idx : Slot) :
    k'.inactiveFrom turns idx = k.inactiveFrom turns idx := by
  induction turns generalizing idx with
  | zero => rfl
  | succ turns ih =>
    unfold KernelState.inactiveFrom
    rw [same.active,ih]

theorem inactive_index (same : SameLiving k k') :
    k'.process_list_get_inactive_index = k.process_list_get_inactive_index := by
  unfold KernelState.process_list_get_inactive_index
  simp only [same.count,same.cur_idx,same.inactiveFrom]

end SameLiving

namespace KernelState
variable {k k' k₁ : KernelState} {request : FAT32DriverRequest}

structure Creates (k : KernelState) (request : FAT32DriverRequest) (i : Slot) (page_dir : PageDirectoryPtr)
    (opened mapped : PagingState) : Prop where
  room : ¬ k.active_process_count ≥ PROCESS_COUNT_MAX
  below : ¬ request.buf ≥ KERNEL_VIRTUAL_ADDRESS_BASE
  enough : ¬ (!k.paging.paging_allocate_check (page_frame_count_needed request) ||
    page_frame_count_needed request > BitVec.ofNat 32 PROCESS_PAGE_FRAME_COUNT_MAX) = true
  slot : k.process_list_get_inactive_index = some i
  opens : k.paging.paging_create_new_page_directory = some (some page_dir,opened)
  maps : ∃ used, mapPages page_dir request.buf (page_frame_count_needed request).toNat 0
    (k.process_list i).memory.virtual_addr_used opened = some (used,mapped)

theorem creates_of_create (ran : k.process_create_user_process request = some (PROCESS_CREATE_SUCCESS,k₁)) :
    ∃ i page_dir opened mapped, k.Creates request i page_dir opened mapped ∧
      (k₁.process_list i).context = (k.process_list i).context.created request page_dir := by
  unfold process_create_user_process at ran
  split at ran
  · cases ran
  · rename_i room
    split at ran
    · cases ran
    · rename_i below
      split at ran
      · cases ran
      · rename_i enough
        simp only [Option.bind_eq_bind,Option.bind_eq_some_iff] at ran
        obtain ⟨i,slot,⟨directory,opened⟩,opens,page_dir,rfl,⟨used,mapped⟩,maps,same⟩ := ran
        cases same
        refine ⟨i,page_dir,opened,mapped,⟨room,below,enough,slot,opens,used,maps⟩,?_⟩
        simp only [Function.update_self]
        rfl

theorem Creates.create {i : Slot} {page_dir : PageDirectoryPtr} {opened mapped : PagingState}
    (creates : k.Creates request i page_dir opened mapped) :
    ∃ k₁, k.process_create_user_process request = some (PROCESS_CREATE_SUCCESS,k₁) ∧
      (k₁.process_list i).context = (k.process_list i).context.created request page_dir := by
  obtain ⟨used,maps⟩ := creates.maps
  have succeeds : ∃ k₁, k.process_create_user_process request = some (PROCESS_CREATE_SUCCESS,k₁) := by
    unfold process_create_user_process
    rw [if_neg creates.room,if_neg creates.below,if_neg creates.enough]
    exact ⟨_,Option.bind_eq_some_iff.mpr ⟨i,creates.slot,Option.bind_eq_some_iff.mpr ⟨_,creates.opens,
      Option.bind_eq_some_iff.mpr ⟨_,rfl,Option.bind_eq_some_iff.mpr ⟨_,maps,rfl⟩⟩⟩⟩⟩
  obtain ⟨k₁,succeeds⟩ := succeeds
  obtain ⟨j,page_dir',_,_,again,context⟩ := creates_of_create succeeds
  cases again.slot.symm.trans creates.slot
  cases again.opens.symm.trans creates.opens
  exact ⟨k₁,succeeds,context⟩

end KernelState

theorem SameLiving.replaced {k : KernelState} {i : Slot} {pcb : ProcessControlBlock} (dead : k.active i = false)
    (deadToo : pcb.metadata.active = false) :
    SameLiving k {k with process_list := Function.update k.process_list i pcb} := by
  refine ⟨fun j => ?_,fun j active => ?_,rfl,rfl,rfl,rfl,rfl⟩
  · by_cases here : j = i
    · rw [here,dead]
      change (Function.update k.process_list i pcb i).metadata.active = false
      rw [Function.update_self,deadToo]
    · change (Function.update k.process_list i pcb j).metadata.active = k.active j
      rw [Function.update_of_ne here]
      rfl
  · refine Function.update_of_ne ?_ _ _
    rintro rfl
    rw [dead] at active
    cases active

theorem SameLiving.creates {k k' : KernelState} {request : FAT32DriverRequest} {i : Slot} {page_dir : PageDirectoryPtr}
    {opened mapped : PagingState} (same : SameLiving k k') (creates : k.Creates request i page_dir opened mapped) :
    k'.Creates request i page_dir opened mapped := by
  obtain ⟨used,maps⟩ := creates.maps
  refine ⟨same.count ▸ creates.room,creates.below,same.paging ▸ creates.enough,same.inactive_index ▸ creates.slot,
    same.paging ▸ creates.opens,mapPages_same maps _⟩

-- Two runs of the same creation, over slots that different processes died in.
theorem creation_clean_iff {k k' k₁ : KernelState} {request : FAT32DriverRequest} (same : SameLiving k k')
    (succeeds : k.process_create_user_process request = some (PROCESS_CREATE_SUCCESS,k₁)) :
    ∃ i k₁', k.process_list_get_inactive_index = some i ∧
      k'.process_create_user_process request = some (PROCESS_CREATE_SUCCESS,k₁') ∧
      ((k₁.process_list i).context.StartsAs (k₁'.process_list i).context ↔
        (k.process_list i).context.LeftAlike (k'.process_list i).context) := by
  obtain ⟨i,page_dir,opened,mapped,creates,context⟩ := KernelState.creates_of_create succeeds
  obtain ⟨k₁',succeeds',context'⟩ := (same.creates creates).create
  refine ⟨i,k₁',creates.slot,succeeds',?_⟩
  rw [context,context']
  exact Context.startsAs_iff _ _ request page_dir page_dir

open KernelState (helperRequest)

-- What a process killed with 1 in eax and its direction flag set leaves behind.
def leftover : ProcessControlBlock where
  metadata := ⟨2,.READY,false,shellName⟩
  context := ⟨⟨0,0,0,0x400000,0,0,0,1,0x23,0x23,0x23,0x23⟩,0,0x602,some (.list 1)⟩
  memory := ⟨fun _ => 0,0⟩

-- After boot the next process goes to slot 15.
theorem setup_helper : ∃ k k₁, kernel_setup = some k ∧ k.active 15 = false ∧ k.process_list_get_inactive_index = some 15 ∧
    (k.process_list 15).context.cpu.eax = 0 ∧
    k.process_create_user_process helperRequest = some (PROCESS_CREATE_SUCCESS,k₁) := by
  have checked : kernel_setup.any (fun k => k.active 15 = false ∧ k.process_list_get_inactive_index = some 15 ∧
      (k.process_list 15).context.cpu.eax = 0 ∧
      (k.process_create_user_process helperRequest).any (fun result => result.1 = PROCESS_CREATE_SUCCESS)) = true := by
    decide +kernel
  obtain ⟨k,booted,checked⟩ := (Option.any_eq_true _ _).mp checked
  obtain ⟨dead,slot,eax,succeeds⟩ := of_decide_eq_true checked
  obtain ⟨⟨code,k₁⟩,succeeds,same⟩ := (Option.any_eq_true _ _).mp succeeds
  cases of_decide_eq_true same
  exact ⟨k,k₁,booted,dead,slot,eax,succeeds⟩

theorem creation_clean_iff_leftover : ∃ k i k₁ k₁', kernel_setup = some k ∧ k.process_list_get_inactive_index = some i ∧
    k.process_create_user_process helperRequest = some (PROCESS_CREATE_SUCCESS,k₁) ∧
    KernelState.process_create_user_process {k with process_list := Function.update k.process_list 15 leftover} helperRequest =
      some (PROCESS_CREATE_SUCCESS,k₁') ∧
    ((k₁.process_list i).context.StartsAs (k₁'.process_list i).context ↔
      (k.process_list i).context.LeftAlike (Function.update k.process_list 15 leftover i).context) := by
  obtain ⟨k,k₁,booted,dead,_,_,succeeds⟩ := setup_helper
  have same := SameLiving.replaced dead (show leftover.metadata.active = false from rfl)
  obtain ⟨i,k₁',slot,succeeds',clean⟩ := creation_clean_iff same succeeds
  exact ⟨k,i,k₁,k₁',booted,slot,succeeds,succeeds',clean⟩

-- The new process starts with the dead one's eax and with its direction flag.
theorem leftover_inherited : ∃ k k' k₁ k₁', kernel_setup = some k ∧ SameLiving k k' ∧
    k.process_list_get_inactive_index = some 15 ∧
    k.process_create_user_process helperRequest = some (PROCESS_CREATE_SUCCESS,k₁) ∧
    k'.process_create_user_process helperRequest = some (PROCESS_CREATE_SUCCESS,k₁') ∧
    ¬ (k₁.process_list 15).context.StartsAs (k₁'.process_list 15).context := by
  obtain ⟨k,k₁,booted,dead,slot,eax,succeeds⟩ := setup_helper
  have same := SameLiving.replaced dead (show leftover.metadata.active = false from rfl)
  obtain ⟨i,page_dir,_,_,creates,context⟩ := KernelState.creates_of_create succeeds
  obtain ⟨k₁',succeeds',context'⟩ := (same.creates creates).create
  cases creates.slot.symm.trans slot
  refine ⟨k,_,k₁,k₁',booted,same,slot,succeeds,succeeds',fun starts => ?_⟩
  rw [context,context',Context.startsAs_iff] at starts
  have inherited := starts.eax
  rw [eax] at inherited
  simp [leftover] at inherited

end Sosis.Kernel
