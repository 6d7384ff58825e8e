import Sosis.MemoryIsolation

-- What process_destroy gives back, and the run in which it gives back the kernel's frame:
-- a creation whose last page would lie on the kernel's has it in its list all the same,
-- although it got no frame.
namespace Sosis.Kernel
open TransitionRuns PagingState
open Fat32 (Word FAT32DriverRequest)

namespace KernelState
variable {k k' : KernelState} {i : Slot}

theorem destroy_returns_frames_iff (accounted : Accounted k) (active : k.active i = true) (below : PagesBelow k i) :
    (∃ k', k.process_destroy (k.pid i) = some (true,k') ∧ FramesReturned k k' i) ↔ FirstNamed k i ∧ SparesKernel k i := by
  constructor
  · rintro ⟨k',ran,returned⟩
    exact returned.conditions ran accounted active below
  · rintro ⟨first,spares⟩
    exact spares.returns first accounted active below

-- One process with two pages in its list, of which the second got no frame.
def lonePaging : PagingState where
  directory
    | .kernel => boot.paging.directory .kernel
    | .list d => fun page => if d = 0 ∧ page = 0 then ⟨userFlag,frameIndex 1⟩
        else if d = 0 ∧ page = 0x300 then kernel_entry else .zero
  page_directory_used d := d == 0
  page_dir_free := PAGING_DIRECTORY_TABLE_MAX_COUNT - 1
  page_manager_state := ⟨fun f => f.val < 2,BitVec.ofNat 32 (PAGE_FRAME_MAX_COUNT-2),2⟩

def lonePcb (pid : Word) : ProcessControlBlock where
  metadata := ⟨pid,.READY,true,fun _ => 0⟩
  context := {ProcessControlBlock.zero.context with page_directory_virtual_addr := some (.list 0)}
  memory := ⟨fun n => BitVec.ofNat 32 (PAGE_FRAME_SIZE * n.val),2⟩

def lone (i : Slot) (pid : Word) : KernelState where
  paging := lonePaging
  process_list := Function.update boot.process_list i (lonePcb pid)
  active_process_count := 1
  cur_idx := -1
  total_pid := 1
  cr3 := .kernel

theorem lone_self (pid : Word) : (lone i pid).process_list i = lonePcb pid := Function.update_self ..

theorem lone_other {j : Slot} (pid : Word) (other : j ≠ i) : (lone i pid).process_list j = .zero := Function.update_of_ne other ..

theorem lone_active {pid : Word} {j : Slot} (active : (lone i pid).active j = true) : j = i := by
  by_contra other
  rw [KernelState.active,lone_other pid other] at active
  cases active

theorem lone_maps {pid : Word} {j : Slot} {page frame : PageIndex} :
    (lone i pid).Maps j page frame ↔ j = i ∧ page = 0 ∧ frame = frameIndex 1 := by
  constructor
  · rintro ⟨active,d,at_,present,rfl,notKernel⟩
    obtain rfl := lone_active active
    rw [lone_self] at at_
    cases at_
    by_cases first : page = 0
    · subst first
      exact ⟨rfl,rfl,rfl⟩
    · by_cases kernel : page = 0x300
      · subst kernel
        exact absurd rfl (notKernel rfl)
      · have absent : (lone j pid).paging.directory (.list 0) page = .zero :=
          (if_neg fun both => first both.2).trans (if_neg fun both => kernel both.2)
        rw [Present,absent] at present
        cases present
  · rintro ⟨rfl,rfl,rfl⟩
    refine ⟨?_,.list 0,?_,rfl,rfl,fun same => absurd same (by decide)⟩
    · rw [KernelState.active,lone_self]
      rfl
    · rw [lone_self]
      rfl

theorem lone_accounted (i : Slot) (pid : Word) : Accounted (lone i pid) := by
  have counted : lonePaging.freeCount = lonePaging.freeFrames.card := by decide +kernel
  refine ⟨rfl,fun j page frame maps => ?_,fun f marked => ?_,fun j j' page page' frame maps maps' => ?_,counted,
    Or.inl ⟨2,rfl,rfl,fun g less => decide_eq_true less⟩,fun j active => ?_,fun j j' active active' _ => ?_,
    fun j j' same named => ?_⟩
  · obtain ⟨_,_,rfl⟩ := lone_maps.mp maps
    exact ⟨1,rfl,rfl⟩
  · have low : f.val < 2 := of_decide_eq_true marked
    by_cases zero : f = 0
    · exact Or.inl zero
    · have one : f = 1 := Fin.ext (Nat.le_antisymm (Nat.le_of_lt_succ low) (Nat.one_le_iff_ne_zero.mpr fun none => zero (Fin.ext none)))
      exact Or.inr ⟨i,0,lone_maps.mpr ⟨rfl,rfl,one ▸ rfl⟩⟩
  · obtain ⟨rfl,rfl,_⟩ := lone_maps.mp maps
    obtain ⟨rfl,rfl,_⟩ := lone_maps.mp maps'
    exact ⟨rfl,rfl⟩
  · cases lone_active active
    exact ⟨0,by rw [lone_self]; rfl⟩
  · exact (lone_active active).trans (lone_active active').symm
  · have here {j : Slot} (named : (lone i pid).pid j ≠ 0) : j = i := by
      by_contra other
      exact named (by rw [KernelState.pid,lone_other pid other]; rfl)
    exact (here named).trans (here (same ▸ named)).symm

theorem lone_below (i : Slot) (pid : Word) : PagesBelow (lone i pid) i := by
  intro page frame maps
  obtain ⟨_,rfl,_⟩ := lone_maps.mp maps
  decide

theorem destroy_returns_frames_iff_lone :
    (∃ k', (lone 0 1).process_destroy ((lone 0 1).pid 0) = some (true,k') ∧ FramesReturned (lone 0 1) k' 0) ↔
      FirstNamed (lone 0 1) 0 ∧ SparesKernel (lone 0 1) 0 :=
  destroy_returns_frames_iff (lone_accounted 0 1) rfl (lone_below 0 1)

-- The processes are the only ones that have user pages.
structure Tenanted (k : KernelState) : Prop where
  lists : ∀ d, k.paging.page_directory_used d = true →
    ∃ i, k.active i = true ∧ (k.process_list i).context.page_directory_virtual_addr = some (.list d)
  kernel : ∀ page, ¬ k.paging.UserPage .kernel page

section accounted
variable (separate : Separate k.paging) (lodged : Lodged k)
include separate lodged

theorem Separate.maps_iff {page frame : PageIndex} : k.Maps i page frame ↔ k.active i = true ∧
    ∃ d, (k.process_list i).context.page_directory_virtual_addr = some (.list d) ∧ k.paging.UserPage (.list d) page ∧
      (k.paging.directory (.list d) page).lower_address = frame := by
  constructor
  · rintro ⟨active,d,at_,present,frame,notEntry⟩
    obtain ⟨d',housed,_⟩ := lodged.housed i active
    cases at_.symm.trans housed
    refine ⟨active,d',at_,separate.sided.user_iff.mpr ⟨present,fun kernel => ?_⟩,frame⟩
    rcases separate.sided _ page present with ⟨_,entry⟩ | ⟨below,_⟩
    · exact notEntry kernel entry
    · exact notKernel_of_below below kernel
  · rintro ⟨active,d,at_,user,frame⟩
    obtain ⟨present,notKernel⟩ := separate.sided.user_iff.mp user
    exact ⟨active,_,at_,present,frame,fun kernel => absurd kernel notKernel⟩

theorem Separate.accounted (pooled : Pooled k.paging) (tenanted : Tenanted k)
    (hint : k.paging.HintFree ∨ ∀ f, k.paging.frames f = true) : Accounted k := by
  refine ⟨(separate.exclusive.taken 0).mpr (Or.inl rfl),fun i page frame maps => ?_,fun f marked => ?_,
    fun i j page page' frame maps maps' => ?_,separate.exclusive.count,?_,fun i active => ?_,lodged.apart,lodged.table.distinct⟩
  · obtain ⟨_,d,_,user,rfl⟩ := (Separate.maps_iff separate lodged).mp maps
    obtain ⟨f,_,at_⟩ := separate.ranged.mapped _ _ user
    exact ⟨f,at_,(separate.exclusive.taken f).mpr (Or.inr ⟨_,_,user,at_⟩)⟩
  · refine ((separate.exclusive.taken f).mp marked).imp id ?_
    rintro ⟨_ | d,page,user,frame⟩
    · exact absurd user (tenanted.kernel page)
    · have used : k.paging.page_directory_used d = true := by
        by_contra unused
        obtain ⟨present,notKernel⟩ := separate.sided.user_iff.mp user
        exact pooled.cleared d (by simpa using unused) page notKernel present
      obtain ⟨i,active,at_⟩ := tenanted.lists d used
      exact ⟨i,page,(Separate.maps_iff separate lodged).mpr ⟨active,d,at_,user,frame⟩⟩
  · obtain ⟨active,d,at_,user,frame⟩ := (Separate.maps_iff separate lodged).mp maps
    obtain ⟨active',d',at_',user',frame'⟩ := (Separate.maps_iff separate lodged).mp maps'
    obtain ⟨same,page⟩ := separate.exclusive.distinct _ _ _ _ user user' (frame.trans frame'.symm)
    exact ⟨lodged.apart i j active active' (at_.trans (same ▸ at_'.symm)),page⟩
  · refine hint.imp (fun free => ⟨⟨k.paging.hint,separate.ranged.hint⟩,rfl,free _ rfl,fun g less => ?_⟩) id
    by_contra open_
    exact absurd less (Nat.not_lt.mpr (separate.hinted.above g (by simpa using open_)))
  · obtain ⟨d,at_,_⟩ := lodged.housed i active
    exact ⟨d,at_⟩

omit lodged in
theorem Separate.below (lodged : Lodged k) : PagesBelow k i := by
  intro page frame maps
  obtain ⟨_,d,_,user,_⟩ := (Separate.maps_iff separate lodged).mp maps
  obtain ⟨present,notKernel⟩ := separate.sided.user_iff.mp user
  rcases separate.sided _ page present with ⟨kernel,_⟩ | ⟨below,_⟩
  · exact absurd kernel notKernel
  · exact below

end accounted

theorem Secure.kept (secure : Secure k) {a : KernelAction} (obeys : k.Obeys a) (secludes : k.Secludes a)
    (ran : k.operate a = some k') : Secure k' := by
  have lodged := secure.lodged.kept obeys.1 obeys.2 ran
  cases a with
  | init | create =>
    rcases creation_cases ran with rfl | ⟨_,_,_,created⟩
    · exact secure
    · exact secure.created created secludes
  | first => exact secure.still (first_still ran) lodged
  | tick => exact secure.still (tick_still ran) lodged
  | destroy pid =>
    obtain ⟨_,j,active,named⟩ := obeys.1
    exact secure.destroyed active named (obeys.2 j active named) ran

def sevenPages : FAT32DriverRequest := {shellRequest with buffer_size := 6 * BitVec.ofNat 32 PAGE_FRAME_SIZE}

-- Two pages, of which the second is the kernel's.
def lastPage : FAT32DriverRequest := {shellRequest with buf := 0xBFC00000,buffer_size := 1}

def filling : List KernelAction := [.init,.first,.create sevenPages,.create sevenPages,.create sevenPages,.create sevenPages]

-- What can be looked up in the last state.
structure Filled (k : KernelState) : Prop where
  process : k.active 11 = true ∧ k.pid 11 = 6
  directory : (k.process_list 11).context.page_directory_virtual_addr = some (.list 5)
  entry : (k.paging.directory (.list 5) 0x300).flag.present_bit = true
  list : 1 < (k.process_list 11).memory.page_frame_used_count.toNat ∧
    page_index ((k.process_list 11).memory.virtual_addr_used 1) = 0x300
  full : ∀ f, k.paging.frames f = true
  tenants : ∀ d, k.paging.page_directory_used d = true →
    ∃ i, k.active i = true ∧ (k.process_list i).context.page_directory_virtual_addr = some (.list d)
  kernel : ∀ j ∈ List.range PAGE_ENTRY_COUNT, (k.paging.directory .kernel (BitVec.ofNat 10 j)).flag.user_bit = false

instance (k : KernelState) : Decidable (Filled k) :=
  decidable_of_iff (_ ∧ _ ∧ _ ∧ _ ∧ _ ∧ _ ∧ _) ⟨fun ⟨a,b,c,d,e,f,g⟩ => ⟨a,b,c,d,e,f,g⟩,fun ⟨a,b,c,d,e,f,g⟩ => ⟨a,b,c,d,e,f,g⟩⟩

theorem Filled.tenanted (filled : Filled k) : Tenanted k := by
  refine ⟨filled.tenants,fun page user => ?_⟩
  have bit := filled.kernel page.toNat (List.mem_range.mpr page.isLt)
  rw [ofNat_toNat] at bit
  exact absurd (bit.symm.trans user.2) (by decide)

theorem lastPage_frees_kernel : ∃ (history : List (Transition KernelState KernelAction)) (k : KernelState) (i : Slot),
    Run (Next Follows) boot history k ∧ history.map Transition.action = filling ++ [.create lastPage] ∧
    Accounted k ∧ k.active i = true ∧ PagesBelow k i ∧ k.pid i = 6 ∧
    ¬ ∃ k', k.process_destroy (k.pid i) = some (true,k') ∧ FramesReturned k k' i := by
  have checked : (boot.operates (fun k a => k.Obeys a ∧ k.Secludes a) filling).any (fun k =>
      decide ((k.paging.freeCount ≠ 0 → k.paging.HintFree) ∧ k.paging.freeCount = 1 ∧ k.Follows (.create lastPage)) &&
      (k.operate (.create lastPage)).any fun k' => decide (Filled k')) = true := by
    decide +kernel
  obtain ⟨before,operated,found⟩ := (Option.any_eq_true _ _).mp checked
  obtain ⟨met,created⟩ := Bool.and_eq_true_iff.mp found
  obtain ⟨free,one,follows⟩ := of_decide_eq_true met
  obtain ⟨k,ran,filled⟩ := (Option.any_eq_true _ _).mp created
  have filled := of_decide_eq_true filled
  obtain ⟨history,run,actions⟩ := operates_run operated
  have secure : Secure before := run.invariant boot_secure fun _ _ _ secure step => secure.kept step.1.1 step.1.2 step.2
  have lodged := secure.lodged.kept follows trivial ran
  -- the page that gets the last frame is below the kernel's
  have below : ∀ j, j < (page_frame_count_needed lastPage).toNat → j < before.paging.freeCount →
      (pageAt lastPage.buf j).toNat < 0x300 := by
    intro j _ counted
    obtain rfl : j = 0 := by omega
    decide
  obtain ⟨separate,pooled⟩ : Separate k.paging ∧ Pooled k.paging := by
    rcases creation_cases ran with rfl | ⟨_,_,_,opens⟩
    · exact ⟨secure.separate,secure.pooled⟩
    · exact ⟨opens.separate secure.pooled secure.separate free below,opens.paging_pooled secure.pooled⟩
  have accounted := Separate.accounted separate lodged pooled filled.tenanted (Or.inr filled.full)
  have small := Separate.below (i := 11) separate lodged
  have onward : Run (Next Follows) boot history before := run.mono fun _ _ _ step => ⟨step.1.1.1,step.2⟩
  refine ⟨_,k,11,onward.snoc ⟨follows,ran⟩,by rw [List.map_append,actions]; rfl,accounted,filled.process.1,small,
    filled.process.2,?_⟩
  rintro ⟨k',destroyed,returned⟩
  obtain ⟨_,spares⟩ := returned.conditions destroyed accounted filled.process.1 small
  obtain ⟨_,spared⟩ := spares 1 filled.list.1
  exact spared filled.list.2 _ filled.directory filled.entry

end KernelState

end Sosis.Kernel
