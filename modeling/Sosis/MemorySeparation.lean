import Sosis.MemoryAccess
import Sosis.ProcessFrames

-- What keeps the memories of the processes apart: in every run whose creations stay
-- below the kernel and start on a free frame, no two pages lie on one frame, and none
-- but the kernel's lies on the kernel's.
namespace Sosis.Kernel
open TransitionRuns
open Fat32 (Word FAT32DriverRequest)

namespace PagingState
variable {s s' : PagingState}

-- Every page is the kernel's entry, or a page below it that the allocator made.
def Sided (s : PagingState) : Prop := ∀ d page, s.Present d page →
  page = 0x300 ∧ s.directory d page = kernel_entry ∨ page.toNat < 0x300 ∧ (s.directory d page).flag = userFlag

structure Separate (s : PagingState) : Prop where
  exclusive : Exclusive s
  ranged : Ranged s
  hinted : Hinted s
  sided : Sided s

theorem boot_separate : Separate boot := by
  refine ⟨boot_exclusive.1,boot_exclusive.2,boot_pooled.hinted,?_⟩
  rintro (_ | d) page present
  · refine Or.inl ?_
    unfold Present boot at present
    simp only at present
    by_cases kernel : page = 0x300
    · rw [kernel]
      exact ⟨rfl,rfl⟩
    · rw [if_neg kernel] at present
      cases present
  · cases present

theorem Sided.user_iff (sided : Sided s) {d : PageDirectoryPtr} {page : PageIndex} :
    s.UserPage d page ↔ s.Present d page ∧ page ≠ 0x300 := by
  constructor
  · rintro ⟨present,user⟩
    refine ⟨present,?_⟩
    rintro rfl
    rcases sided d _ present with ⟨_,kernel⟩ | ⟨below,_⟩
    · rw [kernel] at user
      cases user
    · exact absurd below (by decide)
  · rintro ⟨present,notKernel⟩
    rcases sided d page present with ⟨kernel,_⟩ | ⟨_,flag⟩
    · exact absurd kernel notKernel
    · exact ⟨present,by rw [flag]; rfl⟩

section allocated
variable {d : PageDirectoryPtr} {page : PageIndex} {f : Frame}

theorem Allocated.separate (took : Allocated s s' d page f) (separate : Separate s) (absent : ¬ s.Present d page)
    (below : page.toNat < 0x300) (free : s.HintFree) : Separate s' := by
  have unmarked := took.hintFree_iff.mp free
  have positive : f ≠ 0 := by
    rintro rfl
    rw [(separate.exclusive.taken 0).mpr (Or.inl rfl)] at unmarked
    cases unmarked
  refine ⟨took.exclusive separate.exclusive absent unmarked,took.ranged separate.ranged positive,
    took.hinted_kept separate.hinted,fun d' page' present => ?_⟩
  by_cases here : d' = d ∧ page' = page
  · obtain ⟨rfl,rfl⟩ := here
    exact Or.inr ⟨below,congrArg PageDirectoryEntry.flag took.entry⟩
  · have same := took.others d' page' (not_and_or.mp here)
    rw [Present,same] at present
    rw [same]
    exact separate.sided d' page' present

-- While cells are left the next allocation finds one.
theorem Allocated.fresh (took : Allocated s s' d page f) (separate : Separate s) (separate' : Separate s')
    (left : s'.freeCount ≠ 0) : s'.HintFree := by
  refine took.hintFree_next separate.hinted ?_
  rw [← separate'.exclusive.count]
  exact Nat.pos_of_ne_zero left

end allocated

theorem Returned.separate {d : PageDirectoryPtr} {page : PageIndex} {f : Frame} (gave : Returned s s' d page f)
    (separate : Separate s) (notKernel : page ≠ 0x300) : Separate s' := by
  have user : s.UserPage d page := separate.sided.user_iff.mpr ⟨gave.present,notKernel⟩
  refine ⟨gave.exclusive separate.exclusive separate.ranged user,gave.ranged separate.ranged,
    gave.hinted_kept separate.hinted,fun d' page' present => ?_⟩
  by_cases here : d' = d ∧ page' = page
  · obtain ⟨rfl,rfl⟩ := here
    exact absurd present gave.gone
  · have same := gave.others d' page' (not_and_or.mp here)
    rw [Present,same] at present
    rw [same]
    exact separate.sided d' page' present

end PagingState

open PagingState

section opened
variable {s s' : PagingState} {d : DirectorySlot}

theorem Opened.user_iff (opens : Opened s s' d) (sided : Sided s) {d' : PageDirectoryPtr} {page : PageIndex} :
    (s'.UserPage d' page ↔ s.UserPage d' page) ∧ (s.UserPage d' page → s'.directory d' page = s.directory d' page) := by
  by_cases here : d' = .list d ∧ page = 0x300
  · obtain ⟨rfl,rfl⟩ := here
    have before : ¬ s.UserPage (.list d) 0x300 := fun user => (sided.user_iff.mp user).2 rfl
    refine ⟨iff_of_false (fun user => ?_) before,fun user => absurd user before⟩
    have bit := user.2
    rw [opens.kernel] at bit
    cases bit
  · have same := opens.others d' page (not_and_or.mp here)
    unfold UserPage Present
    rw [same]
    exact ⟨Iff.rfl,fun _ => rfl⟩

theorem Opened.separate (opens : Opened s s' d) (separate : Separate s) : Separate s' := by
  obtain ⟨frames,count,hint,cells⟩ := KernelState.Opened.same_pool opens
  have user {d' : PageDirectoryPtr} {page : PageIndex} (user' : s'.UserPage d' page) :
      s.UserPage d' page ∧ s'.directory d' page = s.directory d' page := by
    have before := (opens.user_iff separate.sided).1.mp user'
    exact ⟨before,(opens.user_iff separate.sided).2 before⟩
  have counted : s'.freeCount = s'.freeFrames.card := by
    rw [count,cells]
    exact separate.exclusive.count
  refine ⟨⟨fun d₁ k₁ d₂ k₂ user₁ user₂ same => ?_,fun f => ?_,counted,fun _ _ _ _ => refuses_of_count counted⟩,
    ⟨hint ▸ separate.ranged.hint,fun d' k user' => ?_⟩,⟨hint ▸ separate.hinted.hint,fun f free => ?_⟩,fun d' page present => ?_⟩
  · rw [(user user₁).2,(user user₂).2] at same
    exact separate.exclusive.distinct _ _ _ _ (user user₁).1 (user user₂).1 same
  · rw [frames,separate.exclusive.taken f]
    refine or_congr Iff.rfl (exists_congr fun d' => exists_congr fun k => ?_)
    rw [(opens.user_iff separate.sided).1]
    exact and_congr_right fun before => by rw [(opens.user_iff separate.sided).2 before]
  · rw [(user user').2]
    exact separate.ranged.mapped d' k (user user').1
  · rw [hint]
    exact separate.hinted.above f (frames ▸ free)
  · by_cases here : d' = .list d ∧ page = 0x300
    · obtain ⟨rfl,rfl⟩ := here
      exact Or.inl ⟨rfl,opens.kernel⟩
    · have same := opens.others d' page (not_and_or.mp here)
      rw [Present,same] at present
      rw [same]
      exact separate.sided d' page present

end opened

section loops
variable {s s' : PagingState} {d : PageDirectoryPtr}

-- One turn of the loop after the other: those that get no frame leave the pages alone.
theorem mapPages_separate {buf : Word} {turns i : Nat} {used used' : Fin PROCESS_PAGE_FRAME_COUNT_MAX → Word}
    (start : buf < KERNEL_VIRTUAL_ADDRESS_BASE) (separate : Separate s) (free : s.freeCount ≠ 0 → s.HintFree)
    (below : ∀ j, i ≤ j → j < i + turns → j < i + s.freeCount → (pageAt buf j).toNat < 0x300)
    (absent : ∀ j, i ≤ j → j < i + turns → j < i + s.freeCount → ¬ s.Present d (pageAt buf j))
    (ran : mapPages d buf turns i used s = some (used',s')) : Separate s' := by
  induction turns generalizing i used s with
  | zero =>
    cases ran
    exact separate
  | succ turns ih =>
    have fits := mapPages_fits ran (Nat.succ_ne_zero _)
    obtain ⟨bound,r,middle,allocated,later⟩ := mapPages_succ.mp ran
    rcases paging_allocate_cases allocated with ⟨_,none,rfl⟩ | ⟨_,left,f,took⟩
    · exact ih separate free (fun j low high counted => by omega) (fun j low high counted => by omega) later
    · have fewer := took.count
      have here := below i (Nat.le_refl _) (by omega) (by omega)
      have kept := took.separate separate (absent i (Nat.le_refl _) (by omega) (by omega)) here (free left)
      refine ih kept (took.fresh separate kept) (fun j low high counted => below j (by omega) (by omega) (by omega))
        (fun j low high counted present => ?_) later
      have other : pageAt buf j ≠ pageAt buf i := by
        intro same
        have equal := pageAt_injective start (by omega) bound same
        omega
      rw [Present,took.others d _ (Or.inr other)] at present
      exact absent j (by omega) (by omega) (by omega) present

theorem paging_free_separate {addr : Word} {r : Bool} (separate : Separate s)
    (notKernel : page_index addr ≠ 0x300) (ran : s.paging_free_user_page_frame d addr = some (r,s')) : Separate s' := by
  rcases paging_free_cases ran with ⟨_,_,rfl⟩ | ⟨_,f,gave⟩
  · exact separate
  · exact gave.separate separate notKernel

theorem freeEntries_separate {turns : Nat} (fits : turns ≤ PAGE_ENTRY_COUNT) (separate : Separate s)
    (ran : freeEntries d turns s = some s') : Separate s' := by
  induction turns generalizing s with
  | zero =>
    cases ran
    exact separate
  | succ turns ih =>
    have place : PAGE_ENTRY_COUNT - (turns+1) < PAGE_ENTRY_COUNT := by
      simp only [PAGE_ENTRY_COUNT] at fits ⊢
      omega
    simp only [freeEntries] at ran
    split at ran
    · exact ih (Nat.le_of_succ_le fits) separate ran
    · rename_i notKernel
      split at ran
      · obtain ⟨⟨r,middle⟩,freed,later⟩ := Option.bind_eq_some_iff.mp ran
        refine ih (Nat.le_of_succ_le fits) (paging_free_separate separate ?_ freed) later
        rw [page_index_shift _ place]
        intro same
        have number := congrArg BitVec.toNat same
        rw [BitVec.toNat_ofNat,Nat.mod_eq_of_lt place] at number
        exact notKernel number
      · exact ih (Nat.le_of_succ_le fits) separate ran

theorem paging_free_page_directory_separate {r : Bool} (separate : Separate s)
    (ran : s.paging_free_page_directory d = some (r,s')) : Separate s' := by
  cases d with
  | kernel =>
    cases ran
    exact separate
  | list d =>
    obtain ⟨s'',walked,same⟩ := Option.map_eq_some_iff.mp ran
    cases same
    let s₀ : PagingState := {s with page_directory_used := Function.update s.page_directory_used d false}
    have counted : s₀.freeCount = s₀.freeFrames.card := separate.exclusive.count
    have unused : Separate s₀ := ⟨⟨separate.exclusive.distinct,separate.exclusive.taken,counted,
      fun _ _ _ _ => refuses_of_count counted⟩,⟨separate.ranged.hint,separate.ranged.mapped⟩,
      ⟨separate.hinted.hint,separate.hinted.above⟩,separate.sided⟩
    exact freeEntries_separate (Nat.le_refl _) unused walked

theorem releasePages_separate {turns i : Nat} {used used' : Fin PROCESS_PAGE_FRAME_COUNT_MAX → Word}
    (separate : Separate s) (listed : ∀ n (bound : n < PROCESS_PAGE_FRAME_COUNT_MAX), i ≤ n → n < i + turns →
      page_index (used ⟨n,bound⟩) ≠ 0x300) (ran : releasePages (some d) turns i used s = some (used',s')) : Separate s' := by
  induction turns generalizing i used s with
  | zero =>
    cases ran
    exact separate
  | succ turns ih =>
    unfold releasePages at ran
    obtain ⟨bound,ran⟩ := Option.dite_none_right_eq_some.mp ran
    rw [Option.bind_some] at ran
    obtain ⟨⟨r,middle⟩,freed,later⟩ := Option.bind_eq_some_iff.mp ran
    refine ih (paging_free_separate separate (listed i bound (Nat.le_refl _) (by omega)) freed) (fun n inside low high => ?_) later
    rw [Function.update_of_ne fun same => absurd (congrArg Fin.val same) (by simp only; omega)]
    exact listed n inside (by omega) (by omega)

end loops

namespace KernelState
variable {k k' : KernelState}

structure Secure (k : KernelState) : Prop where
  separate : Separate k.paging
  pooled : Pooled k.paging
  lodged : Lodged k
  listed : ∀ i, k.active i = true → ∀ n (bound : n < PROCESS_PAGE_FRAME_COUNT_MAX),
    n < (k.process_list i).memory.page_frame_used_count.toNat →
      page_index ((k.process_list i).memory.virtual_addr_used ⟨n,bound⟩) ≠ 0x300

theorem boot_secure : Secure boot :=
  ⟨boot_separate,boot_pooled,boot_lodged,fun _ active => (by cases active)⟩

section created
variable {request : FAT32DriverRequest} {i : Slot} {d : DirectorySlot} {opened : PagingState}
  (created : Created k k' request i d opened)
include created

theorem Created.page_below (secluded : k.Secluded request) {j : Nat} (turn : j < (page_frame_count_needed request).toNat) :
    (pageAt request.buf j).toNat < 0x300 := by
  have pages := secluded.pages
  rw [pageAt_toNat created.below (lt_of_lt_of_le turn created.few)]
  omega

-- Only the pages that get a frame matter.
theorem Created.separate (pooled : Pooled k.paging) (separate : Separate k.paging)
    (free : k.paging.freeCount ≠ 0 → k.paging.HintFree) (below : ∀ j, j < (page_frame_count_needed request).toNat →
      j < k.paging.freeCount → (pageAt request.buf j).toNat < 0x300) : Separate k'.paging := by
  obtain ⟨frames,count,hint,_⟩ := Opened.same_pool created.opens
  refine mapPages_separate created.below (created.opens.separate separate) (fun left => ?_)
    (fun j _ high counted => below j (by omega) (by omega)) (fun j _ high counted present => ?_) created.mapped
  · intro f at_
    rw [frames]
    exact free (count ▸ left) f (hint ▸ at_)
  · have notKernel := notKernel_of_below (below j (by omega) (by omega))
    rw [Present,created.opens.others _ _ (Or.inr notKernel)] at present
    exact pooled.cleared d created.opens.unused _ notKernel present

end created

theorem Secure.created {request : FAT32DriverRequest} {i : Slot} {d : DirectorySlot} {opened : PagingState} (secure : Secure k)
    (created : Created k k' request i d opened) (secluded : k.Secluded request) : Secure k' := by
  refine ⟨created.separate secure.pooled secure.separate secluded.hint fun _ turn _ => created.page_below secluded turn,created.paging_pooled secure.pooled,
    secure.lodged.created created,fun j active n bound used => ?_⟩
  by_cases here : j = i
  · subst here
    have uses : k'.Uses j ⟨n,bound⟩ := used
    have below := created.page_below secluded (created.uses_iff.mp uses)
    rw [created.page uses]
    intro same
    rw [same] at below
    exact absurd below (by decide)
  · rw [created.others j here] at used ⊢
    exact secure.listed j (created.active_other here ▸ active) n bound used

theorem Secure.destroyed (secure : Secure k) {pid : Word} {i : Slot} (active : k.active i = true) (named : k.pid i = pid)
    (waiting : k.cur_idx ≠ i.val) (ran : (k.process_destroy pid).map Prod.snd = some k') : Secure k' := by
  have destroyed := secure.lodged.victim named ran
  obtain ⟨⟨r,k''⟩,answered,same⟩ := Option.map_eq_some_iff.mp ran
  cases same
  have separate : Separate k''.paging := by
    rcases destroy_paging answered with same | ⟨j,page_dir,used,released,r',named',_,at_,walked,freed⟩
    · rw [same]
      exact secure.separate
    · have nonzero := secure.lodged.table.nonzero i active
      obtain rfl := secure.lodged.table.distinct i j (named.trans named'.symm) nonzero
      refine paging_free_page_directory_separate (releasePages_separate secure.separate (fun n bound _ high => ?_) walked) freed
      exact secure.listed i active n bound (by omega)
  refine ⟨separate,destroyed.paging_pooled secure.pooled,secure.lodged.destroyed destroyed active waiting,
    fun j now n bound used => ?_⟩
  rw [← mem_actives,destroyed.actives] at now
  have other := Finset.ne_of_mem_erase now
  rw [destroyed.others j other] at used ⊢
  exact secure.listed j (mem_actives.mp (Finset.mem_of_mem_erase now)) n bound used

-- The page directories are the same afterwards, and who has which.
structure Still (k k' : KernelState) : Prop where
  paging : k'.paging = k.paging
  actives : ∀ j, k'.active j = k.active j
  memory : ∀ j, (k'.process_list j).memory = (k.process_list j).memory
  directory : ∀ j, (k'.process_list j).context.page_directory_virtual_addr =
    (k.process_list j).context.page_directory_virtual_addr

theorem Secure.still (secure : Secure k) (still : Still k k') (lodged : Lodged k') : Secure k' := by
  refine ⟨still.paging ▸ secure.separate,still.paging ▸ secure.pooled,lodged,fun j active n bound used => ?_⟩
  rw [still.memory] at used ⊢
  exact secure.listed j (still.actives j ▸ active) n bound used

theorem Switched.still {i : Slot} {ctx : Context} (switched : Switched k k' i ctx) : Still k k' :=
  ⟨switched.alike.paging,switched.alike.actives,switched.alike.memory,fun j => by rw [switched.alike.contexts]⟩

theorem tick_still {frame : InterruptFrame} (ran : k.operate (.tick frame) = some k') : Still k k' := by
  obtain ⟨⟨next,k''⟩,handled,same⟩ := Option.map_eq_some_iff.mp ran
  cases same
  rcases Machine.main_interrupt_cases handled with ⟨_,_,same⟩ | ⟨_,cur,i,middle,ctx,_,saved,switched⟩
  · cases same
    exact ⟨rfl,fun _ => rfl,fun _ => rfl,fun _ => rfl⟩
  · have later := switched.still
    refine ⟨later.paging.trans saved.paging,fun j => (later.actives j).trans ?_,fun j => (later.memory j).trans (saved.memory j),
      fun j => (later.directory j).trans (saved.directory j)⟩
    exact congrArg Metadata.active (saved.metadata j)

theorem first_still (ran : k.operate .first = some k') : Still k k' := by
  obtain ⟨⟨ctx,k''⟩,switches,same⟩ := Option.map_eq_some_iff.mp ran
  cases same
  obtain ⟨i,switched⟩ := switch_cases switches
  exact switched.still

end KernelState

end Sosis.Kernel
