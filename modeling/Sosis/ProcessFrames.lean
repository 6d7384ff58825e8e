import Sosis.PagingHistory
import Sosis.ProcessTable

-- Where the frames of a process are, and what becomes of them when it is destroyed: the
-- pages of its list are given back first, and then what is left in its directory.
namespace Sosis.Kernel
open FirstFit
open Fat32 (Word)

namespace PagingState
variable {s s' s'' : PagingState} {d : PageDirectoryPtr}

-- Every page but the kernel's is on a marked frame of its own, and the counter is right.
structure Holds (s : PagingState) (d : PageDirectoryPtr) : Prop where
  marked : ∀ k, k ≠ 0x300 → s.Present d k → ∃ f, (s.directory d k).lower_address = frameIndex f ∧ s.frames f = true
  apart : ∀ k k', k ≠ 0x300 → k' ≠ 0x300 → s.Present d k → s.Present d k' →
    (s.directory d k).lower_address = (s.directory d k').lower_address → k = k'
  counted : s.freeCount = s.freeFrames.card

-- Pages of the directory have been given back between the two states, and nothing else.
structure Gives (d : PageDirectoryPtr) (s s' : PagingState) : Prop where
  others : ∀ d', d' ≠ d → s'.directory d' = s.directory d'
  present : ∀ k, s'.Present d k → s'.directory d k = s.directory d k
  frames : ∀ f, s'.frames f = false ↔ s.frames f = false ∨ ∃ k, k ≠ 0x300 ∧ s.Present d k ∧ ¬ s'.Present d k ∧
    (s.directory d k).lower_address = frameIndex f

theorem Gives.refl : Gives d s s := by
  refine ⟨fun _ _ => rfl,fun _ _ => rfl,fun f => (or_iff_left ?_).symm⟩
  rintro ⟨k,_,present,gone,_⟩
  exact gone present

theorem Gives.present_before (gives : Gives d s s') {k : PageIndex} (present : s'.Present d k) : s.Present d k := by
  rw [Present,← gives.present k present]
  exact present

theorem Gives.trans (left : Gives d s s') (right : Gives d s' s'') : Gives d s s'' := by
  refine ⟨fun d' other => (right.others d' other).trans (left.others d' other),fun k present =>
    (right.present k present).trans (left.present k (right.present_before present)),fun f => ?_⟩
  rw [right.frames,left.frames]
  constructor
  · rintro ((free | ⟨k,notKernel,present,gone,at_⟩) | ⟨k,notKernel,present,gone,at_⟩)
    · exact Or.inl free
    · exact Or.inr ⟨k,notKernel,present,fun later => gone (right.present_before later),at_⟩
    · rw [left.present k present] at at_
      exact Or.inr ⟨k,notKernel,left.present_before present,gone,at_⟩
  · rintro (free | ⟨k,notKernel,present,gone,at_⟩)
    · exact Or.inl (Or.inl free)
    · by_cases middle : s'.Present d k
      · rw [← left.present k middle] at at_
        exact Or.inr ⟨k,notKernel,middle,gone,at_⟩
      · exact Or.inl (Or.inr ⟨k,notKernel,present,middle,at_⟩)

section returned
variable {k : PageIndex} {f : Frame}

theorem Returned.gone (gave : Returned s s' d k f) : ¬ s'.Present d k := by
  rw [Present,gave.entry]
  exact Bool.noConfusion

theorem Returned.still (gave : Returned s s' d k f) {k' : PageIndex} (present : s'.Present d k') :
    k' ≠ k ∧ s'.directory d k' = s.directory d k' := by
  have other : k' ≠ k := by
    rintro rfl
    exact gave.gone present
  exact ⟨other,gave.others d k' (Or.inr other)⟩

theorem Returned.gives (gave : Returned s s' d k f) (notKernel : k ≠ 0x300) : Gives d s s' := by
  refine ⟨fun d' other => funext fun k' => gave.others d' k' (Or.inl other),fun k' present => (gave.still present).2,
    fun g => ?_⟩
  rw [gave.frames]
  by_cases same : g = f
  · subst same
    rw [Function.update_self]
    exact iff_of_true rfl (Or.inr ⟨k,notKernel,gave.present,gave.gone,gave.mapped⟩)
  · rw [Function.update_of_ne same]
    refine ⟨Or.inl,fun either => either.resolve_right ?_⟩
    rintro ⟨k',_,present,gone,at_⟩
    by_cases here : k' = k
    · subst here
      exact same (frameIndex_injective (at_.symm.trans gave.mapped))
    · refine gone ?_
      rw [Present,gave.others d k' (Or.inr here)]
      exact present

theorem Returned.holds (gave : Returned s s' d k f) (notKernel : k ≠ 0x300) (holds : s.Holds d) : s'.Holds d := by
  have taken : s.frames f = true := by
    obtain ⟨g,at_,marked⟩ := holds.marked k notKernel gave.present
    rwa [frameIndex_injective (gave.mapped.symm.trans at_)]
  have before {k' : PageIndex} (present : s'.Present d k') : s.Present d k' := by
    rw [Present,← (gave.still present).2]
    exact present
  refine ⟨fun k' notKernel' present => ?_,fun k₁ k₂ notKernel₁ notKernel₂ present₁ present₂ same => ?_,
    gave.counted taken holds.counted⟩
  · obtain ⟨other,kept⟩ := gave.still present
    obtain ⟨g,at_,marked⟩ := holds.marked k' notKernel' (before present)
    refine ⟨g,kept ▸ at_,?_⟩
    rw [gave.frames,Function.update_of_ne]
    · exact marked
    · rintro rfl
      exact other (holds.apart k' k notKernel' notKernel (before present) gave.present (at_.trans gave.mapped.symm))
  · rw [(gave.still present₁).2,(gave.still present₂).2] at same
    exact holds.apart k₁ k₂ notKernel₁ notKernel₂ (before present₁) (before present₂) same

end returned

-- The kernel's entry is not an entry to give back, where there is one.
theorem paging_free_gives {addr : Word} (holds : s.Holds d) (spared : page_index addr = 0x300 → ¬ s.Present d 0x300) :
    ∃ r s', s.paging_free_user_page_frame d addr = some (r,s') ∧ s'.Holds d ∧ Gives d s s' := by
  have notKernel (present : s.Present d (page_index addr)) : page_index addr ≠ 0x300 := fun same =>
    spared same (same ▸ present)
  have defined : ∃ r s', s.paging_free_user_page_frame d addr = some (r,s') := by
    unfold paging_free_user_page_frame
    split
    · exact ⟨_,_,rfl⟩
    · rename_i absent
      have present : s.Present d (page_index addr) := by simpa [Present] using absent
      obtain ⟨f,at_,_⟩ := holds.marked _ (notKernel present) present
      have bound : (s.directory d (page_index addr)).lower_address.toNat < PAGE_FRAME_MAX_COUNT := by
        rw [at_,frameIndex_toNat]
        exact f.isLt
      rw [dif_pos bound]
      exact ⟨_,_,rfl⟩
  obtain ⟨r,s',ran⟩ := defined
  refine ⟨r,s',ran,?_⟩
  rcases paging_free_cases ran with ⟨_,_,rfl⟩ | ⟨_,f,gave⟩
  · exact ⟨holds,.refl⟩
  · exact ⟨gave.holds (notKernel gave.present) holds,gave.gives (notKernel gave.present)⟩

theorem freeEntries_gives {turns : Nat} (fits : turns ≤ PAGE_ENTRY_COUNT) (holds : s.Holds d) :
    ∃ s', freeEntries d turns s = some s' ∧ s'.Holds d ∧ Gives d s s' := by
  induction turns generalizing s with
  | zero => exact ⟨s,rfl,holds,.refl⟩
  | succ turns ih =>
    have place : PAGE_ENTRY_COUNT - (turns+1) < PAGE_ENTRY_COUNT := by
      simp only [PAGE_ENTRY_COUNT] at fits ⊢
      omega
    simp only [freeEntries]
    split
    · exact ih (Nat.le_of_succ_le fits) holds
    · rename_i notKernel
      split
      · have page : page_index (BitVec.ofNat 32 (PAGE_ENTRY_COUNT - (turns+1)) <<< 22) ≠ 0x300 := by
          rw [page_index_shift _ place]
          intro same
          have number := congrArg BitVec.toNat same
          rw [BitVec.toNat_ofNat,Nat.mod_eq_of_lt place] at number
          exact notKernel number
        obtain ⟨r,middle,freed,kept,gives⟩ := paging_free_gives holds fun same => absurd same page
        obtain ⟨s',later,rest,gives'⟩ := ih (Nat.le_of_succ_le fits) kept
        exact ⟨s',by rw [freed,Option.bind_some]; exact later,rest,gives.trans gives'⟩
      · exact ih (Nat.le_of_succ_le fits) holds

def pages (s : PagingState) (d : PageDirectoryPtr) : Finset (Fin PAGE_ENTRY_COUNT) :=
  Finset.univ.filter fun j => (s.directory d (BitVec.ofNat 10 j)).flag.present_bit

theorem ofNat_toNat (page : PageIndex) : BitVec.ofNat 10 page.toNat = page := by rw [BitVec.ofNat_toNat,BitVec.setWidth_eq]

theorem mem_pages {j : Fin PAGE_ENTRY_COUNT} : j ∈ s.pages d ↔ s.Present d (BitVec.ofNat 10 j) := by
  rw [pages,Finset.mem_filter,Present]
  exact and_iff_right (Finset.mem_univ j)

theorem Returned.pages {k : PageIndex} {f : Frame} (gave : Returned s s' d k f) :
    (s'.pages d).card + 1 = (s.pages d).card := by
  have here : BitVec.ofNat 10 k.toNat = k := ofNat_toNat k
  have member : (⟨k.toNat,k.isLt⟩ : Fin PAGE_ENTRY_COUNT) ∈ s.pages d := mem_pages.mpr (here.symm ▸ gave.present)
  have erased : s'.pages d = (s.pages d).erase ⟨k.toNat,k.isLt⟩ := by
    ext j
    rw [Finset.mem_erase,mem_pages,mem_pages]
    constructor
    · intro present
      obtain ⟨other,same⟩ := gave.still present
      refine ⟨?_,by rw [Present,← same]; exact present⟩
      rintro rfl
      exact other here
    · rintro ⟨other,present⟩
      rw [Present,gave.others d _ (Or.inr fun same => other (Fin.ext ?_))]
      · exact present
      · have number := congrArg BitVec.toNat same
        rw [BitVec.toNat_ofNat,Nat.mod_eq_of_lt j.isLt] at number
        exact number
  rw [erased,Finset.card_erase_add_one member]

end PagingState

open PagingState

-- Every page given back is counted once.
theorem Frees.counted {d : PageDirectoryPtr} {s s' : PagingState} (frees : Frees d s s') :
    s'.page_manager_state.free_page_frame_count + BitVec.ofNat 32 (s'.pages d).card =
      s.page_manager_state.free_page_frame_count + BitVec.ofNat 32 (s.pages d).card := by
  induction frees with
  | refl => rfl
  | step gave _ ih =>
    rw [ih,gave.count,← gave.pages,Nat.add_comm,BitVec.ofNat_add,← BitVec.add_assoc]
    rfl

theorem releasePages_clears {d : PageDirectoryPtr} {turns i : Nat} {used used' : Fin PROCESS_PAGE_FRAME_COUNT_MAX → Word}
    {s s' : PagingState} (ran : releasePages (some d) turns i used s = some (used',s')) :
    ∀ n, i ≤ n → n < i + turns → ∃ bound : n < PROCESS_PAGE_FRAME_COUNT_MAX, ¬ s'.Present d (page_index (used ⟨n,bound⟩)) := by
  induction turns generalizing i used s with
  | zero =>
    intro n low high
    omega
  | succ turns ih =>
    unfold releasePages at ran
    obtain ⟨bound,ran⟩ := Option.dite_none_right_eq_some.mp ran
    rw [Option.bind_some] at ran
    obtain ⟨⟨r,middle⟩,freed,later⟩ := Option.bind_eq_some_iff.mp ran
    intro n low high
    by_cases here : n = i
    · subst here
      refine ⟨bound,fun present => ?_⟩
      have same := (releasePages_frees later).present present
      rw [Present,same] at present
      rcases paging_free_cases freed with ⟨_,absent,rfl⟩ | ⟨_,f,gave⟩
      · rw [absent] at present
        cases present
      · exact gave.gone present
    · obtain ⟨inside,cleared⟩ := ih later n (by omega) (by omega)
      rw [Function.update_of_ne fun same => here (congrArg Fin.val same)] at cleared
      exact ⟨inside,cleared⟩

theorem releasePages_gives {d : PageDirectoryPtr} {turns i : Nat} {used : Fin PROCESS_PAGE_FRAME_COUNT_MAX → Word}
    {s : PagingState} (holds : s.Holds d)
    (listed : ∀ n, i ≤ n → n < i + turns → ∃ bound : n < PROCESS_PAGE_FRAME_COUNT_MAX,
      page_index (used ⟨n,bound⟩) = 0x300 → ¬ s.Present d 0x300) :
    ∃ used' s', releasePages (some d) turns i used s = some (used',s') ∧ s'.Holds d ∧ Gives d s s' := by
  induction turns generalizing i used s with
  | zero => exact ⟨used,s,rfl,holds,.refl⟩
  | succ turns ih =>
    obtain ⟨bound,spared⟩ := listed i (Nat.le_refl _) (by omega)
    obtain ⟨r,middle,freed,kept,gives⟩ := paging_free_gives holds spared
    have onward : ∀ n, i+1 ≤ n → n < i+1 + turns → ∃ inside : n < PROCESS_PAGE_FRAME_COUNT_MAX,
        page_index (Function.update used ⟨i,bound⟩ 0 ⟨n,inside⟩) = 0x300 → ¬ middle.Present d 0x300 := by
      intro n low high
      obtain ⟨inside,page⟩ := listed n (by omega) (by omega)
      refine ⟨inside,fun kernel present => page ?_ (gives.present_before present)⟩
      rwa [Function.update_of_ne fun same => absurd (congrArg Fin.val same) (by simp only; omega)] at kernel
    obtain ⟨used',s',later,rest,gives'⟩ := ih kept onward
    refine ⟨used',s',?_,rest,gives.trans gives'⟩
    unfold releasePages
    rw [dif_pos bound,Option.bind_some,freed,Option.bind_some]
    exact later

theorem paging_free_page_directory_gives {d : Fin PAGING_DIRECTORY_TABLE_MAX_COUNT} {s : PagingState} (holds : s.Holds (.list d)) :
    ∃ s', s.paging_free_page_directory (.list d) = some (true,s') ∧ s'.Holds (.list d) ∧ Gives (.list d) s s' := by
  have unused : PagingState.Holds {s with page_directory_used := Function.update s.page_directory_used d false} (.list d) :=
    ⟨holds.marked,holds.apart,holds.counted⟩
  obtain ⟨s',walked,rest,gives⟩ := freeEntries_gives (Nat.le_refl _) unused
  refine ⟨s',?_,rest,gives.others,gives.present,gives.frames⟩
  rw [PagingState.paging_free_page_directory,walked]
  rfl

namespace KernelState
variable {k k' : KernelState} {i : Slot}

-- The page of the directory of the process in slot i is mapped to the frame, by an entry
-- that is not the kernel's.
def Maps (k : KernelState) (i : Slot) (page frame : PageIndex) : Prop :=
  k.active i = true ∧ ∃ d, (k.process_list i).context.page_directory_virtual_addr = some d ∧ k.paging.Present d page ∧
    (k.paging.directory d page).lower_address = frame ∧ (page = 0x300 → k.paging.directory d page ≠ kernel_entry)

-- page_frame_map, its counter and its hint agree with what the active processes map.
structure Accounted (k : KernelState) : Prop where
  kernel : k.paging.frames 0 = true
  marked : ∀ i page frame, k.Maps i page frame → ∃ f, frame = frameIndex f ∧ k.paging.frames f = true
  only : ∀ f, k.paging.frames f = true → f = 0 ∨ ∃ i page, k.Maps i page (frameIndex f)
  distinct : ∀ i j page page' frame, k.Maps i page frame → k.Maps j page' frame → i = j ∧ page = page'
  counted : k.paging.freeCount = k.paging.freeFrames.card
  hint : (∃ f : Frame, k.paging.hint = f.val ∧ k.paging.frames f = false ∧ ∀ g, g < f → k.paging.frames g = true) ∨
    ∀ f, k.paging.frames f = true
  housed : ∀ i, k.active i = true → ∃ d, (k.process_list i).context.page_directory_virtual_addr = some (.list d)
  apart : ∀ i j, k.active i = true → k.active j = true → (k.process_list i).context.page_directory_virtual_addr =
    (k.process_list j).context.page_directory_virtual_addr → i = j
  pids : ∀ i j, k.pid i = k.pid j → k.pid i ≠ 0 → i = j

def PagesBelow (k : KernelState) (i : Slot) : Prop := ∀ page frame, k.Maps i page frame → page.toNat < 0x300

-- The list of the process, whose addresses need not be mapped, has no address on the
-- kernel's page.
def SparesKernel (k : KernelState) (i : Slot) : Prop :=
  ∀ n, n < (k.process_list i).memory.page_frame_used_count.toNat → ∃ bound : n < PROCESS_PAGE_FRAME_COUNT_MAX,
    page_index ((k.process_list i).memory.virtual_addr_used ⟨n,bound⟩) = 0x300 →
      ∀ d, (k.process_list i).context.page_directory_virtual_addr = some d → ¬ k.paging.Present d 0x300

-- The process in slot i is gone, exactly its frames are free now, each counted once, and
-- nothing of another process has changed.
structure FramesReturned (k k' : KernelState) (i : Slot) : Prop where
  ended : k'.active i = false
  freed : ∀ f, k'.paging.frames f = false ↔ k.paging.frames f = false ∨ ∃ page, k.Maps i page (frameIndex f)
  counted : k'.paging.freeCount = k.paging.freeCount + (k'.paging.freeFrames \ k.paging.freeFrames).card
  emptied : ∀ d, (k.process_list i).context.page_directory_virtual_addr = some d →
    ∀ page, page ≠ 0x300 → ¬ k'.paging.Present d page
  directories : ∀ d, (k.process_list i).context.page_directory_virtual_addr ≠ some d →
    k'.paging.directory d = k.paging.directory d
  others : ∀ j, j ≠ i → k'.process_list j = k.process_list j ∧ ∀ page frame, k.Maps j page frame → k'.Maps j page frame ∧
    ∀ f, frame = frameIndex f → k'.paging.frames f = true

theorem notKernel_of_below {page : PageIndex} (below : page.toNat < 0x300) : page ≠ 0x300 := by
  rintro rfl
  exact absurd below (by decide)

theorem Accounted.holds (accounted : Accounted k) {d : PageDirectoryPtr} (active : k.active i = true)
    (at_ : (k.process_list i).context.page_directory_virtual_addr = some d) : k.paging.Holds d := by
  have maps {page : PageIndex} (notKernel : page ≠ 0x300) (present : k.paging.Present d page) :
      k.Maps i page (k.paging.directory d page).lower_address :=
    ⟨active,d,at_,present,rfl,fun same => absurd same notKernel⟩
  refine ⟨fun page notKernel present => accounted.marked i page _ (maps notKernel present),
    fun page page' notKernel notKernel' present present' same => ?_,accounted.counted⟩
  exact (accounted.distinct i i page page' _ (maps notKernel present) (same ▸ maps notKernel' present')).2

-- Both passes over the pages of a process: its list, and then its directory.
theorem release_gives {d : Fin PAGING_DIRECTORY_TABLE_MAX_COUNT} (spares : SparesKernel k i) (holds : k.paging.Holds (.list d))
    (at_ : (k.process_list i).context.page_directory_virtual_addr = some (.list d)) :
    ∃ k', k.release_memory i = some k' ∧ k'.paging.Holds (.list d) ∧ Gives (.list d) k.paging k'.paging ∧
      ∀ page, page ≠ 0x300 → ¬ k'.paging.Present (.list d) page := by
  obtain ⟨used,released,walked,kept,gives⟩ := releasePages_gives (i := 0) holds fun n _ high => by
    rw [Nat.zero_add] at high
    obtain ⟨bound,spared⟩ := spares n high
    exact ⟨bound,fun kernel => spared kernel _ at_⟩
  obtain ⟨paging,freed,rest,gives'⟩ := paging_free_page_directory_gives kept
  have cleared : ∀ page, page ≠ 0x300 → ¬ paging.Present (.list d) page := by
    rcases paging_free_page_directory_cases freed with ⟨same,_⟩ | ⟨d',same,_,empty⟩
    · cases same
    · cases same
      intro page notKernel present
      rw [Present,empty page notKernel] at present
      cases present
  simp only [release_memory,at_,walked,freed,Option.bind_eq_bind,Option.bind_some]
  exact ⟨_,rfl,rest,gives.trans gives',cleared⟩

theorem destroy_defined {pid : Word} (found : firstFit (fun i => k.pid i == pid) 0 = some i)
    (released : k.release_memory i = some k') : ∃ k'', k.process_destroy pid = some (true,k'') ∧ k''.paging = k'.paging := by
  simp only [process_destroy,found,released,Option.bind_eq_bind,Option.bind_some]
  exact ⟨_,rfl,rfl⟩

-- No slot before this one has its pid, and so it is the one the search stops at.
def FirstNamed (k : KernelState) (i : Slot) : Prop := ∀ j, j < i → k.pid j ≠ k.pid i

theorem FirstNamed.found (first : FirstNamed k i) : firstFit (fun j => k.pid j == k.pid i) 0 = some i := by
  refine firstFit_some.mpr ⟨Nat.zero_le _,by simp,fun j _ less => ?_⟩
  rw [beq_eq_false_iff_ne]
  exact first j less

theorem FirstNamed.destroyed (first : FirstNamed k i) (ran : k.process_destroy (k.pid i) = some (true,k')) :
    Destroyed k k' (k.pid i) i := by
  rcases destroy_cases ran with ⟨failed,_⟩ | ⟨_,i',destroyed⟩
  · cases failed
  · rcases lt_trichotomy i' i with before | rfl | behind
    · exact absurd destroyed.named (first i' before)
    · exact destroyed
    · exact absurd rfl (destroyed.first i behind)

theorem Destroyed.ended {pid : Word} (destroyed : Destroyed k k' pid i) : k'.active i = false := by
  rw [KernelState.active,destroyed.metadata]

section given
variable {d : PageDirectoryPtr} {s : PagingState}

-- The entries that are gone are those of the process's own pages.
theorem PagesBelow.freed_iff (below : PagesBelow k i) (active : k.active i = true)
    (at_ : (k.process_list i).context.page_directory_virtual_addr = some d) (gives : Gives d k.paging s)
    (cleared : ∀ page, page ≠ 0x300 → ¬ s.Present d page) (f : Frame) :
    s.frames f = false ↔ k.paging.frames f = false ∨ ∃ page, k.Maps i page (frameIndex f) := by
  rw [gives.frames]
  refine or_congr Iff.rfl ⟨?_,?_⟩
  · rintro ⟨page,notKernel,present,_,frame⟩
    exact ⟨page,active,_,at_,present,frame,fun same => absurd same notKernel⟩
  · rintro ⟨page,maps⟩
    have notKernel := notKernel_of_below (below page _ maps)
    obtain ⟨_,d',at_',present,frame,_⟩ := maps
    cases at_.symm.trans at_'
    exact ⟨page,notKernel,present,cleared page notKernel,frame⟩

-- A process with a directory of its own maps what it mapped before.
theorem Maps.kept {j : Slot} {page frame : PageIndex} (maps : k.Maps j page frame) (pcb : k'.process_list j = k.process_list j)
    (directory : ∀ d, (k.process_list j).context.page_directory_virtual_addr = some d →
      k'.paging.directory d = k.paging.directory d) : k'.Maps j page frame := by
  obtain ⟨active,d,at_,present,frameAt,notKernel⟩ := maps
  have same := directory d at_
  refine ⟨?_,d,?_,?_,?_,?_⟩
  · rwa [KernelState.active,pcb]
  · rwa [pcb]
  · rwa [Present,same]
  · rwa [same]
  · rwa [same]

end given

theorem SparesKernel.returns (spares : SparesKernel k i) (first : FirstNamed k i) (accounted : Accounted k)
    (active : k.active i = true) (below : PagesBelow k i) :
    ∃ k', k.process_destroy (k.pid i) = some (true,k') ∧ FramesReturned k k' i := by
  obtain ⟨d,at_⟩ := accounted.housed i active
  obtain ⟨middle,released,rest,gives,cleared⟩ := release_gives spares (accounted.holds active at_) at_
  obtain ⟨k',ran,paging⟩ := destroy_defined first.found released
  rw [← paging] at rest gives cleared
  have destroyed := first.destroyed ran
  have freed := below.freed_iff active at_ gives cleared
  refine ⟨k',ran,destroyed.ended,freed,?_,fun d' at_' => ?_,fun d' other => gives.others d' fun same => other (same ▸ at_),
    fun j other => ⟨destroyed.others j other,fun page frame maps =>
      ⟨maps.kept (destroyed.others j other) fun d' at_' => ?_,fun f equal => ?_⟩⟩⟩
  · have grown : k.paging.freeFrames ⊆ k'.paging.freeFrames := fun f free =>
      mem_freeFrames.mpr ((freed f).mpr (Or.inl (mem_freeFrames.mp free)))
    rw [rest.counted,accounted.counted,Nat.add_comm,Finset.card_sdiff_add_card_eq_card grown]
  · cases at_.symm.trans at_'
    exact cleared
  · refine gives.others d' ?_
    rintro rfl
    exact other (accounted.apart j i maps.1 active (at_'.trans at_.symm))
  · subst equal
    obtain ⟨g,at_g,taken⟩ := accounted.marked j page _ maps
    by_contra free
    rcases (freed f).mp (by simpa using free) with before | ⟨page',own⟩
    · rw [frameIndex_injective at_g,taken] at before
      cases before
    · exact other (accounted.distinct j i page page' _ maps own).1

-- What a destruction does to the pages: those of the list go first, then the directory.
theorem destroy_paging {pid : Word} {r : Bool} (ran : k.process_destroy pid = some (r,k')) :
    k' = k ∨ ∃ i page_dir used released r', k.pid i = pid ∧ (∀ j, j < i → k.pid j ≠ pid) ∧
      (k.process_list i).context.page_directory_virtual_addr = some page_dir ∧
      releasePages (some page_dir) (k.process_list i).memory.page_frame_used_count.toNat 0
        (k.process_list i).memory.virtual_addr_used k.paging = some (used,released) ∧
      released.paging_free_page_directory page_dir = some (r',k'.paging) := by
  unfold process_destroy at ran
  cases found : FirstFit.firstFit (fun i => k.pid i == pid) 0 with
  | none =>
    rw [found] at ran
    cases ran
    exact Or.inl rfl
  | some i =>
    obtain ⟨_,named,before⟩ := FirstFit.firstFit_some.mp found
    simp only [found,release_memory,Option.bind_eq_bind,Option.bind_eq_some_iff] at ran
    obtain ⟨middle,⟨⟨used,released⟩,walked,page_dir,at_,⟨r',paging⟩,freed,kept⟩,same⟩ := ran
    cases kept
    cases same
    rw [at_] at walked
    exact Or.inr ⟨i,page_dir,used,released,r',by simpa using named,fun j less => by simpa using before j (Nat.zero_le _) less,
      at_,walked,freed⟩

-- More entries were given back than the process has pages, once the kernel's is one of them.
theorem FramesReturned.spared (returned : FramesReturned k k' i) (accounted : Accounted k) (below : PagesBelow k i)
    {d : PageDirectoryPtr} (at_ : (k.process_list i).context.page_directory_virtual_addr = some d)
    (gone : ¬ k'.paging.Present d 0x300)
    (counted : k'.paging.page_manager_state.free_page_frame_count + BitVec.ofNat 32 (pages k'.paging d).card =
      k.paging.page_manager_state.free_page_frame_count + BitVec.ofNat 32 (pages k.paging d).card) :
    ¬ k.paging.Present d 0x300 := by
  intro present
  have empty : pages k'.paging d = ∅ := Finset.eq_empty_of_forall_notMem fun j member => by
    by_cases kernel : BitVec.ofNat 10 j = (0x300 : PageIndex)
    · exact gone (kernel ▸ mem_pages.mp member)
    · exact returned.emptied d at_ _ kernel (mem_pages.mp member)
  have inside : 0x300 < PAGE_ENTRY_COUNT := by decide
  have kernel : (⟨0x300,inside⟩ : Fin PAGE_ENTRY_COUNT) ∈ pages k.paging d := mem_pages.mpr present
  -- a frame that is free now was that of a page below the kernel's
  have few : (k'.paging.freeFrames \ k.paging.freeFrames).card < (pages k.paging d).card := by
    rw [← Finset.card_image_of_injective _ frameIndex_injective]
    refine Nat.lt_of_le_of_lt ((Finset.card_le_card fun frame member => ?_).trans (Finset.card_image_le
      (s := (pages k.paging d).erase ⟨0x300,inside⟩) (f := fun j => (k.paging.directory d (BitVec.ofNat 10 j.val)).lower_address)))
      (Finset.card_erase_lt_of_mem kernel)
    obtain ⟨f,changed,rfl⟩ := Finset.mem_image.mp member
    obtain ⟨free,taken⟩ := Finset.mem_sdiff.mp changed
    rcases (returned.freed f).mp (mem_freeFrames.mp free) with before | ⟨page,maps⟩
    · exact absurd (mem_freeFrames.mpr before) taken
    · have low := below page _ maps
      obtain ⟨_,d',at_',here,frame,_⟩ := maps
      cases at_.symm.trans at_'
      have same : BitVec.ofNat 10 page.toNat = page := ofNat_toNat page
      refine Finset.mem_image.mpr ⟨⟨page.toNat,page.isLt⟩,Finset.mem_erase.mpr ⟨fun equal => ?_,mem_pages.mpr ?_⟩,?_⟩
      · exact absurd (congrArg Fin.val equal) (Nat.ne_of_lt low)
      · exact same.symm ▸ here
      · exact same.symm ▸ frame
  have small : k.paging.freeFrames.card ≤ 32 := (Finset.card_le_univ _).trans (by rw [Fintype.card_fin])
  have all : (pages k.paging d).card ≤ 1024 := (Finset.card_le_univ _).trans (by rw [Fintype.card_fin])
  have before := accounted.counted
  have after := returned.counted
  rw [empty,Finset.card_empty] at counted
  have number := congrArg BitVec.toNat counted
  rw [BitVec.toNat_add,BitVec.toNat_add,BitVec.toNat_ofNat,BitVec.toNat_ofNat] at number
  unfold freeCount at before after
  omega

-- Nothing else goes wrong: the slot was the first one with the pid, and the list had
-- no address on the kernel's page.
theorem FramesReturned.conditions (returned : FramesReturned k k' i) (ran : k.process_destroy (k.pid i) = some (true,k'))
    (accounted : Accounted k) (active : k.active i = true) (below : PagesBelow k i) : FirstNamed k i ∧ SparesKernel k i := by
  obtain ⟨failed,_⟩ | ⟨_,i',destroyed⟩ := destroy_cases ran
  · cases failed
  have here : i' = i := by
    by_contra other
    have ended := returned.ended
    rw [KernelState.active,destroyed.others i (Ne.symm other)] at ended
    exact absurd (active.symm.trans ended) (by decide)
  subst here
  refine ⟨destroyed.first,?_⟩
  obtain rfl | ⟨j,d,used,released,r,named,before,at_,walked,freed⟩ := destroy_paging ran
  · exact absurd (active.symm.trans returned.ended) (by decide)
  have same : j = i' := by
    rcases lt_trichotomy j i' with less | equal | more
    · exact absurd named (destroyed.first j less)
    · exact equal
    · exact absurd rfl (before i' more)
  subst same
  intro n listed
  obtain ⟨bound,cleared⟩ := releasePages_clears walked n (Nat.zero_le _) (by omega)
  refine ⟨bound,fun kernel d' at_' => ?_⟩
  cases at_.symm.trans at_'
  obtain ⟨d₀,housed⟩ := accounted.housed j active
  cases at_.symm.trans housed
  rw [kernel] at cleared
  rcases paging_free_page_directory_cases freed with ⟨same,_⟩ | ⟨d₁,same,frees,_⟩
  · cases same
  · cases same
    refine returned.spared accounted below at_ (fun present => cleared ?_) ?_
    · rw [Present,frees.present present] at present
      exact present
    · exact frees.counted.trans (releasePages_frees walked).counted

end KernelState

end Sosis.Kernel
