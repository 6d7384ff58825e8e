import Mathlib.Data.Finset.Card
import Mathlib.Tactic.Common
import Sosis.Paging
import Sosis.TransitionRuns

-- What one call of the frame allocator does, and what whole histories of calls keep.
namespace Sosis.Kernel
open FirstFit TransitionRuns
open Fat32 (Word)

abbrev Frame := Fin PAGE_FRAME_MAX_COUNT

def frameIndex (f : Frame) : PageIndex := BitVec.ofNat 10 f

theorem frameIndex_toNat (f : Frame) : (frameIndex f).toNat = f.val := by
  have bound : f.val < 32 := f.isLt
  simp only [frameIndex,BitVec.toNat_ofNat]
  omega

theorem frameIndex_injective : Function.Injective frameIndex := by
  intro f g same
  have numbers := congrArg BitVec.toNat same
  rw [frameIndex_toNat,frameIndex_toNat] at numbers
  exact Fin.ext numbers

theorem frameIndex_of_lt (w : PageIndex) (bound : w.toNat < PAGE_FRAME_MAX_COUNT) : frameIndex ⟨w.toNat,bound⟩ = w := by
  apply BitVec.eq_of_toNat_eq
  rw [frameIndex_toNat]

theorem page_index_toNat (addr : Word) : (page_index addr).toNat = addr.toNat / 2^22 := by
  have bound := addr.isLt
  have mask : (addr >>> 22).toNat &&& 0x3FF = addr.toNat / 2^22 % 2^10 := by
    rw [BitVec.toNat_ushiftRight,Nat.shiftRight_eq_div_pow]
    exact Nat.and_two_pow_sub_one_eq_mod _ 10
  unfold page_index
  rw [BitVec.toNat_setWidth,BitVec.toNat_and,show (0x3FF : Word).toNat = 0x3FF from rfl,mask]
  omega

theorem page_index_frame (f : Frame) : page_index (BitVec.ofNat 32 (PAGE_FRAME_SIZE * f.val)) = frameIndex f := by
  have bound : f.val < 32 := f.isLt
  apply BitVec.eq_of_toNat_eq
  rw [page_index_toNat,frameIndex_toNat,BitVec.toNat_ofNat]
  simp only [PAGE_FRAME_SIZE]
  omega

namespace PagingState
variable {s s' : PagingState}

def frames (s : PagingState) : Frame → Bool := s.page_manager_state.page_frame_map
def freeCount (s : PagingState) : Nat := s.page_manager_state.free_page_frame_count.toNat
def hint (s : PagingState) : Nat := s.page_manager_state.next_free_frame.toNat

def freeFrames (s : PagingState) : Finset Frame := Finset.univ.filter fun f => s.frames f = false

theorem mem_freeFrames {f : Frame} : f ∈ s.freeFrames ↔ s.frames f = false := by simp [freeFrames]

-- The call took frame `f` for the page `k` of the directory `d`.
structure Allocated (s s' : PagingState) (d : PageDirectoryPtr) (k : PageIndex) (f : Frame) : Prop where
  hinted : s.hint = f.val
  entry : s'.directory d k = ⟨userFlag,frameIndex f⟩
  others : ∀ d' k', (d' ≠ d ∨ k' ≠ k) → s'.directory d' k' = s.directory d' k'
  frames : s'.frames = Function.update s.frames f true
  count : s'.freeCount + 1 = s.freeCount
  next : (∃ g : Frame, f < g ∧ s.frames g = false ∧ (∀ e, f < e → e < g → s.frames e = true) ∧ s'.hint = g.val) ∨
    (∀ g, f < g → s.frames g = true) ∧ s'.hint = s.hint
  used : s'.page_directory_used = s.page_directory_used
  free : s'.page_dir_free = s.page_dir_free

theorem update_entry (s : PagingState) (d : PageDirectoryPtr) (physical_addr virtual_addr : Word)
    (flag : PageDirectoryEntryFlag) :
    (s.update_page_directory_entry d physical_addr virtual_addr flag).directory d (page_index virtual_addr) =
      ⟨flag,page_index physical_addr⟩ := by
  simp [update_page_directory_entry]

theorem update_other (s : PagingState) {d d' : PageDirectoryPtr} (physical_addr : Word) {virtual_addr : Word}
    (flag : PageDirectoryEntryFlag) {k' : PageIndex} (other : d' ≠ d ∨ k' ≠ page_index virtual_addr) :
    (s.update_page_directory_entry d physical_addr virtual_addr flag).directory d' k' = s.directory d' k' := by
  unfold update_page_directory_entry
  by_cases same : d' = d
  · subst same
    have index : k' ≠ page_index virtual_addr := other.resolve_left fun different => different rfl
    simp [index]
  · simp [same]

theorem paging_allocate_cases {d : PageDirectoryPtr} {addr : Word} {r : Bool}
    (ran : s.paging_allocate_user_page_frame d addr = some (r,s')) :
    r = false ∧ s.freeCount = 0 ∧ s' = s ∨
      r = true ∧ s.freeCount ≠ 0 ∧ ∃ f, Allocated s s' d (page_index addr) f := by
  unfold paging_allocate_user_page_frame at ran
  by_cases none : s.page_manager_state.free_page_frame_count = 0
  · rw [if_pos none] at ran
    cases ran
    exact Or.inl ⟨rfl,by rw [freeCount,none]; rfl,rfl⟩
  · rw [if_neg none] at ran
    have some_ : s.freeCount ≠ 0 := fun zero => none (BitVec.eq_of_toNat_eq zero)
    split at ran
    · rename_i bound
      cases ran
      refine Or.inr ⟨rfl,some_,⟨_,bound⟩,rfl,?_,fun d' k' other => ?_,rfl,?_,?_,rfl,rfl⟩
      · rw [update_entry]
        exact congrArg _ (page_index_frame ⟨_,bound⟩)
      · exact update_other _ _ _ other
      · have range := s.page_manager_state.free_page_frame_count.isLt
        have one : (s.page_manager_state.free_page_frame_count - 1).toNat = s.freeCount - 1 :=
          BitVec.toNat_sub_of_le (by
            rw [BitVec.le_def]
            exact Nat.one_le_iff_ne_zero.mpr some_)
        change (s.page_manager_state.free_page_frame_count - 1).toNat + 1 = _
        omega
      · have above {e : Frame} (later : (⟨_,bound⟩ : Frame) < e) :
            Function.update s.page_manager_state.page_frame_map ⟨_,bound⟩ true e = s.frames e :=
          Function.update_of_ne (Fin.ne_of_gt later) _ _
        simp only [hint,update_page_directory_entry,takeFrame]
        cases found : firstFit (fun i => Function.update s.page_manager_state.page_frame_map ⟨_,bound⟩ true i == false)
            (s.page_manager_state.next_free_frame.toNat+1) with
        | some g =>
          obtain ⟨low,holds,before⟩ := firstFit_some.mp found
          have later : (⟨_,bound⟩ : Frame) < g := Fin.lt_def.mpr low
          refine Or.inl ⟨g,later,?_,fun e lower upper => ?_,?_⟩
          · rw [← above later]
            simpa using holds
          · rw [← above lower]
            simpa using before e (Fin.lt_def.mp lower) upper
          · have small : g.val < 32 := g.isLt
            simp only [BitVec.toNat_ofNat]
            omega
        | none =>
          refine Or.inr ⟨fun g later => ?_,rfl⟩
          rw [← above later]
          simpa using firstFit_none.mp found g (Fin.lt_def.mp later)
    · cases ran

-- The call gave the frame `f` of the page `k` back.
structure Returned (s s' : PagingState) (d : PageDirectoryPtr) (k : PageIndex) (f : Frame) : Prop where
  present : (s.directory d k).flag.present_bit = true
  mapped : (s.directory d k).lower_address = frameIndex f
  entry : s'.directory d k = ⟨freedFlag,0⟩
  others : ∀ d' k', (d' ≠ d ∨ k' ≠ k) → s'.directory d' k' = s.directory d' k'
  frames : s'.frames = Function.update s.frames f false
  count : s'.page_manager_state.free_page_frame_count = s.page_manager_state.free_page_frame_count + 1
  next : s'.hint = min f.val s.hint
  used : s'.page_directory_used = s.page_directory_used
  free : s'.page_dir_free = s.page_dir_free

theorem page_index_zero : page_index 0 = 0 := by decide

theorem paging_free_cases {d : PageDirectoryPtr} {addr : Word} {r : Bool}
    (ran : s.paging_free_user_page_frame d addr = some (r,s')) :
    r = false ∧ (s.directory d (page_index addr)).flag.present_bit = false ∧ s' = s ∨
      r = true ∧ ∃ f, Returned s s' d (page_index addr) f := by
  unfold paging_free_user_page_frame at ran
  by_cases absent : (s.directory d (page_index addr)).flag.present_bit = false
  · rw [if_pos absent] at ran
    cases ran
    exact Or.inl ⟨rfl,absent,rfl⟩
  · simp only [if_neg absent] at ran
    split at ran
    · rename_i bound
      cases ran
      refine Or.inr ⟨rfl,⟨_,bound⟩,by simpa using absent,(frameIndex_of_lt _ bound).symm,?_,fun d' k' other => ?_,rfl,rfl,
        ?_,rfl,rfl⟩
      · rw [update_entry,page_index_zero]
      · exact update_other _ _ _ other
      · have small : (s.directory d (page_index addr)).lower_address.toNat < 32 := bound
        have number : (BitVec.ofNat 32 (s.directory d (page_index addr)).lower_address.toNat).toNat =
            (s.directory d (page_index addr)).lower_address.toNat := by
          rw [BitVec.toNat_ofNat]
          omega
        simp only [hint,update_page_directory_entry,returnFrame,BitVec.lt_def,number]
        split
        · simp only [number]; omega
        · omega
    · cases ran

end PagingState

end Sosis.Kernel
