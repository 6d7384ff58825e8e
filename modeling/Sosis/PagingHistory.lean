import Sosis.PagingFrames

-- Histories of the frame allocator on its own: which frame is whose, and when the
-- hint next_free_frame stops naming a free one.
namespace Sosis.Kernel
open TransitionRuns
open Fat32 (Word)

inductive FrameAction where
  | allocate (page_dir : PageDirectoryPtr) (virtual_addr : Word)
  | free (page_dir : PageDirectoryPtr) (virtual_addr : Word)

namespace PagingState

def Present (s : PagingState) (d : PageDirectoryPtr) (k : PageIndex) : Prop := (s.directory d k).flag.present_bit = true

-- Only the allocator sets the user bit, so these are the entries it made.
def UserPage (s : PagingState) (d : PageDirectoryPtr) (k : PageIndex) : Prop :=
  s.Present d k ∧ (s.directory d k).flag.user_bit = true

def Step (s : PagingState) (a : FrameAction) (s' : PagingState) : Prop :=
  match a with
  | .allocate d addr => ¬ s.Present d (page_index addr) ∧
      ∃ r, s.paging_allocate_user_page_frame d addr = some (r,s')
  | .free d addr => s.UserPage d (page_index addr) ∧ ∃ r, s.paging_free_user_page_frame d addr = some (r,s')

structure Exclusive (s : PagingState) : Prop where
  distinct : ∀ d k d' k', s.UserPage d k → s.UserPage d' k' →
    (s.directory d k).lower_address = (s.directory d' k').lower_address → d = d' ∧ k = k'
  taken : ∀ f, s.frames f = true ↔ f = 0 ∨ ∃ d k, s.UserPage d k ∧ (s.directory d k).lower_address = frameIndex f
  count : s.freeCount = s.freeFrames.card
  refuses : ∀ d addr r s', s.paging_allocate_user_page_frame d addr = some (r,s') → (r = false ↔ ∀ f, s.frames f = true)

def HintFree (s : PagingState) : Prop := ∀ f : Frame, s.hint = f.val → s.frames f = false

-- An allocation that goes ahead does so on a hint that names a free frame.
def FreshlyHinted (s : PagingState) : FrameAction → Prop
  | .allocate _ _ => s.freeCount ≠ 0 → s.HintFree
  | .free _ _ => True

structure Ranged (s : PagingState) : Prop where
  hint : s.hint < PAGE_FRAME_MAX_COUNT
  mapped : ∀ d k, s.UserPage d k → ∃ f : Frame, f ≠ 0 ∧ (s.directory d k).lower_address = frameIndex f

variable {s s' : PagingState}

theorem freeFrames_eq_empty : s.freeFrames.card = 0 ↔ ∀ f, s.frames f = true := by
  rw [Finset.card_eq_zero,Finset.eq_empty_iff_forall_notMem]
  simp [mem_freeFrames]

theorem refuses_of_count (count : s.freeCount = s.freeFrames.card) {d : PageDirectoryPtr} {addr : Word} {r : Bool}
    (ran : s.paging_allocate_user_page_frame d addr = some (r,s')) : r = false ↔ ∀ f, s.frames f = true := by
  rw [← freeFrames_eq_empty,← count]
  rcases paging_allocate_cases ran with ⟨rfl,zero,_⟩ | ⟨rfl,some_,_⟩
  · exact iff_of_true rfl zero
  · exact iff_of_false (by decide) some_

theorem boot_exclusive : Exclusive boot ∧ Ranged boot := by
  have none : ∀ d k, ¬ boot.UserPage d k := by
    rintro (_ | i) k ⟨present,user⟩
    · unfold boot at present user
      simp only at present user
      split at user
      · cases user
      · cases user
    · cases present
  have count : boot.freeCount = boot.freeFrames.card := by decide +kernel
  refine ⟨⟨fun d k _ _ user => absurd user (none d k),fun f => ?_,count,fun _ _ _ _ => refuses_of_count count⟩,
    by decide,fun d k user => absurd user (none d k)⟩
  rw [show boot.frames f = (f == 0) from rfl,beq_iff_eq]
  exact ⟨Or.inl,fun either => either.resolve_right fun ⟨d,k,user,_⟩ => none d k user⟩

section allocated
variable {d : PageDirectoryPtr} {k : PageIndex} {f : Frame}

theorem Allocated.user_cases (h : Allocated s s' d k f) {d' : PageDirectoryPtr} {k' : PageIndex} (user : s'.UserPage d' k') :
    d' = d ∧ k' = k ∨ s.UserPage d' k' ∧ s'.directory d' k' = s.directory d' k' ∧ (d' ≠ d ∨ k' ≠ k) := by
  by_cases here : d' = d ∧ k' = k
  · exact Or.inl here
  · have other : d' ≠ d ∨ k' ≠ k := not_and_or.mp here
    have same := h.others d' k' other
    unfold UserPage Present at user
    rw [same] at user
    exact Or.inr ⟨user,same,other⟩

theorem Allocated.user_old (h : Allocated s s' d k f) (absent : ¬ s.Present d k) {d' : PageDirectoryPtr} {k' : PageIndex}
    (user : s.UserPage d' k') : s'.UserPage d' k' ∧ s'.directory d' k' = s.directory d' k' := by
  have other : d' ≠ d ∨ k' ≠ k := by
    refine not_and_or.mp ?_
    rintro ⟨rfl,rfl⟩
    exact absent user.1
  have same := h.others d' k' other
  unfold UserPage Present
  rw [same]
  exact ⟨user,rfl⟩

theorem Allocated.user_new (h : Allocated s s' d k f) : s'.UserPage d k := by
  unfold UserPage Present
  rw [h.entry]
  exact ⟨rfl,rfl⟩

theorem Allocated.hintFree_iff (h : Allocated s s' d k f) : s.HintFree ↔ s.frames f = false :=
  ⟨fun free => free f h.hinted,fun free g at_ => by rwa [show g = f from Fin.ext (at_.symm.trans h.hinted)]⟩

-- The counter goes down in any case; the number of free cells only when the frame
-- was free.
theorem Allocated.card (h : Allocated s s' d k f) :
    s'.freeFrames.card + (if s.frames f = false then 1 else 0) = s.freeFrames.card := by
  have cells : s'.freeFrames = s.freeFrames.erase f := by
    ext g
    rw [Finset.mem_erase,mem_freeFrames,mem_freeFrames,h.frames]
    by_cases same : g = f
    · simp [same]
    · simp [same]
  rw [cells]
  split
  · rename_i free
    exact Finset.card_erase_add_one (mem_freeFrames.mpr free)
  · rename_i taken
    rw [Finset.erase_eq_of_notMem fun member => taken (mem_freeFrames.mp member),Nat.add_zero]

theorem Allocated.exclusive (h : Allocated s s' d k f) (exclusive : Exclusive s) (absent : ¬ s.Present d k)
    (free : s.frames f = false) : Exclusive s' := by
  have fresh : ∀ d' k', s.UserPage d' k' → (s.directory d' k').lower_address ≠ frameIndex f := by
    intro d' k' user at_
    have taken := (exclusive.taken f).mpr (Or.inr ⟨d',k',user,at_⟩)
    rw [free] at taken
    cases taken
  have count : s'.freeCount = s'.freeFrames.card := by
    have card := h.card
    rw [if_pos free,← exclusive.count,← h.count] at card
    omega
  refine ⟨fun d₁ k₁ d₂ k₂ user₁ user₂ same => ?_,fun g => ?_,count,fun _ _ _ _ => refuses_of_count count⟩
  · rcases h.user_cases user₁ with ⟨rfl,rfl⟩ | ⟨old₁,kept₁,_⟩ <;>
      rcases h.user_cases user₂ with ⟨rfl,rfl⟩ | ⟨old₂,kept₂,_⟩
    · exact ⟨rfl,rfl⟩
    · rw [h.entry,kept₂] at same
      exact absurd same.symm (fresh _ _ old₂)
    · rw [h.entry,kept₁] at same
      exact absurd same (fresh _ _ old₁)
    · rw [kept₁,kept₂] at same
      exact exclusive.distinct _ _ _ _ old₁ old₂ same
  · rw [h.frames]
    by_cases same : g = f
    · subst same
      rw [Function.update_self]
      exact iff_of_true rfl (Or.inr ⟨d,k,h.user_new,by rw [h.entry]⟩)
    · rw [Function.update_of_ne same,exclusive.taken g]
      refine or_congr Iff.rfl ⟨?_,?_⟩
      · rintro ⟨d',k',user,at_⟩
        obtain ⟨user',kept⟩ := h.user_old absent user
        exact ⟨d',k',user',by rw [kept]; exact at_⟩
      · rintro ⟨d',k',user,at_⟩
        rcases h.user_cases user with ⟨rfl,rfl⟩ | ⟨old,kept,_⟩
        · rw [h.entry] at at_
          exact absurd (frameIndex_injective at_).symm same
        · rw [kept] at at_
          exact ⟨d',k',old,at_⟩

theorem Allocated.ranged (h : Allocated s s' d k f) (ranged : Ranged s) (positive : f ≠ 0) : Ranged s' := by
  refine ⟨?_,fun d' k' user => ?_⟩
  · rcases h.next with ⟨g,_,_,_,next⟩ | ⟨_,next⟩
    · rw [next]; exact g.isLt
    · rw [next]; exact ranged.hint
  · rcases h.user_cases user with ⟨rfl,rfl⟩ | ⟨old,kept,_⟩
    · exact ⟨f,positive,by rw [h.entry]⟩
    · rw [kept]; exact ranged.mapped d' k' old

end allocated

section returned
variable {d : PageDirectoryPtr} {k : PageIndex} {f : Frame}

theorem Returned.user_iff (h : Returned s s' d k f) {d' : PageDirectoryPtr} {k' : PageIndex} :
    s'.UserPage d' k' ↔ s.UserPage d' k' ∧ ¬ (d' = d ∧ k' = k) := by
  by_cases here : d' = d ∧ k' = k
  · obtain ⟨rfl,rfl⟩ := here
    refine iff_of_false (fun user => ?_) fun both => both.2 ⟨rfl,rfl⟩
    have present := user.1
    unfold Present at present
    rw [h.entry] at present
    cases present
  · unfold UserPage Present
    rw [h.others d' k' (not_and_or.mp here)]
    exact (and_iff_left here).symm

theorem Returned.kept (h : Returned s s' d k f) {d' : PageDirectoryPtr} {k' : PageIndex} (user : s'.UserPage d' k') :
    s'.directory d' k' = s.directory d' k' := h.others d' k' (not_and_or.mp (h.user_iff.mp user).2)

theorem Returned.card (h : Returned s s' d k f) (taken : s.frames f = true) :
    s'.freeFrames.card = s.freeFrames.card + 1 := by
  have cells : s'.freeFrames = insert f s.freeFrames := by
    ext g
    rw [Finset.mem_insert,mem_freeFrames,mem_freeFrames,h.frames]
    by_cases same : g = f
    · simp [same]
    · simp [same]
  rw [cells,Finset.card_insert_of_notMem]
  intro member
  rw [mem_freeFrames,taken] at member
  cases member

-- The frame was marked, so the counter goes up by the one cell that is cleared.
theorem Returned.counted (h : Returned s s' d k f) (taken : s.frames f = true) (counted : s.freeCount = s.freeFrames.card) :
    s'.freeCount = s'.freeFrames.card := by
  have small : s.freeFrames.card ≤ 32 := (Finset.card_le_univ _).trans (by rw [Fintype.card_fin])
  unfold freeCount at counted ⊢
  rw [h.card taken,h.count,BitVec.toNat_add,show (1 : Word).toNat = 1 from rfl]
  omega

theorem Returned.exclusive (h : Returned s s' d k f) (exclusive : Exclusive s) (ranged : Ranged s)
    (user : s.UserPage d k) : Exclusive s' := by
  have taken : s.frames f = true := (exclusive.taken f).mpr (Or.inr ⟨d,k,user,h.mapped⟩)
  have positive : f ≠ 0 := by
    obtain ⟨g,notZero,at_⟩ := ranged.mapped d k user
    rwa [frameIndex_injective (h.mapped.symm.trans at_)]
  have count := h.counted taken exclusive.count
  refine ⟨fun d₁ k₁ d₂ k₂ user₁ user₂ same => ?_,fun g => ?_,count,fun _ _ _ _ => refuses_of_count count⟩
  · rw [h.kept user₁,h.kept user₂] at same
    exact exclusive.distinct _ _ _ _ (h.user_iff.mp user₁).1 (h.user_iff.mp user₂).1 same
  · rw [h.frames]
    by_cases same : g = f
    · subst same
      rw [Function.update_self]
      refine iff_of_false (by decide) ?_
      rintro (zero | ⟨d',k',user',at_⟩)
      · exact positive zero
      · rw [h.kept user'] at at_
        exact (h.user_iff.mp user').2
          (exclusive.distinct d' k' d k (h.user_iff.mp user').1 user (at_.trans h.mapped.symm))
    · rw [Function.update_of_ne same,exclusive.taken g]
      refine or_congr Iff.rfl ⟨?_,?_⟩
      · rintro ⟨d',k',old,at_⟩
        have other : ¬ (d' = d ∧ k' = k) := by
          rintro ⟨rfl,rfl⟩
          exact same (frameIndex_injective (at_.symm.trans h.mapped))
        have user' := h.user_iff.mpr ⟨old,other⟩
        exact ⟨d',k',user',by rw [h.kept user']; exact at_⟩
      · rintro ⟨d',k',user',at_⟩
        rw [h.kept user'] at at_
        exact ⟨d',k',(h.user_iff.mp user').1,at_⟩

theorem Returned.ranged (h : Returned s s' d k f) (ranged : Ranged s) : Ranged s' := by
  refine ⟨?_,fun d' k' user => ?_⟩
  · rw [h.next]
    exact lt_of_le_of_lt (min_le_left _ _) f.isLt
  · rw [h.kept user]
    exact ranged.mapped d' k' (h.user_iff.mp user).1

end returned

theorem exclusive_exact (ranged : Ranged s) (exclusive : Exclusive s) {a : FrameAction} (step : s.Step a s') :
    Exclusive s' ↔ s.FreshlyHinted a := by
  cases a with
  | allocate d addr =>
    obtain ⟨absent,r,ran⟩ := step
    rcases paging_allocate_cases ran with ⟨_,zero,rfl⟩ | ⟨_,some_,f,allocated⟩
    · exact iff_of_true exclusive fun some_ => absurd zero some_
    · have condition : s.FreshlyHinted (.allocate d addr) ↔ s.frames f = false :=
        (forall_prop_of_true some_).trans allocated.hintFree_iff
      rw [condition]
      constructor
      · intro exclusive'
        by_contra taken
        have card := allocated.card
        rw [if_neg taken,← exclusive.count,← exclusive'.count,← allocated.count] at card
        omega
      · exact allocated.exclusive exclusive absent
  | free d addr =>
    obtain ⟨user,r,ran⟩ := step
    refine iff_of_true ?_ trivial
    rcases paging_free_cases ran with ⟨_,absent,_⟩ | ⟨_,f,returned⟩
    · exact absurd (user.1.symm.trans absent) (by decide)
    · exact returned.exclusive exclusive ranged user

theorem ranged_kept (ranged : Ranged s) (exclusive : Exclusive s) {a : FrameAction} (fresh : s.FreshlyHinted a)
    (step : s.Step a s') : Ranged s' := by
  cases a with
  | allocate d addr =>
    obtain ⟨_,r,ran⟩ := step
    rcases paging_allocate_cases ran with ⟨_,_,rfl⟩ | ⟨_,some_,f,allocated⟩
    · exact ranged
    · refine allocated.ranged ranged ?_
      rintro rfl
      have free := allocated.hintFree_iff.mp (fresh some_)
      rw [(exclusive.taken 0).mpr (Or.inl rfl)] at free
      cases free
  | free d addr =>
    obtain ⟨_,r,ran⟩ := step
    rcases paging_free_cases ran with ⟨_,_,rfl⟩ | ⟨_,f,returned⟩
    · exact ranged
    · exact returned.ranged ranged

theorem exclusive_always_iff {history : List (Transition PagingState FrameAction)} {s : PagingState}
    (run : Run Step boot history s) :
    (∀ t ∈ history, Exclusive t.after) ↔ ∀ t ∈ history, t.before.FreshlyHinted t.action := by
  have exact : ∀ (s : PagingState) (a : FrameAction) (s' : PagingState), Ranged s → Exclusive s → s.Step a s' →
      (Exclusive s' ↔ s.FreshlyHinted a) :=
    fun _ _ _ ranged exclusive step => exclusive_exact ranged exclusive step
  exact Run.always_iff boot_exclusive.2 boot_exclusive.1 
    (fun _ _ _ ranged exclusive fresh step => ranged_kept ranged exclusive fresh step) exact run

instance (s : PagingState) (d : PageDirectoryPtr) (k : PageIndex) : Decidable (s.Present d k) :=
  inferInstanceAs (Decidable (_ = true))
instance (s : PagingState) (d : PageDirectoryPtr) (k : PageIndex) : Decidable (s.UserPage d k) :=
  inferInstanceAs (Decidable (_ ∧ _))

def replay (s : PagingState) : List FrameAction → Option PagingState
  | [] => some s
  | .allocate d addr :: rest => if s.Present d (page_index addr) then none
    else (s.paging_allocate_user_page_frame d addr).bind fun (_,s) => replay s rest
  | .free d addr :: rest => if s.UserPage d (page_index addr) then
      (s.paging_free_user_page_frame d addr).bind fun (_,s) => replay s rest
    else none

theorem replay_run {actions : List FrameAction} (replayed : s.replay actions = some s') :
    ∃ history, Run Step s history s' ∧ history.map Transition.action = actions := by
  induction actions generalizing s with
  | nil =>
    cases replayed
    exact ⟨[],.nil,rfl⟩
  | cons a rest ih =>
    have first : ∃ middle, s.Step a middle ∧ middle.replay rest = some s' := by
      cases a with
      | allocate d addr =>
        simp only [replay] at replayed
        split at replayed
        · cases replayed
        · rename_i absent
          obtain ⟨⟨r,middle⟩,ran,later⟩ := Option.bind_eq_some_iff.mp replayed
          exact ⟨middle,⟨absent,r,ran⟩,later⟩
      | free d addr =>
        simp only [replay] at replayed
        split at replayed
        · rename_i user
          obtain ⟨⟨r,middle⟩,ran,later⟩ := Option.bind_eq_some_iff.mp replayed
          exact ⟨middle,⟨user,r,ran⟩,later⟩
        · cases replayed
    obtain ⟨middle,step,later⟩ := first
    obtain ⟨history,run,actions⟩ := ih later
    exact ⟨_,.cons step run,by simp [actions]⟩

def page (i : Nat) : Word := BitVec.ofNat 32 (PAGE_FRAME_SIZE * i)

-- Two pages, the first of which is freed and its frame taken again.
def reused : List FrameAction :=
  [.allocate (.list 0) (page 0),.allocate (.list 0) (page 1),.free (.list 0) (page 0),.allocate (.list 0) (page 2)]

theorem exclusive_always_iff_reused : ∃ history s, Run Step boot history s ∧ history.map Transition.action = reused ∧
    ((∀ t ∈ history, Exclusive t.after) ↔ ∀ t ∈ history, t.before.FreshlyHinted t.action) := by
  have defined : (boot.replay reused).isSome = true := by decide +kernel
  obtain ⟨s,replayed⟩ := Option.isSome_iff_exists.mp defined
  obtain ⟨history,run,actions⟩ := replay_run replayed
  exact ⟨history,s,run,actions,exclusive_always_iff run⟩

-- The pool is used up, frame 5 is freed and taken again, which leaves the hint on it,
-- and frame 20 is freed: the last allocation takes frame 5 a second time.
def exhausted : List FrameAction :=
  (List.range 31).map (fun i => .allocate (.list 0) (page i)) ++
    [.free (.list 0) (page 4),.allocate (.list 0) (page 40),.free (.list 0) (page 19),.allocate (.list 0) (page 41)]

theorem exhausted_shares_frame : ∃ history s, Run Step boot history s ∧ history.map Transition.action = exhausted ∧
    ¬ ∀ t ∈ history, Exclusive t.after := by
  have shared : (boot.replay exhausted).any (fun s => s.UserPage (.list 0) 40 ∧ s.UserPage (.list 0) 41 ∧
      (s.directory (.list 0) 40).lower_address = (s.directory (.list 0) 41).lower_address) = true := by decide +kernel
  cases replayed : boot.replay exhausted with
  | none =>
    rw [replayed] at shared
    cases shared
  | some s =>
    rw [replayed,Option.any_some,decide_eq_true_eq] at shared
    obtain ⟨history,run,actions⟩ := replay_run replayed
    refine ⟨history,s,run,actions,fun always => ?_⟩
    have exclusive := run.last_of_always boot_exclusive.1 always
    exact absurd (exclusive.distinct _ _ _ _ shared.1 shared.2.1 shared.2.2).2 (by decide)

end PagingState

end Sosis.Kernel
