import Sosis.PagingHistory
import Sosis.ProcessTable

-- The memory a creation gives to its process: which frames the pages get, and when
-- they are the process's own.
namespace Sosis.Kernel
open TransitionRuns
open Fat32 (Word FAT32DriverRequest)

abbrev DirectorySlot := Fin PAGING_DIRECTORY_TABLE_MAX_COUNT

namespace PagingState
variable {s s' : PagingState}

-- Whatever the counter says, the hint is a frame and no free frame lies below it.
structure Hinted (s : PagingState) : Prop where
  hint : s.hint < PAGE_FRAME_MAX_COUNT
  above : ∀ f, s.frames f = false → s.hint ≤ f.val

-- The directory maps nothing but, possibly, entry 0x300.
def Bare (s : PagingState) (d : DirectorySlot) : Prop := ∀ k, k ≠ 0x300 → ¬ s.Present (.list d) k

structure Pooled (s : PagingState) : Prop where
  hinted : Hinted s
  cleared : ∀ d, s.page_directory_used d = false → s.Bare d

theorem boot_pooled : Pooled boot := by
  refine ⟨⟨by decide,fun f free => ?_⟩,fun d _ k _ present => ?_⟩
  · have notZero : f ≠ 0 := by
      rintro rfl
      cases free
    exact Nat.one_le_iff_ne_zero.mpr fun zero => notZero (Fin.ext zero)
  · cases present

section allocated
variable {d : PageDirectoryPtr} {k : PageIndex} {f g : Frame}

theorem Allocated.free_before (took : Allocated s s' d k f) (free : s'.frames g = false) : g ≠ f ∧ s.frames g = false := by
  rw [took.frames] at free
  by_cases same : g = f
  · rw [same,Function.update_self] at free
    cases free
  · exact ⟨same,by rwa [Function.update_of_ne same] at free⟩

-- What is still free lies above the frame just taken, so the search upwards from it
-- finds all of it.
theorem Allocated.free_later (took : Allocated s s' d k f) (hinted : Hinted s) (free : s'.frames g = false) : f < g := by
  obtain ⟨other,before⟩ := took.free_before free
  have low := hinted.above g before
  rw [took.hinted] at low
  exact lt_of_le_of_ne (Fin.le_def.mpr low) other.symm

theorem Allocated.next_free (took : Allocated s s' d k f) (hinted : Hinted s) (free : s'.frames g = false) :
    ∃ h : Frame, s'.hint = h.val ∧ s'.frames h = false ∧ h ≤ g := by
  have above := took.free_later hinted free
  rcases took.next with ⟨h,later,free',between,next⟩ | ⟨full,_⟩
  · refine ⟨h,next,?_,?_⟩
    · rw [took.frames,Function.update_of_ne (Fin.ne_of_gt later)]
      exact free'
    · by_contra below
      have taken := between g above (not_le.mp below)
      rw [(took.free_before free).2] at taken
      cases taken
  · have taken := full g above
    rw [(took.free_before free).2] at taken
    cases taken

theorem Allocated.hinted_kept (took : Allocated s s' d k f) (hinted : Hinted s) : Hinted s' := by
  refine ⟨?_,fun g free => ?_⟩
  · rcases took.next with ⟨g,_,_,_,next⟩ | ⟨_,next⟩
    · rw [next]; exact g.isLt
    · rw [next]; exact hinted.hint
  · obtain ⟨h,next,_,below⟩ := took.next_free hinted free
    rw [next]
    exact below

theorem Allocated.hintFree_next (took : Allocated s s' d k f) (hinted : Hinted s) (more : 0 < s'.freeFrames.card) :
    s'.HintFree := by
  obtain ⟨g,member⟩ := Finset.card_pos.mp more
  obtain ⟨h,next,free,_⟩ := took.next_free hinted (mem_freeFrames.mp member)
  intro e at_
  rwa [show e = h from Fin.ext (at_.symm.trans next)]

theorem Allocated.bare_other {d' : DirectorySlot} (took : Allocated s s' d k f) (other : .list d' ≠ d) (bare : s.Bare d') :
    s'.Bare d' := by
  intro k' notKernel present
  rw [Present,took.others _ k' (Or.inl other)] at present
  exact bare k' notKernel present

end allocated

theorem Returned.hinted_kept {d : PageDirectoryPtr} {k : PageIndex} {f : Frame} (gave : Returned s s' d k f)
    (hinted : Hinted s) : Hinted s' := by
  refine ⟨?_,fun g free => ?_⟩
  · rw [gave.next]
    exact lt_of_le_of_lt (min_le_left _ _) f.isLt
  · rw [gave.next]
    by_cases same : g = f
    · rw [same]
      exact min_le_left _ _
    · rw [gave.frames,Function.update_of_ne same] at free
      exact (min_le_right _ _).trans (hinted.above g free)

end PagingState

open PagingState

theorem Frees.hinted {d : PageDirectoryPtr} {s s' : PagingState} (frees : Frees d s s') (hinted : Hinted s) : Hinted s' := by
  induction frees with
  | refl => exact hinted
  | step gave _ ih => exact ih (gave.hinted_kept hinted)

theorem Frees.bare {d : PageDirectoryPtr} {d' : DirectorySlot} {s s' : PagingState} (frees : Frees d s s') (bare : s.Bare d') :
    s'.Bare d' := by
  intro k notKernel present
  refine bare k notKernel ?_
  by_cases same : .list d' = d
  · subst same
    rw [Present,← frees.present present]
    exact present
  · rw [Present,← frees.other same]
    exact present

theorem Frees.pooled {d : PageDirectoryPtr} {s s' : PagingState} (frees : Frees d s s') (pooled : Pooled s) : Pooled s' :=
  ⟨frees.hinted pooled.hinted,fun d' unused => frees.bare (pooled.cleared d' (frees.used ▸ unused))⟩

theorem freed_bare {page_dir : PageDirectoryPtr} {s s' : PagingState} {r : Bool}
    (ran : s.paging_free_page_directory page_dir = some (r,s')) (cleared : ∀ d, s.page_directory_used d = false → s.Bare d) :
    ∀ d, s'.page_directory_used d = false → s'.Bare d := by
  rcases paging_free_page_directory_cases ran with ⟨_,rfl⟩ | ⟨d,_,frees,empty⟩
  · exact cleared
  · intro d' unused
    by_cases same : d' = d
    · subst same
      intro k notKernel present
      rw [Present,empty k notKernel] at present
      cases present
    · rw [frees.used] at unused
      exact frees.bare (cleared d' (by simpa [same] using unused))

theorem freed_pooled {page_dir : PageDirectoryPtr} {s s' : PagingState} {r : Bool}
    (ran : s.paging_free_page_directory page_dir = some (r,s')) (pooled : Pooled s) : Pooled s' := by
  refine ⟨?_,freed_bare ran pooled.cleared⟩
  rcases paging_free_page_directory_cases ran with ⟨_,rfl⟩ | ⟨d,_,frees,_⟩
  · exact pooled.hinted
  · exact frees.hinted ⟨pooled.hinted.hint,pooled.hinted.above⟩

theorem Opened.bare_later {d : DirectorySlot} {s s' : PagingState} (opens : Opened s s' d)
    (cleared : ∀ d, s.page_directory_used d = false → s.Bare d) : ∀ d, s'.page_directory_used d = false → s'.Bare d := by
  intro d' unused k notKernel present
  have before : s.page_directory_used d' = false := by
    by_cases same : d' = d
    · rw [same]
      exact opens.unused
    · rwa [opens.used,Function.update_of_ne same] at unused
  rw [Present,opens.others _ k (Or.inr notKernel)] at present
  exact cleared d' before k notKernel present

theorem Opened.pooled {d : DirectorySlot} {s s' : PagingState} (opens : Opened s s' d) (pooled : Pooled s) : Pooled s' := by
  refine ⟨⟨?_,fun f free => ?_⟩,opens.bare_later pooled.cleared⟩
  · rw [hint,opens.pool]
    exact pooled.hinted.hint
  · rw [frames,opens.pool] at free
    rw [hint,opens.pool]
    exact pooled.hinted.above f free

theorem mapPages_pooled {d : DirectorySlot} {buf : Word} {turns i : Nat} {used used' : Fin PROCESS_PAGE_FRAME_COUNT_MAX → Word}
    {s s' : PagingState} (inUse : s.page_directory_used d = true) (ran : mapPages (.list d) buf turns i used s = some (used',s'))
    (pooled : Pooled s) : Pooled s' := by
  induction turns generalizing i used s with
  | zero =>
    cases ran
    exact pooled
  | succ turns ih =>
    obtain ⟨_,r,middle,allocated,later⟩ := mapPages_succ.mp ran
    rcases paging_allocate_cases allocated with ⟨_,_,rfl⟩ | ⟨_,_,f,took⟩
    · exact ih inUse later pooled
    · refine ih (took.used ▸ inUse) later ⟨took.hinted_kept pooled.hinted,fun d' unused => ?_⟩
      rw [took.used] at unused
      refine took.bare_other ?_ (pooled.cleared d' unused)
      rintro ⟨⟩
      rw [inUse] at unused
      cases unused

def pageAt (buf : Word) (j : Nat) : PageIndex :=
  page_index (buf + BitVec.ofNat 32 j * BitVec.ofNat 32 PAGE_FRAME_SIZE)

section mapped
variable {d : PageDirectoryPtr} {buf : Word} {turns i : Nat} {used used' : Fin PROCESS_PAGE_FRAME_COUNT_MAX → Word}
  {s s' : PagingState}

theorem pageAt_toNat (below : buf < KERNEL_VIRTUAL_ADDRESS_BASE) {j : Nat} (bound : j < PROCESS_PAGE_FRAME_COUNT_MAX) :
    (pageAt buf j).toNat = buf.toNat / PAGE_FRAME_SIZE + j := by
  have low : buf.toNat < 0xC0000000 := BitVec.lt_def.mp below
  have few : j < 8 := bound
  have offset : (BitVec.ofNat 32 j * BitVec.ofNat 32 PAGE_FRAME_SIZE).toNat = j * PAGE_FRAME_SIZE := by
    rw [BitVec.toNat_mul,BitVec.toNat_ofNat,BitVec.toNat_ofNat,Nat.mod_eq_of_lt (by omega : j < 2^32)]
    simp only [PAGE_FRAME_SIZE]
    omega
  unfold pageAt
  rw [page_index_toNat,BitVec.toNat_add,offset]
  simp only [PAGE_FRAME_SIZE]
  omega

theorem pageAt_injective (below : buf < KERNEL_VIRTUAL_ADDRESS_BASE) {j j' : Nat} (bound : j < PROCESS_PAGE_FRAME_COUNT_MAX)
    (bound' : j' < PROCESS_PAGE_FRAME_COUNT_MAX) (same : pageAt buf j = pageAt buf j') : j = j' := by
  have numbers := congrArg BitVec.toNat same
  rw [pageAt_toNat below bound,pageAt_toNat below bound'] at numbers
  exact Nat.add_left_cancel numbers

theorem mapPages_fits (ran : mapPages d buf turns i used s = some (used',s')) (some_ : turns ≠ 0) :
    i + turns ≤ PROCESS_PAGE_FRAME_COUNT_MAX := by
  induction turns generalizing i used s with
  | zero => exact absurd rfl some_
  | succ turns ih =>
    obtain ⟨bound,r,middle,_,later⟩ := mapPages_succ.mp ran
    by_cases last : turns = 0
    · subst last
      exact bound
    · have rest := ih later last
      omega

theorem mapPages_used (ran : mapPages d buf turns i used s = some (used',s')) (j : Fin PROCESS_PAGE_FRAME_COUNT_MAX) :
    used' j = if i ≤ j.val ∧ j.val < i + turns then buf + BitVec.ofNat 32 j * BitVec.ofNat 32 PAGE_FRAME_SIZE
      else used j := by
  induction turns generalizing i used s with
  | zero =>
    cases ran
    rw [if_neg (by omega)]
  | succ turns ih =>
    obtain ⟨bound,r,middle,_,later⟩ := mapPages_succ.mp ran
    rw [ih later]
    by_cases here : j.val = i
    · have same : j = ⟨i,bound⟩ := Fin.ext here
      rw [if_neg (by omega),if_pos (by omega),same,Function.update_self]
    · have other : j ≠ ⟨i,bound⟩ := fun same => here (congrArg Fin.val same)
      rw [Function.update_of_ne other]
      exact if_congr (by omega) rfl rfl

theorem mapPages_other (ran : mapPages d buf turns i used s = some (used',s')) {k : PageIndex}
    (outside : ∀ j, i ≤ j → j < i + turns → k ≠ pageAt buf j) : s'.directory d k = s.directory d k := by
  induction turns generalizing i used s with
  | zero =>
    cases ran
    rfl
  | succ turns ih =>
    obtain ⟨_,r,middle,allocated,later⟩ := mapPages_succ.mp ran
    rw [ih later fun j low high => outside j (by omega) (by omega)]
    rcases paging_allocate_cases allocated with ⟨_,_,rfl⟩ | ⟨_,_,f,took⟩
    · rfl
    · exact took.others d k (Or.inr (outside i (Nat.le_refl _) (by omega)))

theorem mapPages_first (below : buf < KERNEL_VIRTUAL_ADDRESS_BASE) (fits : i + (turns+1) ≤ PROCESS_PAGE_FRAME_COUNT_MAX)
    {middle : PagingState} (later : mapPages d buf turns (i+1) used middle = some (used',s')) :
    s'.directory d (pageAt buf i) = middle.directory d (pageAt buf i) := by
  refine mapPages_other later fun j low high same => ?_
  have equal := pageAt_injective below (by omega) (by omega) same
  omega

-- With too few frames in the counter the last page of the loop is not mapped, and
-- nothing says so.
theorem mapPages_exhausted (below : buf < KERNEL_VIRTUAL_ADDRESS_BASE) (short : s.freeCount < turns)
    (ran : mapPages d buf turns i used s = some (used',s')) :
    s'.directory d (pageAt buf (i + turns - 1)) = s.directory d (pageAt buf (i + turns - 1)) := by
  induction turns generalizing i used s with
  | zero => omega
  | succ turns ih =>
    have fits := mapPages_fits ran (Nat.succ_ne_zero _)
    obtain ⟨bound,r,middle,allocated,later⟩ := mapPages_succ.mp ran
    have place : i + (turns+1) - 1 = i + 1 + turns - 1 := by omega
    rcases paging_allocate_cases allocated with ⟨_,none,rfl⟩ | ⟨_,some_,f,took⟩
    · by_cases last : turns = 0
      · subst last
        exact mapPages_first below fits later
      · rw [place]
        exact ih (by omega) later
    · have fewer := took.count
      rw [place,ih (by omega) later]
      refine took.others d _ (Or.inr fun same => ?_)
      have equal := pageAt_injective below (by omega) bound same
      omega

-- With enough frames, and the hint on a free one, every turn takes a free frame of
-- its own.
theorem mapPages_takes (below : buf < KERNEL_VIRTUAL_ADDRESS_BASE) (hinted : Hinted s) (counted : turns ≤ s.freeCount)
    (cells : turns ≤ s.freeFrames.card) (free : turns ≠ 0 → s.HintFree)
    (ran : mapPages d buf turns i used s = some (used',s')) {j : Nat} (low : i ≤ j) (high : j < i + turns) :
    ∃ f, s.frames f = false ∧ s'.directory d (pageAt buf j) = ⟨userFlag,frameIndex f⟩ ∧
      ∀ j', i ≤ j' → j' < i + turns → (s'.directory d (pageAt buf j')).lower_address = frameIndex f → j' = j := by
  induction turns generalizing i used s j with
  | zero => omega
  | succ turns ih =>
    have fits := mapPages_fits ran (Nat.succ_ne_zero _)
    obtain ⟨bound,r,middle,allocated,later⟩ := mapPages_succ.mp ran
    rcases paging_allocate_cases allocated with ⟨_,none,_⟩ | ⟨_,_,f,took⟩
    · omega
    · have taken := took.hintFree_iff.mp (free (Nat.succ_ne_zero _))
      have card := took.card
      rw [if_pos taken] at card
      have entry : s'.directory d (pageAt buf i) = ⟨userFlag,frameIndex f⟩ :=
        (mapPages_first below fits later).trans took.entry
      have fewer := took.count
      have hint (more : turns ≠ 0) : middle.HintFree := took.hintFree_next hinted (by omega)
      have rest {j : Nat} := ih (j := j) (took.hinted_kept hinted) (by omega) (by omega) hint later
      by_cases first : j = i
      · subst first
        refine ⟨f,taken,entry,fun j' low' high' same => ?_⟩
        by_contra other
        obtain ⟨g,stillFree,entry',_⟩ := rest (j := j') (by omega) (by omega)
        rw [entry'] at same
        exact (took.free_before stillFree).1 (frameIndex_injective same)
      · obtain ⟨g,stillFree,entry',own⟩ := rest (j := j) (by omega) (by omega)
        obtain ⟨other,before⟩ := took.free_before stillFree
        refine ⟨g,before,entry',fun j' low' high' same => ?_⟩
        by_cases first' : j' = i
        · rw [first',entry] at same
          exact absurd (frameIndex_injective same).symm other
        · exact own j' (by omega) (by omega) same

end mapped

-- The pages of the executable, and one for the stack.
def pagesFor (request : FAT32DriverRequest) : Nat :=
  (request.buffer_size.toNat + PAGE_FRAME_SIZE - 1) / PAGE_FRAME_SIZE + 1

theorem ceil_div_toNat (a : Word) : (ceil_div a (BitVec.ofNat 32 PAGE_FRAME_SIZE)).toNat =
    (a.toNat + PAGE_FRAME_SIZE - 1) / PAGE_FRAME_SIZE := by
  have range := a.isLt
  have size : (BitVec.ofNat 32 PAGE_FRAME_SIZE).toNat = 4194304 := rfl
  have quotient : (a / BitVec.ofNat 32 PAGE_FRAME_SIZE).toNat = a.toNat / 4194304 := by rw [BitVec.toNat_udiv,size]
  have rest : a % BitVec.ofNat 32 PAGE_FRAME_SIZE = 0 ↔ a.toNat % 4194304 = 0 := by
    rw [← BitVec.toNat_inj,BitVec.toNat_umod,size]
    rfl
  simp only [ceil_div,PAGE_FRAME_SIZE] at quotient rest ⊢
  rw [if_neg (by decide)]
  split
  · rename_i more
    rw [ne_eq,rest] at more
    rw [BitVec.toNat_add,quotient,show (1 : Word).toNat = 1 from rfl]
    omega
  · rename_i whole
    rw [ne_eq,not_not,rest] at whole
    rw [quotient]
    omega

-- The request is rounded up to pages after the addition of the stack page has
-- already wrapped around.
theorem page_frame_count_needed_toNat (request : FAT32DriverRequest) : (page_frame_count_needed request).toNat =
    ((request.buffer_size.toNat + PAGE_FRAME_SIZE) % 2^32 + PAGE_FRAME_SIZE - 1) / PAGE_FRAME_SIZE := by
  unfold page_frame_count_needed
  rw [ceil_div_toNat,BitVec.toNat_add]
  rfl

theorem needed_of_small {request : FAT32DriverRequest} (small : request.buffer_size.toNat + PAGE_FRAME_SIZE < 2^32) :
    (page_frame_count_needed request).toNat = pagesFor request := by
  rw [page_frame_count_needed_toNat,Nat.mod_eq_of_lt small]
  simp only [pagesFor,PAGE_FRAME_SIZE]
  omega

theorem needed_of_large {request : FAT32DriverRequest} (large : 2^32 ≤ request.buffer_size.toNat + PAGE_FRAME_SIZE) :
    (page_frame_count_needed request).toNat ≤ 1 := by
  have range := request.buffer_size.isLt
  rw [page_frame_count_needed_toNat]
  simp only [PAGE_FRAME_SIZE] at large ⊢
  omega

namespace KernelState
variable {k k' : KernelState}

-- The entry of page j of the process in slot i, in its own directory.
def pageEntry (k : KernelState) (i : Slot) (j : Fin PROCESS_PAGE_FRAME_COUNT_MAX) : Option PageDirectoryEntry :=
  (k.process_list i).context.page_directory_virtual_addr.map fun page_dir =>
    k.paging.directory page_dir (page_index ((k.process_list i).memory.virtual_addr_used j))

def Uses (k : KernelState) (i : Slot) (j : Fin PROCESS_PAGE_FRAME_COUNT_MAX) : Prop :=
  j.val < (k.process_list i).memory.page_frame_used_count.toNat

-- Some page of the process in slot i holds the address.
def Holds (k : KernelState) (i : Slot) (addr : Word) : Prop :=
  ∃ j, k.Uses i j ∧ page_index ((k.process_list i).memory.virtual_addr_used j) = page_index addr

-- What a process in slot i, created out of the state k, owns.
structure Owned (k k' : KernelState) (request : FAT32DriverRequest) (i : Slot) : Prop where
  count : (k'.process_list i).memory.page_frame_used_count.toNat ≤ PROCESS_PAGE_FRAME_COUNT_MAX
  mapped : ∀ j, k'.Uses i j → ∃ entry f, k'.pageEntry i j = some entry ∧ entry.flag.present_bit = true ∧
    entry.flag.user_bit = true ∧ entry.lower_address = frameIndex f ∧ k.paging.frames f = false
  distinct : ∀ j j' entry entry', k'.Uses i j → k'.Uses i j' → k'.pageEntry i j = some entry →
    k'.pageEntry i j' = some entry' → entry.lower_address = entry'.lower_address → j = j'
  image : ∀ x : Nat, x < request.buffer_size.toNat → k'.Holds i (request.buf + BitVec.ofNat 32 x)
  stack : k'.Holds i ((k'.process_list i).context.cpu.esp - 1)

-- The stack's page is the first of the image, the counter and the map both have
-- enough frames, and the hint is on a free one.
structure Affordable (k : KernelState) (request : FAT32DriverRequest) : Prop where
  base : request.buf.toNat < PAGE_FRAME_SIZE
  counted : pagesFor request ≤ k.paging.freeCount
  cells : pagesFor request ≤ k.paging.freeFrames.card
  hint : k.paging.HintFree

theorem Affordable.small {request : FAT32DriverRequest} (affordable : k.Affordable request) :
    request.buffer_size.toNat + PAGE_FRAME_SIZE < 2^32 := by
  have cells := affordable.cells.trans (Finset.card_le_univ _)
  rw [Fintype.card_fin] at cells
  simp only [pagesFor,PAGE_FRAME_SIZE,PAGE_FRAME_MAX_COUNT] at cells ⊢
  omega

section created
variable {request : FAT32DriverRequest} {i : Slot} {d : DirectorySlot} {opened : PagingState}

theorem Created.few (created : Created k k' request i d opened) :
    (page_frame_count_needed request).toNat ≤ PROCESS_PAGE_FRAME_COUNT_MAX := BitVec.le_def.mp created.fits

theorem Created.uses_iff (created : Created k k' request i d opened) {j : Fin PROCESS_PAGE_FRAME_COUNT_MAX} :
    k'.Uses i j ↔ j.val < (page_frame_count_needed request).toNat := by rw [Uses,created.pages]

theorem Created.page (created : Created k k' request i d opened) {j : Fin PROCESS_PAGE_FRAME_COUNT_MAX}
    (uses : k'.Uses i j) : page_index ((k'.process_list i).memory.virtual_addr_used j) = pageAt request.buf j.val := by
  have turn := created.uses_iff.mp uses
  rw [mapPages_used created.mapped,if_pos ⟨Nat.zero_le _,by omega⟩]
  rfl

theorem Created.pageEntry (created : Created k k' request i d opened) {j : Fin PROCESS_PAGE_FRAME_COUNT_MAX}
    (uses : k'.Uses i j) : k'.pageEntry i j = some (k'.paging.directory (.list d) (pageAt request.buf j.val)) := by
  rw [KernelState.pageEntry,created.directory,Option.map_some,created.page uses]

theorem Created.holds_iff (created : Created k k' request i d opened) {addr : Word} :
    k'.Holds i addr ↔ ∃ j < (page_frame_count_needed request).toNat, pageAt request.buf j = page_index addr := by
  constructor
  · rintro ⟨j,uses,at_⟩
    exact ⟨j.val,created.uses_iff.mp uses,(created.page uses).symm.trans at_⟩
  · rintro ⟨j,turn,at_⟩
    have uses : k'.Uses i ⟨j,lt_of_lt_of_le turn created.few⟩ := created.uses_iff.mpr turn
    exact ⟨_,uses,(created.page uses).trans at_⟩

theorem image_page (below : request.buf < KERNEL_VIRTUAL_ADDRESS_BASE) {x : Nat} (bound : x < 2^30) :
    (page_index (request.buf + BitVec.ofNat 32 x)).toNat = (request.buf.toNat + x) / PAGE_FRAME_SIZE := by
  have low : request.buf.toNat < 0xC0000000 := BitVec.lt_def.mp below
  rw [page_index_toNat,BitVec.toNat_add,BitVec.toNat_ofNat]
  simp only [PAGE_FRAME_SIZE]
  omega

theorem Created.image_of_small (created : Created k k' request i d opened)
    (small : request.buffer_size.toNat + PAGE_FRAME_SIZE < 2^32) {x : Nat} (inside : x < request.buffer_size.toNat) :
    k'.Holds i (request.buf + BitVec.ofNat 32 x) := by
  have few := created.few
  have needed := needed_of_small small
  have turn : (request.buf.toNat + x) / PAGE_FRAME_SIZE - request.buf.toNat / PAGE_FRAME_SIZE <
      (page_frame_count_needed request).toNat := by
    simp only [needed,pagesFor,PAGE_FRAME_SIZE]
    omega
  refine created.holds_iff.mpr ⟨_,turn,BitVec.eq_of_toNat_eq ?_⟩
  rw [needed] at few
  simp only [pagesFor,PAGE_FRAME_SIZE,PROCESS_PAGE_FRAME_COUNT_MAX] at few
  rw [pageAt_toNat created.below (lt_of_lt_of_le turn created.few),image_page created.below (by omega)]
  simp only [PAGE_FRAME_SIZE]
  omega

-- A size that wraps around leaves at most one page for an image of almost 4 GiB.
theorem Created.small_of_image (created : Created k k' request i d opened)
    (image : ∀ x : Nat, x < request.buffer_size.toNat → k'.Holds i (request.buf + BitVec.ofNat 32 x)) :
    request.buffer_size.toNat + PAGE_FRAME_SIZE < 2^32 := by
  by_contra large
  have one := needed_of_large (not_lt.mp large)
  simp only [PAGE_FRAME_SIZE] at large
  obtain ⟨j,turn,at_⟩ := created.holds_iff.mp (image 0 (by omega))
  obtain ⟨j',turn',at_'⟩ := created.holds_iff.mp (image PAGE_FRAME_SIZE (by simp only [PAGE_FRAME_SIZE]; omega))
  have same : j = j' := by omega
  subst same
  have pages := congrArg BitVec.toNat (at_.symm.trans at_')
  rw [image_page created.below (by omega),image_page created.below (by simp only [PAGE_FRAME_SIZE]; omega)] at pages
  simp only [PAGE_FRAME_SIZE] at pages
  omega

theorem Created.stack_iff (created : Created k k' request i d opened)
    (small : request.buffer_size.toNat + PAGE_FRAME_SIZE < 2^32) :
    k'.Holds i ((k'.process_list i).context.cpu.esp - 1) ↔ request.buf.toNat < PAGE_FRAME_SIZE := by
  rw [created.holds_iff,created.esp]
  have top : (page_index (0x400000 - 1)).toNat = 0 := by decide
  constructor
  · rintro ⟨j,turn,at_⟩
    have page := congrArg BitVec.toNat at_
    rw [pageAt_toNat created.below (lt_of_lt_of_le turn created.few),top] at page
    simp only [PAGE_FRAME_SIZE] at page ⊢
    omega
  · intro base
    have turn : 0 < (page_frame_count_needed request).toNat := by
      rw [needed_of_small small]
      exact Nat.succ_pos _
    refine ⟨0,turn,BitVec.eq_of_toNat_eq ?_⟩
    rw [pageAt_toNat created.below (lt_of_lt_of_le turn created.few),top]
    simp only [PAGE_FRAME_SIZE] at base ⊢
    omega

theorem Opened.same_pool {s : PagingState} (opens : Opened s opened d) : opened.frames = s.frames ∧
    opened.freeCount = s.freeCount ∧ opened.hint = s.hint ∧ opened.freeFrames = s.freeFrames := by
  unfold PagingState.freeFrames PagingState.frames PagingState.freeCount PagingState.hint
  rw [opens.pool]
  exact ⟨rfl,rfl,rfl,rfl⟩

theorem Created.owned (created : Created k k' request i d opened) (pooled : Pooled k.paging)
    (affordable : k.Affordable request) : Owned k k' request i := by
  have small := affordable.small
  have needed := needed_of_small small
  obtain ⟨frames,count,hint,cells⟩ := Opened.same_pool created.opens
  have free : opened.HintFree := by
    intro f at_
    rw [frames]
    exact affordable.hint f (hint ▸ at_)
  have takes {j : Fin PROCESS_PAGE_FRAME_COUNT_MAX} (uses : k'.Uses i j) := mapPages_takes (j := j.val) created.below
    (created.opens.pooled pooled).hinted (by rw [count,needed]; exact affordable.counted)
    (by rw [cells,needed]; exact affordable.cells) (fun _ => free) created.mapped (Nat.zero_le _)
    (by rw [Nat.zero_add]; exact created.uses_iff.mp uses)
  refine ⟨?_,fun j uses => ?_,fun j j' entry entry' uses uses' at_ at_' same => ?_,
    fun x inside => created.image_of_small small inside,(created.stack_iff small).mpr affordable.base⟩
  · rw [created.pages]
    exact created.few
  · obtain ⟨f,before,entry,_⟩ := takes uses
    exact ⟨_,f,created.pageEntry uses,by rw [entry]; rfl,by rw [entry]; rfl,by rw [entry],frames ▸ before⟩
  · obtain ⟨f,_,page,own⟩ := takes uses'
    rw [created.pageEntry uses] at at_
    rw [created.pageEntry uses'] at at_'
    cases at_
    cases at_'
    rw [page] at same
    exact Fin.ext (own j.val (Nat.zero_le _) (by rw [Nat.zero_add]; exact created.uses_iff.mp uses) same)

-- Otherwise the last turn finds the counter at 0, and the entry is still the one that
-- the directory had when it was not in use.
theorem Created.counted (created : Created k k' request i d opened) (pooled : Pooled k.paging)
    (base : request.buf.toNat < PAGE_FRAME_SIZE) {turns : Nat}
    (more : (page_frame_count_needed request).toNat = turns + 1)
    (present : (k'.paging.directory (.list d) (pageAt request.buf turns)).flag.present_bit = true) :
    turns + 1 ≤ k.paging.freeCount := by
  by_contra short
  obtain ⟨_,count,_,_⟩ := Opened.same_pool created.opens
  have few := created.few
  have mapped := created.mapped
  rw [more] at mapped few
  have last := mapPages_exhausted created.below (by rw [count]; omega) mapped
  rw [show 0 + (turns+1) - 1 = turns by omega] at last
  have place := pageAt_toNat created.below few
  simp only [PAGE_FRAME_SIZE,PROCESS_PAGE_FRAME_COUNT_MAX] at base place few
  have notKernel : pageAt request.buf turns ≠ 0x300 := by
    intro kernel
    rw [kernel,show (0x300 : PageIndex).toNat = 768 from rfl] at place
    omega
  rw [last,created.opens.others _ _ (Or.inr notKernel)] at present
  exact pooled.cleared d created.opens.unused _ notKernel present

theorem freeFrames_le {s : PagingState} {n : Nat} {frame : Fin n → Frame} (injective : Function.Injective frame)
    (free : ∀ j, s.frames (frame j) = false) : n ≤ s.freeFrames.card := by
  calc n = (Finset.univ.image frame).card := by
        rw [Finset.card_image_of_injective _ injective,Finset.card_univ,Fintype.card_fin]
    _ ≤ s.freeFrames.card := Finset.card_le_card fun f member => by
        obtain ⟨j,_,rfl⟩ := Finset.mem_image.mp member
        exact mem_freeFrames.mpr (free j)

theorem Created.affordable (created : Created k k' request i d opened) (pooled : Pooled k.paging)
    (owned : Owned k k' request i) : k.Affordable request := by
  have small := created.small_of_image owned.image
  have needed := needed_of_small small
  have base := (created.stack_iff small).mp owned.stack
  obtain ⟨frames,count,hint,_⟩ := Opened.same_pool created.opens
  obtain ⟨turns,more⟩ : ∃ turns, (page_frame_count_needed request).toNat = turns + 1 := ⟨_,needed⟩
  have few := created.few
  have uses {j : Fin PROCESS_PAGE_FRAME_COUNT_MAX} (turn : j.val < turns + 1) : k'.Uses i j :=
    created.uses_iff.mpr (more ▸ turn)
  have page {j : Fin PROCESS_PAGE_FRAME_COUNT_MAX} (turn : j.val < turns + 1) :
      (k'.paging.directory (.list d) (pageAt request.buf j.val)).flag.present_bit = true ∧
        ∃ f, (k'.paging.directory (.list d) (pageAt request.buf j.val)).lower_address = frameIndex f ∧
          k.paging.frames f = false := by
    obtain ⟨entry,f,at_,present,_,frame,free⟩ := owned.mapped j (uses turn)
    rw [created.pageEntry (uses turn)] at at_
    cases at_
    exact ⟨present,f,frame,free⟩
  have mapped := created.mapped
  rw [more] at mapped few
  have counted := created.counted pooled base more (page (j := ⟨turns,few⟩) (Nat.lt_succ_self _)).1
  refine ⟨base,by rw [← needed,more]; exact counted,?_,?_⟩
  · rw [← needed,more]
    choose frame at_ free using fun j : Fin (turns+1) => (page (j := ⟨j.val,lt_of_lt_of_le j.isLt few⟩) j.isLt).2
    have injective : Function.Injective frame := by
      intro j j' same
      have fits (j : Fin (turns+1)) : j.val < PROCESS_PAGE_FRAME_COUNT_MAX := lt_of_lt_of_le j.isLt few
      have equal := owned.distinct ⟨j.val,fits j⟩ ⟨j'.val,fits j'⟩ _ _ (uses j.isLt) (uses j'.isLt)
        (created.pageEntry (uses j.isLt)) (created.pageEntry (uses j'.isLt)) (by rw [at_ j,at_ j',same])
      exact Fin.ext (Fin.mk.inj equal)
    exact freeFrames_le injective free
  · obtain ⟨_,r,middle,allocated,later⟩ := mapPages_succ.mp mapped
    rcases paging_allocate_cases allocated with ⟨_,none,_⟩ | ⟨_,_,f,took⟩
    · rw [count] at none
      omega
    · obtain ⟨_,g,at_,free⟩ := page (j := ⟨0,by decide⟩) (Nat.succ_pos _)
      have first := (mapPages_first created.below (by omega) later).trans took.entry
      rw [first] at at_
      have same : f = g := frameIndex_injective at_
      intro e hinted
      rw [← hint,took.hinted] at hinted
      rwa [show e = g from Fin.ext (hinted.symm.trans (congrArg Fin.val same))]

end created

theorem Created.paging_pooled {request : FAT32DriverRequest} {i : Slot} {d : DirectorySlot} {opened : PagingState}
    (created : Created k k' request i d opened) (pooled : Pooled k.paging) : Pooled k'.paging := by
  refine mapPages_pooled ?_ created.mapped (created.opens.pooled pooled)
  rw [created.opens.used]
  exact Function.update_self _ _ _

theorem Destroyed.paging_pooled {pid : Word} {i : Slot} (destroyed : Destroyed k k' pid i) (pooled : Pooled k.paging) :
    Pooled k'.paging := by
  obtain ⟨page_dir,released,r,_,frees,freed⟩ := destroyed.paging
  exact freed_pooled freed (frees.pooled pooled)

def PoolKept (k : KernelState) : Prop := Pooled k.paging

theorem boot_poolKept : PoolKept boot := boot_pooled

theorem pooled_kept {a : ProcessAction} (pooled : PoolKept k) (step : k.Step a k') : PoolKept k' := by
  rcases step_cases step with ⟨request,rfl,⟨_,_,_,rfl⟩ | ⟨_,i,d,opened,created⟩⟩ |
      ⟨pid,rfl,⟨_,rfl,_⟩ | ⟨_,i,destroyed⟩⟩ | ⟨ctx,rfl,i,saved⟩ | ⟨rfl,i,ctx,switched⟩
  · exact pooled
  · exact created.paging_pooled pooled
  · exact pooled
  · exact destroyed.paging_pooled pooled
  · rwa [PoolKept,saved.paging]
  · rwa [PoolKept,switched.alike.paging]

def OwnsMemory (k k' : KernelState) (request : FAT32DriverRequest) : Prop :=
  ∀ i, k.process_list_get_inactive_index = some i → Owned k k' request i

theorem ownsMemory_iff {history : List (Transition KernelState ProcessAction)} {k k' : KernelState}
    (run : Run Step boot history k) {request : FAT32DriverRequest}
    (succeeds : k.process_create_user_process request = some (PROCESS_CREATE_SUCCESS,k')) :
    OwnsMemory k k' request ↔ k.Affordable request := by
  have pooled : PoolKept k := run.invariant boot_poolKept fun _ _ _ pooled step => pooled_kept pooled step
  rcases create_cases succeeds with ⟨failed,_⟩ | ⟨_,i,d,opened,created⟩
  · exact absurd rfl failed
  · constructor
    · exact fun owns => created.affordable pooled (owns i created.slot)
    · intro affordable j slot
      cases created.slot.symm.trans slot
      exact created.owned pooled affordable

def setup : List ProcessAction := [.create shellRequest,.switch]

-- After them the request succeeds in slot i, with so many pages.
def creates (request : FAT32DriverRequest) (i : Slot) (count : Word) : Bool :=
  (boot.replay setup).any fun k => (k.process_create_user_process request).any fun (code,k') =>
    code = PROCESS_CREATE_SUCCESS ∧ k.process_list_get_inactive_index = some i ∧
      (k'.process_list i).memory.page_frame_used_count = count

theorem setup_create {request : FAT32DriverRequest} {i : Slot} {count : Word} (defined : creates request i count = true) :
    ∃ history k k', Run Step boot history k ∧ history.map Transition.action = setup ∧
      k.process_create_user_process request = some (PROCESS_CREATE_SUCCESS,k') ∧
      k.process_list_get_inactive_index = some i ∧ (k'.process_list i).memory.page_frame_used_count = count := by
  obtain ⟨k,replayed,creates⟩ := (Option.any_eq_true _ _).mp defined
  obtain ⟨⟨code,k'⟩,succeeds,checked⟩ := (Option.any_eq_true _ _).mp creates
  obtain ⟨rfl,slot,pages⟩ := of_decide_eq_true checked
  obtain ⟨history,run,actions⟩ := replay_run replayed
  exact ⟨history,k,k',run,actions,succeeds,slot,pages⟩

theorem ownsMemory_iff_helper : ∃ history k k', Run Step boot history k ∧ history.map Transition.action = setup ∧
    k.process_create_user_process helperRequest = some (PROCESS_CREATE_SUCCESS,k') ∧
    (OwnsMemory k k' helperRequest ↔ k.Affordable helperRequest) := by
  have defined : creates helperRequest 15 2 = true := by decide +kernel
  obtain ⟨history,k,k',run,actions,succeeds,_⟩ := setup_create defined
  exact ⟨history,k,k',run,actions,succeeds,ownsMemory_iff run succeeds⟩

-- The stack page wraps the size around to 0, and a process without any page is made.
def wrappedRequest : FAT32DriverRequest := {shellRequest with buffer_size := 0xFFC00000}

theorem wrapped_ownsNothing : ∃ history k k', Run Step boot history k ∧ history.map Transition.action = setup ∧
    k.process_create_user_process wrappedRequest = some (PROCESS_CREATE_SUCCESS,k') ∧
    ¬ OwnsMemory k k' wrappedRequest := by
  have defined : creates wrappedRequest 15 0 = true := by decide +kernel
  obtain ⟨history,k,k',run,actions,succeeds,slot,none⟩ := setup_create defined
  refine ⟨history,k,k',run,actions,succeeds,fun owns => ?_⟩
  obtain ⟨j,uses,_⟩ := (owns 15 slot).stack
  rw [Uses,none] at uses
  exact absurd uses (Nat.not_lt_zero _)

end KernelState

end Sosis.Kernel
