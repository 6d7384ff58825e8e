import Mathlib.Data.Set.Insert
import Sosis.Fat32Requests

-- The directories a history has made, and what ties their entries to the FAT. The
-- attribute byte of an entry is not trusted here: a directory is a cluster that a
-- request created as one, which is what `dirs` records.
namespace Sosis.Fat32
open ByteRecords LinkedCells

structure Volume where
  driver : DriverState
  dirs : Set Cell

-- An entry slot, by its directory and its index in the table.
structure Place where
  dir : Cell
  index : Fin DIRECTORY_ENTRY_COUNT
  deriving DecidableEq

namespace Volume

def entry (v : Volume) (x : Place) : DirectoryEntry := v.driver.table x.dir x.index
def Holds (v : Volume) (x : Place) : Prop := x.dir ∈ v.dirs ∧ 2 ≤ x.index.val
def Live (v : Volume) (x : Place) : Prop := v.Holds x ∧ (v.entry x).user_attribute = UATTR_NOT_EMPTY
def Chained (v : Volume) (x : Place) (xs : List Cell) : Prop := FatChain v.driver (v.entry x).cluster xs

end Volume

def DirectoryEntry.Unnamed (e : DirectoryEntry) : Prop := e.name = (fun _ => 0) ∧ e.ext = fun _ => 0

theorem zero_vacant : DirectoryEntry.zero.user_attribute ≠ UATTR_NOT_EMPTY := by decide
theorem zero_unnamed : DirectoryEntry.zero.Unnamed := ⟨rfl,rfl⟩

-- The little that the stores of a write and a delete rely on: a directory is not
-- where the FAT is, and neither of them is handed out as a free cluster.
structure Steady (v : Volume) : Prop where
  fatTaken : v.driver.cluster_map 1 ≠ 0
  dirTaken : ∀ d ∈ v.dirs, v.driver.cluster_map d ≠ 0
  dirNotFat : ∀ d ∈ v.dirs, d.val ≠ 1

theorem Steady.fresh_not_fat {v : Volume} (h : Steady v) {c : Cell} (free : v.driver.cluster_map c = 0) : c.val ≠ 1 :=
  fun same => h.fatTaken ((show c = 1 from Fin.ext same) ▸ free)

theorem Steady.fresh_not_dir {v : Volume} (h : Steady v) {c d : Cell} (dir : d ∈ v.dirs)
    (free : v.driver.cluster_map c = 0) : c.val ≠ d.val :=
  fun same => h.dirTaken d dir ((show c = d from Fin.ext same) ▸ free)

-- What every request on a directory keeps, whatever it returns.
structure Intact (v : Volume) : Prop where
  cell0 : v.driver.cluster_map 0 = CLUSTER_0_VALUE
  cell1 : v.driver.cluster_map 1 = CLUSTER_1_VALUE
  cell2 : v.driver.cluster_map 2 = FAT32_FAT_END_OF_FILE
  root : (2 : Cell) ∈ v.dirs
  range : ∀ d ∈ v.dirs, 2 ≤ d.val
  header : ∀ d ∈ v.dirs, (v.driver.table d 0).attr = ATTR_SUBDIRECTORY
  single : ∀ d ∈ v.dirs, v.driver.cluster_map d = FAT32_FAT_END_OF_FILE
  owned : ∀ d ∈ v.dirs, d ≠ 2 → ∃ x, v.Live x ∧ (v.entry x).cluster = cellNumber d
  folder : ∀ x, v.Live x → ∀ d ∈ v.dirs, (v.entry x).cluster = cellNumber d →
    (v.entry x).attr = ATTR_SUBDIRECTORY ∧ (v.entry x).filesize = 0
  dead : ∀ x, v.Holds x → ¬ v.Live x → (v.entry x).Unnamed
  named : ∀ x, v.Live x → ¬ (v.entry x).Unnamed
  unique : ∀ x y, v.Live x → v.Live y → x.dir = y.dir →
    (v.entry x).Named (v.entry y).name (v.entry y).ext → x = y
  chained : ∀ x, v.Live x → ∃ c rest, (v.entry x).cluster = cellNumber c ∧ v.Chained x (c :: rest) ∧
    ∀ b ∈ c :: rest, 3 ≤ b.val
  apart : ∀ x y xs ys, v.Live x → v.Live y → v.Chained x xs → v.Chained y ys →
    ∀ c, c ∈ xs → c ∈ ys → x = y

namespace Intact
variable {v : Volume}

theorem reserved (h : Intact v) {c : Cell} (low : c.val < 3) : v.driver.cluster_map c ≠ 0 := by
  have number : c.val = 0 ∨ c.val = 1 ∨ c.val = 2 := by omega
  rcases number with at_ | at_ | at_
  · rw [show c = 0 from Fin.ext at_,h.cell0]; decide
  · rw [show c = 1 from Fin.ext at_,h.cell1]; decide
  · rw [show c = 2 from Fin.ext at_,h.cell2]; decide

theorem fresh_range (h : Intact v) {c : Cell} (free : v.driver.cluster_map c = 0) : 3 ≤ c.val :=
  Nat.le_of_not_lt fun low => h.reserved low free

theorem dir_taken (h : Intact v) {d : Cell} (dir : d ∈ v.dirs) : v.driver.cluster_map d ≠ 0 := by
  rw [h.single d dir]; decide

theorem dir_not_fat (h : Intact v) {d : Cell} (dir : d ∈ v.dirs) : d.val ≠ 1 := by
  have := h.range d dir; omega

theorem steady (h : Intact v) : Steady v :=
  ⟨h.reserved (by decide),fun _ => h.dir_taken,fun _ => h.dir_not_fat⟩

theorem chain_range (h : Intact v) {x : Place} {xs : List Cell} (live : v.Live x) (chain : v.Chained x xs) :
    ∀ c ∈ xs, 3 ≤ c.val := by
  obtain ⟨c,rest,_,other,low⟩ := h.chained x live
  rw [Chain.unique cells_pointers chain other]
  exact low

theorem chain_taken (h : Intact v) {x : Place} {xs : List Cell} (live : v.Live x) (chain : v.Chained x xs)
    {c : Cell} (member : c ∈ xs) : v.driver.cluster_map c ≠ 0 := by
  rcases chain.cell_of_mem member with ends | ⟨next,inChain,points⟩
  · rw [ends]; decide
  · rw [points,Ne,cellNumber_eq_zero]
    have := h.chain_range live chain next inChain
    omega

theorem entry_chain (h : Intact v) {x : Place} {d : Cell} (dir : d ∈ v.dirs) (at_ : (v.entry x).cluster = cellNumber d) :
    v.Chained x [d] := by
  unfold Volume.Chained
  rw [at_]
  exact Chain.single (h.single d dir)

theorem entry_unique (h : Intact v) {x y : Place} {d : Cell} (liveX : v.Live x) (liveY : v.Live y) (dir : d ∈ v.dirs)
    (atX : (v.entry x).cluster = cellNumber d) (atY : (v.entry y).cluster = cellNumber d) : x = y :=
  h.apart x y [d] [d] liveX liveY (h.entry_chain dir atX) (h.entry_chain dir atY) d (by simp) (by simp)

-- A directory lies on a chain only as the one cell of the entry that names it.
theorem dir_on_chain (h : Intact v) {x : Place} {xs : List Cell} {d : Cell} (live : v.Live x)
    (chain : v.Chained x xs) (dir : d ∈ v.dirs) (member : d ∈ xs) :
    (v.entry x).cluster = cellNumber d ∧ xs = [d] := by
  have notRoot : d ≠ 2 := by
    rintro rfl
    exact absurd (h.chain_range live chain 2 member) (by decide)
  obtain ⟨y,liveY,at_⟩ := h.owned d dir notRoot
  have alone := h.entry_chain dir at_
  have same := h.apart x y xs [d] live liveY chain alone d member (by simp)
  subst same
  exact ⟨at_,Chain.unique cells_pointers chain alone⟩

end Intact

-- A write has filled the vacant slot `x` and hung the fresh cells `cs` on it.
structure Inserted (v v' : Volume) (x : Place) (cs : List Cell) : Prop where
  slot : v.Holds x
  vacant : (v.entry x).user_attribute ≠ UATTR_NOT_EMPTY
  fresh : ∀ c ∈ cs, v.driver.cluster_map c = 0
  chain : v'.Chained x cs
  nonempty : cs ≠ []
  mapFrame : ∀ c, c ∉ cs → v'.driver.cluster_map c = v.driver.cluster_map c
  live : (v'.entry x).user_attribute = UATTR_NOT_EMPTY
  absent : ∀ i : Fin DIRECTORY_ENTRY_COUNT, 2 ≤ i.val →
    ¬ (v.entry ⟨x.dir,i⟩).Named (v'.entry x).name (v'.entry x).ext
  tableFrame : ∀ i, i ≠ x.index → v'.driver.table x.dir i = v.driver.table x.dir i
  clusterFrame : ∀ n, n ≠ x.dir.val → n ≠ 1 → (∀ c ∈ cs, c.val ≠ n) → v'.driver.cluster n = v.driver.cluster n
  grown : v'.dirs = v.dirs ∨ ∃ c, cs = [c] ∧ v'.dirs = insert c v.dirs ∧
    (v'.entry x).attr = ATTR_SUBDIRECTORY ∧ (v'.entry x).filesize = 0 ∧
    (v'.driver.table c 0).attr = ATTR_SUBDIRECTORY ∧
    ∀ i : Fin DIRECTORY_ENTRY_COUNT, 2 ≤ i.val → v'.entry ⟨c,i⟩ = .zero

namespace Inserted
variable {v v' : Volume} {x y : Place} {cs : List Cell}

theorem dirs_mono (h : Inserted v v' x cs) {d : Cell} (dir : d ∈ v.dirs) : d ∈ v'.dirs := by
  rcases h.grown with same | ⟨c,_,grown,_⟩
  · rwa [same]
  · rw [grown]; exact Set.mem_insert_of_mem _ dir

theorem dir_table (h : Inserted v v' x cs) (steady : Steady v) {d : Cell} (dir : d ∈ v.dirs)
    {i : Fin DIRECTORY_ENTRY_COUNT} (other : (⟨d,i⟩ : Place) ≠ x) :
    v'.driver.table d i = v.driver.table d i := by
  by_cases here : d = x.dir
  · subst here
    exact h.tableFrame i fun same => other (by rw [same])
  · have kept := h.clusterFrame d.val (fun same => here (Fin.ext same)) (steady.dirNotFat d dir)
      (fun c member => steady.fresh_not_dir dir (h.fresh c member))
    rw [DriverState.table_congr kept]

theorem entry_frame (h : Inserted v v' x cs) (steady : Steady v) (holds : v.Holds y) (other : y ≠ x) :
    v'.entry y = v.entry y := h.dir_table steady holds.1 other

-- A directory of afterwards is one of before, or the one cell of the chain.
theorem dir_cases (h : Inserted v v' x cs) {d : Cell} (dir : d ∈ v'.dirs) : d ∈ v.dirs ∨
    cs = [d] ∧ (v'.driver.table d 0).attr = ATTR_SUBDIRECTORY ∧
      ∀ i : Fin DIRECTORY_ENTRY_COUNT, 2 ≤ i.val → v'.entry ⟨d,i⟩ = .zero := by
  rcases h.grown with same | ⟨c,list,grown,_,_,header,clean⟩
  · exact Or.inl (same ▸ dir)
  · rcases Set.mem_insert_iff.mp (grown ▸ dir) with rfl | old
    · exact Or.inr ⟨list,header,clean⟩
    · exact Or.inl old

theorem not_live_before (h : Inserted v v' x cs) : ¬ v.Live x := fun live => h.vacant live.2

theorem live_cases (h : Inserted v v' x cs) (intact : Intact v) (live : v'.Live y) :
    y = x ∨ y ≠ x ∧ v.Live y ∧ v'.entry y = v.entry y := by
  by_cases here : y = x
  · exact Or.inl here
  · have old : y.dir ∈ v.dirs := by
      rcases h.dir_cases live.1.1 with old | ⟨_,_,clean⟩
      · exact old
      · refine absurd live.2 ?_
        rw [show v'.entry y = .zero from clean y.index live.1.2]
        exact zero_vacant
    have kept := h.entry_frame intact.steady ⟨old,live.1.2⟩ here
    exact Or.inr ⟨here,⟨⟨old,live.1.2⟩,kept ▸ live.2⟩,kept⟩

theorem live_old (h : Inserted v v' x cs) (intact : Intact v) (live : v.Live y) :
    v'.Live y ∧ v'.entry y = v.entry y := by
  have kept := h.entry_frame intact.steady live.1 (fun same => h.not_live_before (same ▸ live))
  exact ⟨⟨⟨h.dirs_mono live.1.1,live.1.2⟩,kept ▸ live.2⟩,kept⟩

theorem chain_old (h : Inserted v v' x cs) (intact : Intact v) (live : v.Live y) {xs : List Cell}
    (chain : v.Chained y xs) : v'.Chained y xs := by
  unfold Volume.Chained
  rw [(h.live_old intact live).2]
  exact Chain.congr chain fun c member =>
    h.mapFrame c fun inFresh => intact.chain_taken live chain member (h.fresh c inFresh)

theorem live_new (h : Inserted v v' x cs) : v'.Live x := ⟨⟨h.dirs_mono h.slot.1,h.slot.2⟩,h.live⟩

theorem head_new (h : Inserted v v' x cs) : ∃ c rest, cs = c :: rest ∧ (v'.entry x).cluster = cellNumber c := by
  have chain := h.chain
  unfold Volume.Chained at chain
  cases cs with
  | nil => exact absurd rfl h.nonempty
  | cons c rest =>
    generalize (v'.entry x).cluster = p at chain
    cases chain
    exact ⟨c,rest,rfl,rfl⟩

theorem chain_before (h : Inserted v v' x cs) (intact : Intact v) (live : v.Live y) {ys : List Cell}
    (chain : v'.Chained y ys) : v.Chained y ys := by
  obtain ⟨d,rest,_,old,_⟩ := intact.chained y live
  rwa [Chain.unique cells_pointers chain (h.chain_old intact live old)]

theorem apart_new (h : Inserted v v' x cs) (intact : Intact v) (live : v.Live y) {ys : List Cell}
    (chain : v'.Chained y ys) {c : Cell} (inOld : c ∈ ys) : c ∉ cs :=
  fun inNew => intact.chain_taken live (h.chain_before intact live chain) inOld (h.fresh c inNew)

theorem low_kept (h : Inserted v v' x cs) (intact : Intact v) {c : Cell} (low : c.val < 3) :
    v'.driver.cluster_map c = v.driver.cluster_map c :=
  h.mapFrame c fun member => intact.reserved low (h.fresh c member)

theorem start_single {d : Cell} (h : Inserted v v' x [d]) : (v'.entry x).cluster = cellNumber d := by
  obtain ⟨c,rest,list,start⟩ := h.head_new
  cases list
  exact start

theorem end_single {d : Cell} (h : Inserted v v' x [d]) : v'.driver.cluster_map d = FAT32_FAT_END_OF_FILE := by
  have chain := h.chain
  unfold Volume.Chained at chain
  rw [h.start_single] at chain
  obtain ⟨tail,split,onward⟩ := chain.ptr_cons cells_pointers
  cases split
  generalize v'.driver.cluster_map d = held at onward
  cases onward
  rfl

-- The new entry has a fresh cluster, so it is a folder's only if the write made one.
theorem folder_new (h : Inserted v v' x cs) (intact : Intact v) {d : Cell} (dir : d ∈ v'.dirs)
    (at_ : (v'.entry x).cluster = cellNumber d) : (v'.entry x).attr = ATTR_SUBDIRECTORY ∧ (v'.entry x).filesize = 0 := by
  rcases h.grown with same | ⟨c,_,_,attr,size,_⟩
  · obtain ⟨b,rest,list,start⟩ := h.head_new
    have same' : b = d := cellNumber_injective (start.symm.trans at_)
    subst same'
    exact absurd (h.fresh b (by simp [list])) (intact.dir_taken (same ▸ dir))
  · exact ⟨attr,size⟩

theorem folder_dir (h : Inserted v v' x cs) (intact : Intact v) (live : v.Live y) {d : Cell} (dir : d ∈ v'.dirs)
    (at_ : (v.entry y).cluster = cellNumber d) : d ∈ v.dirs := by
  rcases h.dir_cases dir with old | ⟨list,_⟩
  · exact old
  · obtain ⟨b,rest,start,chain,_⟩ := intact.chained y live
    have same : b = d := cellNumber_injective (start.symm.trans at_)
    subst same
    exact absurd (h.fresh b (by simp [list])) (intact.chain_taken live chain (List.mem_cons_self ..))

theorem intact (h : Inserted v v' x cs) (intact : Intact v) : Intact v' where
  cell0 := by rw [h.low_kept intact (by decide)]; exact intact.cell0
  cell1 := by rw [h.low_kept intact (by decide)]; exact intact.cell1
  cell2 := by rw [h.low_kept intact (by decide)]; exact intact.cell2
  root := h.dirs_mono intact.root
  range := by
    intro d dir
    rcases h.dir_cases dir with old | ⟨rfl,_⟩
    · exact intact.range d old
    · exact Nat.le_of_succ_le (intact.fresh_range (h.fresh d (List.mem_singleton_self d)))
  header := by
    intro d dir
    rcases h.dir_cases dir with old | ⟨_,header,_⟩
    · rw [h.dir_table intact.steady old (by
        rintro rfl
        have := h.slot.2
        simp at this)]
      exact intact.header d old
    · exact header
  single := by
    intro d dir
    rcases h.dir_cases dir with old | ⟨rfl,_⟩
    · rw [h.mapFrame d fun member => intact.dir_taken old (h.fresh d member)]
      exact intact.single d old
    · exact h.end_single
  owned := by
    intro d dir notRoot
    rcases h.dir_cases dir with old | ⟨rfl,_⟩
    · obtain ⟨y,live,at_⟩ := intact.owned d old notRoot
      have kept := h.live_old intact live
      exact ⟨y,kept.1,by rw [kept.2]; exact at_⟩
    · exact ⟨x,h.live_new,h.start_single⟩
  folder := by
    intro y live d dir at_
    rcases h.live_cases intact live with rfl | ⟨_,old,kept⟩
    · exact h.folder_new intact dir at_
    · rw [kept] at at_ ⊢
      exact intact.folder y old d (h.folder_dir intact old dir at_) at_
  dead := by
    intro y holds notLive
    by_cases here : y = x
    · exact absurd (here ▸ h.live_new) notLive
    · rcases h.dir_cases holds.1 with old | ⟨_,_,clean⟩
      · have kept := h.entry_frame intact.steady ⟨old,holds.2⟩ here
        rw [kept]
        exact intact.dead y ⟨old,holds.2⟩ fun live => notLive ⟨holds,kept ▸ live.2⟩
      · rw [show v'.entry y = .zero from clean y.index holds.2]
        exact zero_unnamed
  named := by
    intro y live
    rcases h.live_cases intact live with rfl | ⟨_,old,kept⟩
    · intro unnamed
      have dead := intact.dead y h.slot h.not_live_before
      exact h.absent y.index h.slot.2 ⟨dead.1.trans unnamed.1.symm,dead.2.trans unnamed.2.symm⟩
    · rw [kept]; exact intact.named y old
  unique := by
    intro y z liveY liveZ sameDir sameName
    rcases h.live_cases intact liveY with rfl | ⟨_,oldY,keptY⟩ <;>
      rcases h.live_cases intact liveZ with isX | ⟨_,oldZ,keptZ⟩
    · exact isX.symm
    · rw [keptZ] at sameName
      refine absurd ⟨sameName.1.symm,sameName.2.symm⟩ (?_ : ¬ (v.entry z).Named (v'.entry y).name (v'.entry y).ext)
      have gone := h.absent z.index oldZ.1.2
      rwa [sameDir] at gone
    · rw [keptY,isX] at sameName
      refine absurd sameName ?_
      have gone := h.absent y.index oldY.1.2
      rwa [← isX,← sameDir,isX] at gone
    · rw [keptY,keptZ] at sameName
      exact intact.unique y z oldY oldZ sameDir sameName
  chained := by
    intro y live
    rcases h.live_cases intact live with rfl | ⟨_,old,kept⟩
    · obtain ⟨c,rest,rfl,at_⟩ := h.head_new
      exact ⟨c,rest,at_,h.chain,fun b member => intact.fresh_range (h.fresh b member)⟩
    · obtain ⟨c,rest,at_,chain,low⟩ := intact.chained y old
      exact ⟨c,rest,by rw [kept]; exact at_,h.chain_old intact old chain,low⟩
  apart := by
    intro y z ys zs liveY liveZ chainY chainZ c inY inZ
    rcases h.live_cases intact liveY with isX | ⟨_,oldY,keptY⟩ <;>
      rcases h.live_cases intact liveZ with isX' | ⟨_,oldZ,keptZ⟩
    · exact isX.trans isX'.symm
    · subst isX
      rw [Chain.unique cells_pointers chainY h.chain] at inY
      exact absurd inY (h.apart_new intact oldZ chainZ inZ)
    · subst isX'
      rw [Chain.unique cells_pointers chainZ h.chain] at inZ
      exact absurd inZ (h.apart_new intact oldY chainY inY)
    · exact intact.apart y z ys zs oldY oldZ (h.chain_before intact oldY chainY) (h.chain_before intact oldZ chainZ) c inY inZ

end Inserted

-- A delete has emptied the slot `x` and freed the cells `gone` of its chain: all of
-- them for a file, the first one alone for an entry marked as a directory.
structure Removed (v v' : Volume) (x : Place) (xs gone : List Cell) : Prop where
  live : v.Live x
  chain : v.Chained x xs
  within : ∀ c ∈ gone, c ∈ xs
  first : ∀ c rest, xs = c :: rest → c ∈ gone
  freed : ∀ c ∈ gone, v'.driver.cluster_map c = 0
  mapFrame : ∀ c, c ∉ gone → v'.driver.cluster_map c = v.driver.cluster_map c
  vacated : (v'.entry x).user_attribute ≠ UATTR_NOT_EMPTY
  unnamed : (v'.entry x).Unnamed
  tableFrame : ∀ i, i ≠ x.index → v'.driver.table x.dir i = v.driver.table x.dir i
  clusterFrame : ∀ n, n ≠ x.dir.val → n ≠ 1 → (∀ c ∈ gone, c.val ≠ n) → v'.driver.cluster n = v.driver.cluster n
  shrunk : v'.dirs = {d ∈ v.dirs | cellNumber d ≠ (v.entry x).cluster}
  childless : ∀ d ∈ v.dirs, cellNumber d = (v.entry x).cluster → ∀ y, v.Live y → y.dir ≠ d

namespace Removed
variable {v v' : Volume} {x y : Place} {xs gone : List Cell}

theorem dir_before (h : Removed v v' x xs gone) {d : Cell} (dir : d ∈ v'.dirs) :
    d ∈ v.dirs ∧ cellNumber d ≠ (v.entry x).cluster := by
  rw [h.shrunk] at dir; exact dir

theorem dir_kept (h : Removed v v' x xs gone) (intact : Intact v) {d : Cell} (dir : d ∈ v'.dirs) : d ∉ gone :=
  fun member => (h.dir_before dir).2
    (intact.dir_on_chain h.live h.chain (h.dir_before dir).1 (h.within d member)).1.symm

theorem dir_table (h : Removed v v' x xs gone) (intact : Intact v) {d : Cell} (dir : d ∈ v'.dirs)
    {i : Fin DIRECTORY_ENTRY_COUNT} (other : (⟨d,i⟩ : Place) ≠ x) :
    v'.driver.table d i = v.driver.table d i := by
  by_cases here : d = x.dir
  · subst here
    exact h.tableFrame i fun same => other (by rw [same])
  · have kept := h.clusterFrame d.val (fun same => here (Fin.ext same)) (intact.dir_not_fat (h.dir_before dir).1)
      (fun c member same => h.dir_kept intact dir (Fin.ext same ▸ member))
    rw [DriverState.table_congr kept]

theorem not_live_after (h : Removed v v' x xs gone) : ¬ v'.Live x := fun live => h.vacated live.2

theorem entry_frame (h : Removed v v' x xs gone) (intact : Intact v) (holds : v'.Holds y) (other : y ≠ x) :
    v'.entry y = v.entry y := h.dir_table intact holds.1 other

theorem live_cases (h : Removed v v' x xs gone) (intact : Intact v) (live : v'.Live y) :
    y ≠ x ∧ v.Live y ∧ v'.entry y = v.entry y := by
  have other : y ≠ x := fun same => h.not_live_after (same ▸ live)
  have kept := h.entry_frame intact live.1 other
  exact ⟨other,⟨⟨(h.dir_before live.1.1).1,live.1.2⟩,kept ▸ live.2⟩,kept⟩

theorem live_old (h : Removed v v' x xs gone) (intact : Intact v) (live : v.Live y) (other : y ≠ x) :
    v'.Live y ∧ v'.entry y = v.entry y := by
  have dir : y.dir ∈ v'.dirs := by
    rw [h.shrunk]
    exact ⟨live.1.1,fun same => h.childless y.dir live.1.1 same y live rfl⟩
  have kept := h.entry_frame intact ⟨dir,live.1.2⟩ other
  exact ⟨⟨⟨dir,live.1.2⟩,kept ▸ live.2⟩,kept⟩

theorem chain_apart (h : Removed v v' x xs gone) (intact : Intact v) (live : v.Live y) (other : y ≠ x)
    {ys : List Cell} (chain : v.Chained y ys) {c : Cell} (member : c ∈ ys) : c ∉ gone :=
  fun inGone => other (intact.apart y x ys xs live h.live chain h.chain c member (h.within c inGone))

theorem chain_old (h : Removed v v' x xs gone) (intact : Intact v) (live : v.Live y) (other : y ≠ x)
    {ys : List Cell} (chain : v.Chained y ys) : v'.Chained y ys := by
  unfold Volume.Chained
  rw [(h.live_old intact live other).2]
  exact Chain.congr chain fun c member => h.mapFrame c (h.chain_apart intact live other chain member)

theorem chain_before (h : Removed v v' x xs gone) (intact : Intact v) (live : v.Live y) (other : y ≠ x)
    {ys : List Cell} (chain : v'.Chained y ys) : v.Chained y ys := by
  obtain ⟨_,_,_,former,_⟩ := intact.chained y live
  rwa [Chain.unique cells_pointers chain (h.chain_old intact live other former)]

theorem low_kept (h : Removed v v' x xs gone) (intact : Intact v) {c : Cell} (low : c.val < 3) :
    v'.driver.cluster_map c = v.driver.cluster_map c :=
  h.mapFrame c fun member => Nat.not_le_of_lt low (intact.chain_range h.live h.chain c (h.within c member))

theorem intact (h : Removed v v' x xs gone) (intact : Intact v) : Intact v' where
  cell0 := by rw [h.low_kept intact (by decide)]; exact intact.cell0
  cell1 := by rw [h.low_kept intact (by decide)]; exact intact.cell1
  cell2 := by rw [h.low_kept intact (by decide)]; exact intact.cell2
  root := by
    rw [h.shrunk]
    refine ⟨intact.root,fun same => ?_⟩
    obtain ⟨c,rest,at_,_,low⟩ := intact.chained x h.live
    rw [at_] at same
    have isRoot := cellNumber_injective same
    exact absurd (low c (by simp)) (by rw [← isRoot]; decide)
  range d dir := intact.range d (h.dir_before dir).1
  header := by
    intro d dir
    rw [h.dir_table intact dir (by
      rintro rfl
      have := h.live.1.2
      simp at this)]
    exact intact.header d (h.dir_before dir).1
  single := by
    intro d dir
    rw [h.mapFrame d (h.dir_kept intact dir)]
    exact intact.single d (h.dir_before dir).1
  owned := by
    intro d dir notRoot
    obtain ⟨y,live,at_⟩ := intact.owned d (h.dir_before dir).1 notRoot
    have other : y ≠ x := by
      rintro rfl
      exact (h.dir_before dir).2 at_.symm
    have kept := h.live_old intact live other
    exact ⟨y,kept.1,by rw [kept.2]; exact at_⟩
  folder := by
    intro y live d dir at_
    obtain ⟨_,old,kept⟩ := h.live_cases intact live
    rw [kept] at at_ ⊢
    exact intact.folder y old d (h.dir_before dir).1 at_
  dead := by
    intro y holds notLive
    by_cases here : y = x
    · rw [here]; exact h.unnamed
    · have kept := h.entry_frame intact holds here
      rw [kept]
      refine intact.dead y ⟨(h.dir_before holds.1).1,holds.2⟩ fun live => notLive ⟨holds,?_⟩
      rw [kept]; exact live.2
  named := by
    intro y live
    obtain ⟨_,old,kept⟩ := h.live_cases intact live
    rw [kept]; exact intact.named y old
  unique := by
    intro y z liveY liveZ sameDir sameName
    obtain ⟨_,oldY,keptY⟩ := h.live_cases intact liveY
    obtain ⟨_,oldZ,keptZ⟩ := h.live_cases intact liveZ
    rw [keptY,keptZ] at sameName
    exact intact.unique y z oldY oldZ sameDir sameName
  chained := by
    intro y live
    obtain ⟨other,old,kept⟩ := h.live_cases intact live
    obtain ⟨c,rest,at_,chain,low⟩ := intact.chained y old
    exact ⟨c,rest,by rw [kept]; exact at_,h.chain_old intact old other chain,low⟩
  apart := by
    intro y z ys zs liveY liveZ chainY chainZ c inY inZ
    obtain ⟨otherY,oldY,_⟩ := h.live_cases intact liveY
    obtain ⟨otherZ,oldZ,_⟩ := h.live_cases intact liveZ
    exact intact.apart y z ys zs oldY oldZ (h.chain_before intact oldY otherY chainY)
      (h.chain_before intact oldZ otherZ chainZ) c inY inZ

end Removed

end Sosis.Fat32
