import Mathlib.Data.Finset.Lattice.Fold
import Sosis.Fat32Effects
import Sosis.RootedLinks

-- The folders of a history and the links to their parents, which are written once,
-- into slot 1 of a new table.
namespace Sosis.Fat32
open ByteRecords LinkedCells RootedLinks TransitionRuns

-- (dir_table.table[1].cluster_high << 16) | dir_table.table[1].cluster_low
def parent_cluster (s : DriverState) (cluster : Word) : Word := (s.directory cluster 1).cluster

-- printDirPath of interrupt.c: the characters it puts on the screen. The result is
-- `none` while the loop still goes on after so many turns.
def rootText : List Byte := "Root\n".toList.map (fun c => BitVec.ofNat 8 c.toNat) ++ [0]

def printDirPath (s : DriverState) : Nat → Word → Option (List Byte)
  | 0,_ => none
  | turns+1,current_cluster =>
    let dir_table := s.directory current_cluster
    if current_cluster = parent_cluster s current_cluster then some rootText
    else (printDirPath s turns (parent_cluster s current_cluster)).map fun rest =>
      List.ofFn (dir_table 0).name ++ BitVec.ofNat 8 '/'.toNat :: rest

structure FolderTree (v : Volume) : Prop where
  parent : ∀ d ∈ v.dirs, d ≠ 2 → ∃ p ∈ v.dirs, parent_cluster v.driver (cellNumber d) = cellNumber p ∧
    ∃! i, v.Live ⟨p,i⟩ ∧ (v.entry ⟨p,i⟩).cluster = cellNumber d
  reaches : ∀ d ∈ v.dirs, ∃ n, (parent_cluster v.driver)^[n] (cellNumber d) = ROOT_CLUSTER_NUMBER
  prints : ∀ d ∈ v.dirs, ∃ turns text, printDirPath v.driver turns (cellNumber d) = some text

-- What each request keeps: a folder's link names the directory that holds its entry,
-- and all links lead to the root, whose link is to itself.
structure Linked (v : Volume) : Prop where
  root : parent_cluster v.driver ROOT_CLUSTER_NUMBER = ROOT_CLUSTER_NUMBER
  held : ∀ d ∈ v.dirs, d ≠ 2 → ∃ x, v.Live x ∧ (v.entry x).cluster = cellNumber d ∧
    parent_cluster v.driver (cellNumber d) = cellNumber x.dir
  rooted : ∀ d ∈ v.dirs, Rooted (parent_cluster v.driver) ROOT_CLUSTER_NUMBER (cellNumber d)

variable {s : DriverState} {v v' : Volume} {d : Cell}

theorem parent_cluster_cell : parent_cluster s (cellNumber d) = (s.table d 1).cluster := by
  unfold parent_cluster
  rw [DriverState.directory_cell]

-- The walk ends where a link leads back to its own cluster, at the root at the latest.
theorem printDirPath_ends (loop : parent_cluster s ROOT_CLUSTER_NUMBER = ROOT_CLUSTER_NUMBER) {cluster : Word}
    (rooted : Rooted (parent_cluster s) ROOT_CLUSTER_NUMBER cluster) :
    ∃ turns text, printDirPath s turns cluster = some text := by
  induction rooted with
  | root => exact ⟨1,rootText,if_pos loop.symm⟩
  | @up b _ ih =>
    obtain ⟨turns,text,printed⟩ := ih
    by_cases self : b = parent_cluster s b
    · exact ⟨1,rootText,if_pos self⟩
    · refine ⟨turns+1,List.ofFn (s.directory b 0).name ++ BitVec.ofNat 8 '/'.toNat :: text,?_⟩
      unfold printDirPath
      simp only [if_neg self,printed,Option.map_some]

theorem Linked.tree (linked : Linked v) (intact : Intact v) : FolderTree v := by
  refine ⟨fun d dir notRoot => ?_,fun d dir => (linked.rooted d dir).iterate,
    fun d dir => printDirPath_ends linked.root (linked.rooted d dir)⟩
  obtain ⟨x,live,at_,link⟩ := linked.held d dir notRoot
  refine ⟨x.dir,live.1.1,link,x.index,⟨live,at_⟩,?_⟩
  rintro i ⟨liveI,atI⟩
  exact congrArg Place.index (intact.entry_unique liveI live dir atI at_)

-- A folder lies below the directory that holds its entry.
theorem Linked.link (linked : Linked v) (intact : Intact v) {y : Place} (live : v.Live y) (dir : d ∈ v.dirs)
    (at_ : (v.entry y).cluster = cellNumber d) : d ≠ 2 ∧ parent_cluster v.driver (cellNumber d) = cellNumber y.dir := by
  have notRoot : d ≠ 2 := by
    rintro rfl
    exact absurd (intact.chain_range live (intact.entry_chain dir at_) 2 (by simp)) (by decide)
  obtain ⟨x,liveX,atX,link⟩ := linked.held d dir notRoot
  rw [intact.entry_unique live liveX dir at_ atX]
  exact ⟨notRoot,link⟩

theorem Linked.ranked (linked : Linked v) (intact : Intact v) : ∃ (rank : Cell → Nat) (bound : Nat),
    (∀ d, rank d ≤ bound) ∧ ∀ y d, v.Live y → d ∈ v.dirs → (v.entry y).cluster = cellNumber d → rank y.dir < rank d := by
  obtain ⟨rank,falls⟩ := Rooted.ranked (parent_cluster v.driver) ROOT_CLUSTER_NUMBER
  refine ⟨fun d => rank (cellNumber d),Finset.univ.sup fun d => rank (cellNumber d),
    fun d => Finset.le_sup (f := fun d => rank (cellNumber d)) (Finset.mem_univ d),fun y d live dir at_ => ?_⟩
  obtain ⟨notRoot,link⟩ := linked.link intact live dir at_
  have less := falls (cellNumber d) (linked.rooted d dir) fun same => notRoot (cellNumber_injective same)
  rw [link] at less
  exact less

theorem formatted_linked (s : DriverState) : Linked (formatted s) := by
  have root : parent_cluster (formatted s).driver ROOT_CLUSTER_NUMBER = ROOT_CLUSTER_NUMBER := by
    have slot1 := congrFun (formatted_root s) 1
    rw [show ROOT_CLUSTER_NUMBER = cellNumber 2 from rfl,parent_cluster_cell]
    refine (congrArg DirectoryEntry.cluster slot1).trans ?_
    decide
  refine ⟨root,fun d dir other => absurd dir other,fun d dir => ?_⟩
  rw [show d = 2 from dir]
  exact .root

def Volume.clusters (v : Volume) : Set Word := {w | ∃ d ∈ v.dirs, w = cellNumber d}

theorem root_cell : ROOT_CLUSTER_NUMBER = cellNumber 2 := rfl

theorem Linked.closed (linked : Linked v) : ∀ b ∈ v.clusters, b ≠ ROOT_CLUSTER_NUMBER → parent_cluster v.driver b ∈ v.clusters := by
  rintro _ ⟨d,dir,rfl⟩ notRoot
  obtain ⟨x,live,_,link⟩ := linked.held d dir fun same => notRoot (by rw [same,root_cell])
  exact ⟨x.dir,live.1.1,link⟩

section inserted
variable {x : Place} {cs : List Cell}

theorem Inserted.parent_old (h : Inserted v v' x cs) (intact : Intact v) (dir : d ∈ v.dirs) :
    parent_cluster v'.driver (cellNumber d) = parent_cluster v.driver (cellNumber d) := by
  rw [parent_cluster_cell,parent_cluster_cell,h.dir_table intact.steady dir]
  rintro rfl
  exact absurd (show 2 ≤ 1 from h.slot.2) (by decide)

theorem Inserted.rooted_old (h : Inserted v v' x cs) (intact : Intact v) (linked : Linked v) (dir : d ∈ v.dirs) :
    Rooted (parent_cluster v'.driver) ROOT_CLUSTER_NUMBER (cellNumber d) := by
  refine Rooted.congr linked.closed ?_ (linked.rooted d dir) ⟨d,dir,rfl⟩
  rintro _ ⟨e,dirE,rfl⟩ _
  exact h.parent_old intact dirE

theorem Inserted.linked (h : Inserted v v' x cs) (intact : Intact v) (linked : Linked v)
    (new : ∀ c ∈ v'.dirs, c ∉ v.dirs → (v'.entry x).cluster = cellNumber c ∧
      parent_cluster v'.driver (cellNumber c) = cellNumber x.dir) : Linked v' := by
  refine ⟨?_,fun d dir notRoot => ?_,fun d dir => ?_⟩
  · rw [root_cell,h.parent_old intact intact.root]
    exact linked.root
  · by_cases old : d ∈ v.dirs
    · obtain ⟨y,live,at_,link⟩ := linked.held d old notRoot
      obtain ⟨live',kept⟩ := h.live_old intact live
      exact ⟨y,live',by rw [kept]; exact at_,(h.parent_old intact old).trans link⟩
    · obtain ⟨at_,link⟩ := new d dir old
      exact ⟨x,h.live_new,at_,link⟩
  · by_cases old : d ∈ v.dirs
    · exact h.rooted_old intact linked old
    · refine .up ?_
      rw [(new d dir old).2]
      exact h.rooted_old intact linked h.slot.1

end inserted

-- The directories that stay keep their links, and so does the directory each link
-- leads to: it holds a live entry.
theorem Removed.linked {x : Place} {xs gone : List Cell} (h : Removed v v' x xs gone) (intact : Intact v)
    (linked : Linked v) : Linked v' := by
  have parent_old {d : Cell} (dir : d ∈ v'.dirs) :
      parent_cluster v'.driver (cellNumber d) = parent_cluster v.driver (cellNumber d) := by
    rw [parent_cluster_cell,parent_cluster_cell,h.dir_table intact dir]
    rintro rfl
    exact absurd (show 2 ≤ 1 from h.live.1.2) (by decide)
  have held (d : Cell) (dir : d ∈ v'.dirs) (notRoot : d ≠ 2) : ∃ y, v'.Live y ∧ (v'.entry y).cluster = cellNumber d ∧
      parent_cluster v.driver (cellNumber d) = cellNumber y.dir := by
    obtain ⟨old,stays⟩ := h.dir_before dir
    obtain ⟨y,live,at_,link⟩ := linked.held d old notRoot
    have other : y ≠ x := by
      rintro rfl
      exact stays at_.symm
    obtain ⟨live',kept⟩ := h.live_old intact live other
    exact ⟨y,live',by rw [kept]; exact at_,link⟩
  refine ⟨?_,fun d dir notRoot => ?_,fun d dir => ?_⟩
  · rw [root_cell,parent_old (h.intact intact).root]
    exact linked.root
  · obtain ⟨y,live,at_,link⟩ := held d dir notRoot
    exact ⟨y,live,at_,(parent_old dir).trans link⟩
  · have member : cellNumber d ∈ v'.clusters := ⟨d,dir,rfl⟩
    refine Rooted.congr ?_ ?_ (linked.rooted d (h.dir_before dir).1) member
    · rintro _ ⟨e,dirE,rfl⟩ notRoot
      obtain ⟨y,live,_,link⟩ := held e dirE fun same => notRoot (by rw [same,root_cell])
      exact ⟨y.dir,live.1.1,link⟩
    · rintro _ ⟨e,dirE,rfl⟩ _
      exact parent_old dirE

theorem init_directory_table_parent (name : Name) (parent : Word) :
    (init_directory_table zeroTable name parent 1).cluster = parent :=
  cluster_of_halves _ parent rfl rfl

theorem ClearStep.linked {a : FsAction} (intact : Intact v) (linked : Linked v) (step : v.ClearStep a v') : Linked v' := by
  obtain ⟨code,ran,effect⟩ := ClearStep.effect intact step
  cases effect with
  | refused => exact linked
  | @folder v' memory request d i c empty wrote grown =>
    refine wrote.inserted.linked intact linked fun b dir notOld => ?_
    have same : b = c := (Set.mem_insert_iff.mp (grown ▸ dir)).resolve_right notOld
    subst same
    obtain ⟨⟨code',s⟩,responded,same⟩ := Option.map_eq_some_iff.mp ran
    have made := wrote.writable.write_folder memory empty
    rw [show write v.driver memory request = some (code',s) from responded] at made
    cases made
    cases same
    refine ⟨by rw [wrote.entry,addEntry_cluster],?_⟩
    have fresh := intact.steady.fresh_not_fat (wrote.inserted.fresh b (by simp))
    have link := init_directory_table_parent request.name request.parent_cluster_number
    rw [← folderState_table (s := v.driver) (i := i) fresh] at link
    exact parent_cluster_cell.trans (link.trans wrote.parent)
  | file _ wrote kept => exact wrote.inserted.linked intact linked fun b dir notOld => absurd (kept ▸ dir) notOld
  | short _ wrote kept => exact wrote.inserted.linked intact linked fun b dir notOld => absurd (kept ▸ dir) notOld
  | deleted deleted => exact deleted.removed.linked intact linked

theorem Run.linked {history : List (Transition Volume FsAction)} (run : Run Volume.ClearStep (formatted s) history v) :
    Intact v ∧ Linked v := by
  have preserved : ∀ (v : Volume) (a : FsAction) (v' : Volume), Intact v ∧ Linked v → v.ClearStep a v' →
      Intact v' ∧ Linked v' := by
    rintro v a v' ⟨intact,linked⟩ step
    exact ⟨ClearStep.intact intact step,ClearStep.linked intact linked step⟩
  have kept := Run.invariant ⟨formatted_intact s,formatted_linked s⟩ preserved run
  exact kept

theorem folders_form_tree {history : List (Transition Volume FsAction)}
    (run : Run Volume.NamedStep (formatted s) history v) : FolderTree v := by
  obtain ⟨intact,linked⟩ := Run.linked (run.mono fun _ _ _ => NamedStep.clear)
  exact linked.tree intact

-- A folder, and another one where the first was.
theorem folders_form_tree_vacated : ∃ history v, Run Volume.NamedStep (formatted blankDrive) history v ∧
    history.map Transition.action = vacatedSlot ++ [.write blankMemory (rootRequest 'B' 0)] ∧ FolderTree v := by
  obtain ⟨history,v,run,actions,_⟩ := rootRun (formatted_intact blankDrive)
    (vacatedSlot ++ [.write blankMemory (rootRequest 'B' 0)]) (by
      intro a member
      rcases List.mem_append.mp member with before | last
      · exact vacatedSlot_named a before
      · cases List.mem_singleton.mp last
        exact ⟨rfl,rootRequest_named _ _ (by decide)⟩)
  exact ⟨history,v,run,actions,folders_form_tree run⟩

end Sosis.Fat32
