import Sosis.Fat32Effects
import Sosis.Fat32Failure

-- What look-ups return on the states of a history: for a live entry, for an absent
-- name, and for a live entry while requests go on elsewhere.
namespace Sosis.Fat32
open ByteRecords FirstFit LinkedCells TransitionRuns

section live
variable {v : Volume} {y : Place} {request : FAT32DriverRequest}

-- Names are unique among live entries, and dead slots have the name no entry has.
theorem Intact.find_live (intact : Intact v) (live : v.Live y) (named : (v.entry y).Named request.name request.ext) :
    findEntry (v.driver.table y.dir) request.name request.ext = some y.index := by
  refine findEntry_unique live.1.2 named fun j low namedJ => ?_
  by_cases liveJ : v.Live ⟨y.dir,j⟩
  · have same := intact.unique ⟨y.dir,j⟩ y liveJ live rfl
      ⟨namedJ.1.trans named.1.symm,namedJ.2.trans named.2.symm⟩
    exact congrArg Place.index same
  · have dead := intact.dead ⟨y.dir,j⟩ ⟨live.1.1,low⟩ liveJ
    refine absurd ⟨?_,?_⟩ (intact.named y live)
    · exact named.1.trans (namedJ.1.symm.trans dead.1)
    · exact named.2.trans (namedJ.2.symm.trans dead.2)

theorem Intact.find_self (intact : Intact v) (live : v.Live y) :
    findEntry (v.driver.table y.dir) (v.entry y).name (v.entry y).ext = some y.index :=
  @Intact.find_live v y ⟨0,(v.entry y).name,(v.entry y).ext,0,0⟩ intact live ⟨rfl,rfl⟩

theorem Intact.read_live (intact : Intact v) (live : v.Live y) (parent : request.parent_cluster_number = cellNumber y.dir)
    (named : (v.entry y).Named request.name request.ext) {xs : List Cell} (chain : v.Chained y xs) (memory : Memory) :
    read v.driver memory request = some (
      if request.buffer_size < (v.entry y).filesize then (2,memory)
      else if (v.entry y).attr = ATTR_SUBDIRECTORY then (1,memory)
      else (0,storeClusters v.driver memory request.buf xs)) := by
  have table : v.driver.directory request.parent_cluster_number = v.driver.table y.dir := parent_table parent
  have found := intact.find_live live named
  rw [← table] at found
  have chainHere : FatChain v.driver (v.driver.directory request.parent_cluster_number y.index).cluster xs := by
    rw [table]; exact chain
  rw [read_found v.driver request found chainHere memory,table]
  rfl

theorem storeClusters_congr {s s' : DriverState} {xs : List Cell} (same : ∀ c ∈ xs, s'.cluster c = s.cluster c)
    (memory : Memory) (ptr : Word) : storeClusters s' memory ptr xs = storeClusters s memory ptr xs := by
  induction xs generalizing memory ptr with
  | nil => rfl
  | cons c rest ih =>
    rw [storeClusters,storeClusters,same c (by simp)]
    exact ih (fun d member => same d (List.mem_cons_of_mem _ member)) _ _

end live

-- `y` is live before and after, with the same entry and chain, and the clusters of
-- the chain hold what they held unless one of them is a directory.
structure Undisturbed (v v' : Volume) (y : Place) : Prop where
  live : v'.Live y
  entry : v'.entry y = v.entry y
  chain : ∀ xs, v.Chained y xs → v'.Chained y xs
  clusters : ∀ xs, v.Chained y xs → ∀ c ∈ xs, c ∉ v.dirs → v'.driver.cluster c = v.driver.cluster c

theorem Inserted.undisturbed {v v' : Volume} {x y : Place} {cs : List Cell} (h : Inserted v v' x cs)
    (intact : Intact v) (live : v.Live y) : Undisturbed v v' y := by
  have kept := h.live_old intact live
  refine ⟨kept.1,kept.2,fun xs => h.chain_old intact live,fun xs chain c member notDir => ?_⟩
  have low := intact.chain_range live chain c member
  refine h.clusterFrame c.val ?_ (by omega) ?_
  · intro same
    exact notDir (Fin.ext same ▸ h.slot.1)
  · intro b isNew same
    exact intact.chain_taken live chain member (Fin.ext same ▸ h.fresh b isNew)

theorem Removed.undisturbed {v v' : Volume} {x y : Place} {xs gone : List Cell} (h : Removed v v' x xs gone)
    (intact : Intact v) (live : v.Live y) (other : y ≠ x) : Undisturbed v v' y := by
  have kept := h.live_old intact live other
  refine ⟨kept.1,kept.2,fun ys => h.chain_old intact live other,fun ys chain c member notDir => ?_⟩
  have low := intact.chain_range live chain c member
  refine h.clusterFrame c.val ?_ (by omega) ?_
  · intro same
    exact notDir (Fin.ext same ▸ h.live.1.1)
  · intro b inGone same
    exact h.chain_apart intact live other chain member (Fin.ext same ▸ inGone)

theorem Effect.undisturbed {v v' : Volume} {a : FsAction} {code : Int} (effect : Effect v a code v') (intact : Intact v)
    {y : Place} (live : v.Live y) (other : a.request.parent_cluster_number = cellNumber y.dir →
      ¬ (v.entry y).Named a.request.name a.request.ext) : Undisturbed v v' y := by
  cases effect with
  | refused => exact ⟨live,rfl,fun _ => id,fun _ _ _ _ _ => rfl⟩
  | folder _ wrote => exact wrote.inserted.undisturbed intact live
  | file _ wrote => exact wrote.inserted.undisturbed intact live
  | short _ wrote => exact wrote.inserted.undisturbed intact live
  | deleted deleted =>
    refine deleted.removed.undisturbed intact live ?_
    rintro rfl
    exact other deleted.parent (findEntry_some.mp deleted.found).2.1

theorem Undisturbed.read {v v' : Volume} {y : Place} (h : Undisturbed v v' y) (intact : Intact v) (intact' : Intact v')
    (live : v.Live y) {request : FAT32DriverRequest} (parent : request.parent_cluster_number = cellNumber y.dir)
    (named : (v.entry y).Named request.name request.ext) (memory : Memory) :
    read v'.driver memory request = read v.driver memory request := by
  obtain ⟨c,rest,_,chain,_⟩ := intact.chained y live
  rw [intact.read_live live parent named chain,
    intact'.read_live h.live parent (by rw [h.entry]; exact named) (h.chain _ chain),h.entry]
  by_cases folder : (v.entry y).attr = ATTR_SUBDIRECTORY
  · rw [if_pos folder,if_pos folder]
  · rw [storeClusters_congr fun b member => h.clusters _ chain b member fun dir => folder ?_]
    obtain ⟨at_,_⟩ := intact.dir_on_chain live chain dir member
    exact (intact.folder y live b dir at_).1

-- A read of a live entry is defined, and a request that names another entry leaves
-- its code and its bytes as they were.
theorem read_undisturbed {s : DriverState} {history : List (Transition Volume FsAction)} {v v' : Volume} {a : FsAction}
    {y : Place} {request : FAT32DriverRequest} (run : Run Volume.NamedStep (formatted s) history v)
    (step : v.NamedStep a v') (live : v.Live y) (parent : request.parent_cluster_number = cellNumber y.dir)
    (named : (v.entry y).Named request.name request.ext)
    (other : ¬ (request.parent_cluster_number = a.request.parent_cluster_number ∧ request.name = a.request.name ∧
      request.ext = a.request.ext)) (memory : Memory) :
    ∃ result, read v.driver memory request = some result ∧ read v'.driver memory request = some result := by
  have intact := Run.intact (run.mono fun _ _ _ => NamedStep.clear)
  obtain ⟨code,_,effect⟩ := ClearStep.effect intact (NamedStep.clear step)
  have undisturbed := effect.undisturbed intact live fun same namedToo =>
    other ⟨parent.trans same.symm,named.1.symm.trans namedToo.1,named.2.symm.trans namedToo.2⟩
  obtain ⟨c,rest,_,chain,_⟩ := intact.chained y live
  refine ⟨_,intact.read_live live parent named chain memory,?_⟩
  rw [undisturbed.read intact (effect.intact intact) live parent named,intact.read_live live parent named chain]

theorem read_undisturbed_sibling : ∃ history v v', Run Volume.NamedStep (formatted blankDrive) history v ∧
    history.map Transition.action = [.write blankMemory (rootRequest 'A' 1)] ∧
    v.NamedStep (.write blankMemory (rootRequest 'B' 1)) v' ∧
    ∃ result, read v.driver blankMemory (rootRequest 'A' 1) = some result ∧
      read v'.driver blankMemory (rootRequest 'A' 1) = some result := by
  obtain ⟨history,v,run,actions,replayed⟩ := rootRun (formatted_intact blankDrive)
    [.write blankMemory (rootRequest 'A' 1)] (by
      intro a member
      cases List.mem_singleton.mp member
      exact ⟨rfl,rootRequest_named _ _ (by decide)⟩)
  have intact := Run.intact (run.mono fun _ _ _ => NamedStep.clear)
  obtain ⟨code,v',ran,_⟩ := request_effect intact (.write blankMemory (rootRequest 'B' 1)) ⟨2,intact.root,rfl⟩ trivial
  have step : v.NamedStep (.write blankMemory (rootRequest 'B' 1)) v' :=
    ⟨rootRequest_named _ _ (by decide),⟨2,intact.root,rfl⟩,code,ran⟩
  have present : (replay (create_fat32 blankDrive) [.write blankMemory (rootRequest 'A' 1)]).any (fun s =>
      (s.table 2 2).user_attribute = UATTR_NOT_EMPTY ∧
        (s.table 2 2).Named (rootRequest 'A' 1).name (rootRequest 'A' 1).ext) = true := by decide +kernel
  rw [show replay (create_fat32 blankDrive) _ = some v.driver from replayed,Option.any_some,decide_eq_true_eq] at present
  have live : v.Live ⟨2,2⟩ := ⟨⟨intact.root,by decide⟩,present.1⟩
  refine ⟨history,v,v',run,actions,step,read_undisturbed run step live rfl present.2 (fun same => ?_) blankMemory⟩
  exact absurd (congrFun same.2.1 0) (by decide)

-- Every look-up misses, and says so without an index outside cluster_map.
structure LookupsMiss (s : DriverState) (request : FAT32DriverRequest) : Prop where
  read : ∀ memory, read s memory request = some (3,memory)
  read_directory : ∀ memory, read_directory s memory request = (2,memory)
  delete : delete s request = some (1,s)
  findCluster : findCluster s request = 9999

theorem lookupsMiss_iff {s : DriverState} {request : FAT32DriverRequest} : LookupsMiss s request ↔
    findEntry (s.directory request.parent_cluster_number) request.name request.ext = none := by
  constructor
  · intro miss
    cases found : findEntry (s.directory request.parent_cluster_number) request.name request.ext with
    | none => rfl
    | some i =>
      have answer := congrArg Prod.fst (miss.read_directory fun _ => 0)
      unfold Fat32.read_directory at answer
      simp only [found] at answer
      split at answer <;> cases answer
  · intro absent
    exact ⟨fun memory => by simp [Fat32.read,absent],fun memory => by simp [Fat32.read_directory,absent],
      delete_absent absent,by simp [Fat32.findCluster,absent]⟩

def Volume.Unmatched (v : Volume) (request : FAT32DriverRequest) : Prop :=
  ∀ y, v.Live y → request.parent_cluster_number = cellNumber y.dir → ¬ (v.entry y).Named request.name request.ext

theorem Intact.lookupsMiss_exact {v : Volume} (intact : Intact v) {request : FAT32DriverRequest}
    (addressed : v.Addressed request) (unmatched : v.Unmatched request) :
    LookupsMiss v.driver request ↔ v.Clear request := by
  obtain ⟨d,dir,parent⟩ := addressed
  rw [lookupsMiss_iff,parent_table parent]
  constructor
  · intro absent
    by_contra notClear
    obtain ⟨unnamed,notFull⟩ := not_or.mp notClear
    obtain ⟨name,ext⟩ := not_not.mp unnamed
    refine notFull fun d' dir' parent' i low => ?_
    cases cellNumber_injective (parent.symm.trans parent')
    by_contra notLive
    have dead := intact.dead ⟨d,i⟩ ⟨dir,low⟩ notLive
    exact findEntry_none.mp absent i low ⟨dead.1.trans name.symm,dead.2.trans ext.symm⟩
  · intro clear
    cases found : findEntry (v.driver.table d) request.name request.ext with
    | none => rfl
    | some i =>
      exact absurd (findEntry_some.mp found).2.1
        (unmatched ⟨d,i⟩ (Clear.live dir parent intact clear found) parent)

-- What formatting put in front of the first directory.
structure Reserved (s : DriverState) : Prop where
  boot : ∀ i : Fin BLOCK_SIZE, read_blocks s.disk BOOT_SECTOR 1 i = fs_signature i
  cell0 : s.cluster_map 0 = CLUSTER_0_VALUE
  cell1 : s.cluster_map 1 = CLUSTER_1_VALUE
  cell2 : s.cluster_map 2 = FAT32_FAT_END_OF_FILE

theorem Run.reserved {s : DriverState} {history : List (Transition Volume FsAction)} {v : Volume}
    (run : Run Volume.ClearStep (formatted s) history v) : Reserved v.driver := by
  have preserved : ∀ (v : Volume) (a : FsAction) (v' : Volume),
      Intact v ∧ v.driver.cluster 0 = (formatted s).driver.cluster 0 → v.ClearStep a v' →
      Intact v' ∧ v'.driver.cluster 0 = (formatted s).driver.cluster 0 := by
    rintro v a v' ⟨intact,boot⟩ step
    obtain ⟨code,_,effect⟩ := ClearStep.effect intact step
    exact ⟨effect.intact intact,(effect.boot_kept intact).trans boot⟩
  have kept := Run.invariant ⟨formatted_intact s,rfl⟩ preserved run
  refine ⟨fun i => ?_,kept.1.cell0,kept.1.cell1,kept.1.cell2⟩
  rw [congrFun (boot_sector v.driver) i,kept.2]
  exact (is_empty_storage_iff _).mp (create_fat32_signed s) i

theorem lookupsMiss_iff_clear {s : DriverState} {history : List (Transition Volume FsAction)} {v : Volume}
    (run : Run Volume.ClearStep (formatted s) history v) : Reserved v.driver ∧
    ∀ request, v.Addressed request → v.Unmatched request → (LookupsMiss v.driver request ↔ v.Clear request) :=
  ⟨Run.reserved run,fun _ => (Run.intact run).lookupsMiss_exact⟩

theorem lookupsMiss_iff_clear_folder : ∃ history v, Run Volume.ClearStep (formatted blankDrive) history v ∧
    history.map Transition.action = vacatedSlot ∧ Reserved v.driver ∧
    ∀ request, v.Addressed request → v.Unmatched request → (LookupsMiss v.driver request ↔ v.Clear request) := by
  obtain ⟨history,v,run,actions,_⟩ := rootRun (formatted_intact blankDrive) vacatedSlot vacatedSlot_named
  have clear := run.mono fun _ _ _ => NamedStep.clear
  exact ⟨history,v,clear,actions,lookupsMiss_iff_clear clear⟩

def zeroName : FAT32DriverRequest := {rootRequest 'A' 0 with name := fun _ => 0}

-- On a fresh drive the zero name hits slot 2: read and delete start at cell 0, whose
-- value is no cell. Once slot 2 has been a folder's, delete clears cluster 0 instead.
theorem zeroName_matches : (formatted blankDrive).Addressed zeroName ∧ (formatted blankDrive).Unmatched zeroName ∧
    ¬ LookupsMiss (formatted blankDrive).driver zeroName ∧
    (read (formatted blankDrive).driver blankMemory zeroName).isNone = true ∧
    (delete (formatted blankDrive).driver zeroName).isNone = true ∧
    ((replay (create_fat32 blankDrive) vacatedSlot).bind fun s => delete s zeroName).any
      (fun (code,s') => code == 0 && s'.cluster_map 0 == 0 && is_empty_storage s') = true := by
  have stuck : (delete (formatted blankDrive).driver zeroName).isNone = true := by decide +kernel
  refine ⟨⟨2,rfl,rfl⟩,fun y live => absurd live (formatted_dead blankDrive y),fun miss => ?_,by decide +kernel,stuck,
    by decide +kernel⟩
  rw [miss.delete] at stuck
  cases stuck

end Sosis.Fat32
