import Sosis.Fat32History

-- On an intact volume a request with an existing parent ends in one of the five
-- ways of `Effect`, unless it is a delete whose all-zero name meets a dead slot.
namespace Sosis.Fat32
open ByteRecords FirstFit LinkedCells TransitionRuns

theorem addEntry_other (t : DirectoryTable) (request : FAT32DriverRequest) {i j : Fin DIRECTORY_ENTRY_COUNT}
    (w : Word) (other : j ≠ i) : addEntry t request i w j = t j := Function.update_of_ne other _ _

theorem addEntry_here (t : DirectoryTable) (request : FAT32DriverRequest) (i : Fin DIRECTORY_ENTRY_COUNT) (w : Word) :
    addEntry t request i w i = {t i with
      name := request.name
      ext := request.ext
      user_attribute := UATTR_NOT_EMPTY
      attr := if request.buffer_size = 0 then ATTR_SUBDIRECTORY else (t i).attr
      cluster_high := (w >>> 16).truncate 16
      cluster_low := (w &&& 0xFFFF).truncate 16
      filesize := request.buffer_size} := Function.update_self ..

theorem addEntry_cluster (t : DirectoryTable) (request : FAT32DriverRequest) (i : Fin DIRECTORY_ENTRY_COUNT) (w : Word) :
    (addEntry t request i w i).cluster = w := by
  rw [addEntry_here]
  exact cluster_of_halves _ w rfl rfl

theorem deleteEntry_other (t : DirectoryTable) {i j : Fin DIRECTORY_ENTRY_COUNT} (other : j ≠ i) :
    deleteEntry t i j = t j := Function.update_of_ne other _ _

theorem deleteEntry_here (t : DirectoryTable) (i : Fin DIRECTORY_ENTRY_COUNT) :
    (deleteEntry t i i).Unnamed ∧ (deleteEntry t i i).user_attribute ≠ UATTR_NOT_EMPTY ∧
      (deleteEntry t i i).attr = (t i).attr ∧ (deleteEntry t i i).cluster = 0 := by
  have here : deleteEntry t i i = {t i with
      name := fun _ => 0
      ext := fun _ => 0
      user_attribute := FAT32_FAT_EMPTY_ENTRY.truncate 8
      cluster_high := 0
      cluster_low := 0
      filesize := 0} := Function.update_self ..
  rw [here]
  exact ⟨⟨rfl,rfl⟩,show FAT32_FAT_EMPTY_ENTRY.truncate 8 ≠ UATTR_NOT_EMPTY by decide,rfl,cluster_zero _ rfl rfl⟩

section write
variable {v v' : Volume} {memory : Memory} {request : FAT32DriverRequest} {d c : Cell}
  {i : Fin DIRECTORY_ENTRY_COUNT} {rest : List Cell}

theorem parent_table (parent : request.parent_cluster_number = cellNumber d) :
    v.driver.directory request.parent_cluster_number = v.driver.table d := by
  rw [parent,DriverState.directory_cell]

-- The parts a write that stored an entry has in common, whether it then made a
-- folder, a file, or the beginning of a file.
theorem Wrote.of_parts (dir : d ∈ v.dirs) (parent : request.parent_cluster_number = cellNumber d)
    (writable : Writable v.driver request i c)
    (fresh : ∀ b ∈ c :: rest, v.driver.cluster_map b = 0)
    (taken : ∀ b ∈ c :: rest, v'.driver.cluster_map b ≠ 0)
    (chain : FatChain v'.driver (cellNumber c) (c :: rest))
    (mapFrame : ∀ b, b ∉ c :: rest → v'.driver.cluster_map b = v.driver.cluster_map b)
    (table : v'.driver.table d = addEntry (v.driver.table d) request i (cellNumber c))
    (clusterFrame : ∀ n, n ≠ d.val → n ≠ 1 → (∀ b ∈ c :: rest, b.val ≠ n) → v'.driver.cluster n = v.driver.cluster n)
    (grown : v'.dirs = v.dirs ∨ request.buffer_size = 0 ∧ rest = [] ∧ v'.dirs = insert c v.dirs ∧
      v'.driver.table c = init_directory_table zeroTable request.name request.parent_cluster_number)
    (stored : request.buffer_size ≠ 0 → ∀ (j : Nat) (bound : j < (c :: rest).length),
      v'.driver.cluster (c :: rest)[j] = clip (drop (memory.at request.buf) (j*CLUSTER_SIZE))) :
    Wrote v v' memory request d i c rest := by
  have entry : v'.entry ⟨d,i⟩ = addEntry (v.driver.table d) request i (cellNumber c) i := congrFun table i
  have slot := writable.vacant
  have absent := writable.absent
  rw [parent_table parent] at slot absent
  obtain ⟨low,vacant,_⟩ := findIdxEmptyEntry_some.mp slot
  refine ⟨dir,parent,writable,?_,taken,entry,stored⟩
  constructor
  · exact ⟨dir,low⟩
  · exact vacant
  · exact fresh
  · unfold Volume.Chained
    rw [entry,addEntry_cluster]
    exact chain
  · simp
  · exact mapFrame
  · rw [entry,addEntry_here]
  · intro j lowJ
    rw [entry,addEntry_here]
    exact findEntry_none.mp absent j lowJ
  · intro j other
    exact (congrFun table j).trans (addEntry_other _ _ _ other)
  · exact clusterFrame
  · rcases grown with same | ⟨folder,list,grown,made⟩
    · exact Or.inl same
    · refine Or.inr ⟨c,by rw [list],grown,?_,?_,?_,fun j lowJ => ?_⟩
      · rw [entry,addEntry_here]
        exact if_pos folder
      · rw [entry,addEntry_here]
        exact folder
      · rw [made]; rfl
      · exact (congrFun made j).trans (init_directory_table_slot _ _ lowJ)

theorem Wrote.found_after (h : Wrote v v' memory request d i c rest) :
    findEntry (v'.driver.table d) request.name request.ext = some i := by
  have entry := h.entry
  unfold Volume.entry at entry
  refine findEntry_unique h.inserted.slot.2 ?_ fun j low named => ?_
  · rw [entry,addEntry_here]
    exact ⟨rfl,rfl⟩
  · by_contra other
    rw [h.inserted.tableFrame j other] at named
    have absent := h.writable.absent
    rw [parent_table h.parent] at absent
    exact findEntry_none.mp absent j low named

theorem Wrote.findCluster_after (h : Wrote v v' memory request d i c rest) :
    findCluster v'.driver request = cellNumber c := by
  have table : v'.driver.directory request.parent_cluster_number = v'.driver.table d := parent_table h.parent
  have entry := h.entry
  unfold Volume.entry at entry
  unfold findCluster
  simp only [table,h.found_after]
  exact (congrArg DirectoryEntry.cluster entry).trans (addEntry_cluster _ _ _ _)

theorem folderState_table {s : DriverState} (notFat : c.val ≠ 1) : (folderState s request i c).table c =
    init_directory_table zeroTable request.name request.parent_cluster_number := by
  unfold folderState
  rw [DriverState.writeFat_table _ notFat,DriverState.setCell_table,DriverState.writeDirectory_table,slot_cellNumber,
    if_pos rfl]

variable (parent : request.parent_cluster_number = cellNumber d)
include parent

theorem entered_table : (enteredState v.driver request i c).table d =
    addEntry (v.driver.table d) request i (cellNumber c) := by
  unfold enteredState
  rw [DriverState.writeDirectory_table,parent,slot_cellNumber,if_pos rfl,DriverState.directory_cell]

theorem entered_frame {n : Nat} (other : n ≠ d.val) :
    (enteredState v.driver request i c).cluster n = v.driver.cluster n := by
  unfold enteredState
  rw [parent]
  exact DriverState.writeDirectory_other _ (by rwa [slot_cellNumber])

variable (dir : d ∈ v.dirs) (steady : Steady v)
include dir steady

theorem Writable.wrote_folder (memory : Memory) (writable : Writable v.driver request i c) (folder : request.buffer_size = 0) :
    Wrote v ⟨folderState v.driver request i c,insert c v.dirs⟩ memory request d i c [] := by
  have free := (findEmptySpace_some.mp writable.room).1
  have cluster : ∀ n, n ≠ 1 → n ≠ c.val →
      (folderState v.driver request i c).cluster n = (enteredState v.driver request i c).cluster n := by
    intro n notFat notNew
    unfold folderState
    rw [DriverState.writeFat_other _ notFat,DriverState.setCell_cluster]
    exact DriverState.writeDirectory_other _ (by rwa [slot_cellNumber])
  have map : (folderState v.driver request i c).cluster_map =
      Function.update v.driver.cluster_map c FAT32_FAT_END_OF_FILE := rfl
  refine .of_parts dir parent writable (by simpa using free) ?_ ?_ ?_ ?_ ?_ (Or.inr ⟨folder,rfl,rfl,?_⟩)
    (fun file => absurd folder file)
  · intro b member
    rw [List.mem_singleton.mp member,map,Function.update_self]
    exact end_ne_zero
  · exact Chain.single (by rw [map,Function.update_self])
  · intro b out
    exact (congrFun map b).trans (Function.update_of_ne (by simpa using out) _ _)
  · have kept := cluster d.val (steady.dirNotFat d dir) fun same => steady.fresh_not_dir dir free same.symm
    exact (DriverState.table_congr kept).trans (entered_table parent)
  · intro n notDir notFat out
    exact (cluster n notFat fun same => out c (by simp) same.symm).trans (entered_frame parent notDir)
  · exact folderState_table (steady.fresh_not_fat free)

-- `s'` is where the copy loop ended, `last` what write returned: the two differ in
-- cluster 1 at most.
theorem Appended.wrote_file {s' : DriverState} (last : DriverState) (writable : Writable v.driver request i c)
    (appended : Appended (memory.at request.buf) 0 none (enteredState v.driver request i c) s' (c :: rest))
    (map : last.cluster_map = s'.cluster_map) (clusters : ∀ n, n ≠ 1 → last.cluster n = s'.cluster n) :
    Wrote v ⟨last,v.dirs⟩ memory request d i c rest := by
  have fresh : ∀ b ∈ c :: rest, v.driver.cluster_map b = 0 := appended.fresh
  have dirOut : ∀ b ∈ c :: rest, b.val ≠ d.val := fun b member => steady.fresh_not_dir dir (fresh b member)
  refine .of_parts dir parent writable fresh ?_ ?_ ?_ ?_ ?_ (Or.inl rfl) fun _ j bound => ?_
  · intro b member
    rw [show (⟨last,v.dirs⟩ : Volume).driver.cluster_map = s'.cluster_map from map]
    exact appended.taken b member
  · exact appended.chain.congr fun b _ => congrFun map b
  · intro b out
    exact (congrFun map b).trans (appended.mapFrame b out (by simp))
  · have kept := (clusters d.val (steady.dirNotFat d dir)).trans (appended.clusterFrame d.val dirOut)
    exact (DriverState.table_congr kept).trans (entered_table parent)
  · intro n notDir notFat out
    exact (clusters n notFat).trans ((appended.clusterFrame n out).trans (entered_frame parent notDir))
  · have notFat := steady.fresh_not_fat (fresh _ (List.getElem_mem bound))
    have kept := appended.stored j bound
    rw [Nat.zero_add] at kept
    exact (clusters _ notFat).trans kept

theorem write_effect (memory : Memory) : ∃ code v', v.respond (.write memory request) = some (code,v') ∧
    Effect v (.write memory request) code v' := by
  by_cases passes : ∃ i c, Writable v.driver request i c
  · obtain ⟨i,c,writable⟩ := passes
    by_cases folder : request.buffer_size = 0
    · have wrote := Writable.wrote_folder parent dir steady memory writable folder
      refine ⟨0,_,?_,.folder folder wrote rfl (DriverState.writeFat_cluster _ 1)⟩
      simp only [Volume.respond,FsAction.respond,writable.write_folder memory folder,Option.map_some,
        FsAction.directories,folder,and_self,if_true]
      congr 3
      ext b
      have named := wrote.findCluster_after
      simp only at named
      rw [named,Set.mem_ofPred_eq,Set.mem_insert_iff,cellNumber_injective.eq_iff]
      exact or_comm
    · obtain ⟨s',rest,appended,complete,short⟩ := writable.write_file memory folder
      by_cases enough : ceil request.buffer_size.toNat ≤ (freeCells v.driver.cluster_map).card
      · obtain ⟨length,ran⟩ := complete enough
        have wrote := Appended.wrote_file parent dir steady s'.writeFat writable appended rfl
          fun _ => DriverState.writeFat_other _
        refine ⟨0,_,?_,.file folder wrote rfl length enough (DriverState.writeFat_cluster _ 1)⟩
        have kept : (FsAction.write memory request).directories v 0 s'.writeFat = v.dirs := if_neg fun both => folder both.2
        simp only [Volume.respond,FsAction.respond,ran,Option.map_some,kept]
      · obtain ⟨length,ran⟩ := short (Nat.lt_of_not_le enough)
        have wrote := Appended.wrote_file parent dir steady s' writable appended rfl fun _ _ => rfl
        refine ⟨-1,_,?_,.short folder wrote rfl length (Nat.lt_of_not_le enough) ?_⟩
        · simp [Volume.respond,FsAction.respond,ran,FsAction.directories]
        · have notDir := steady.dirNotFat d dir
          exact (appended.clusterFrame 1 fun b member => steady.fresh_not_fat (appended.fresh b member)).trans
            (entered_frame parent notDir.symm)
  · have refused : ∀ i c, ¬ Writable v.driver request i c := fun i c writable => passes ⟨i,c,writable⟩
    obtain ⟨code,failed,ran⟩ := write_refused refused
    refine ⟨code,v,?_,.refused failed refused⟩
    simp [Volume.respond,FsAction.respond,ran,FsAction.directories,failed]

end write

section delete
variable {v : Volume} {request : FAT32DriverRequest} {d c : Cell} {i : Fin DIRECTORY_ENTRY_COUNT}
  {rest gone : List Cell} (dir : d ∈ v.dirs) (parent : request.parent_cluster_number = cellNumber d)

theorem removed_table (steady : Steady v) (dir : d ∈ v.dirs) (parent : request.parent_cluster_number = cellNumber d)
    (r : DriverState) : (removedState v.driver request i r).table d = deleteEntry (v.driver.table d) i := by
  unfold removedState
  rw [DriverState.writeFat_table _ (steady.dirNotFat d dir),DriverState.writeDirectory_table,parent_table parent,
    parent,slot_cellNumber,if_pos rfl]

theorem findCluster_found (parent : request.parent_cluster_number = cellNumber d)
    (found : findEntry (v.driver.table d) request.name request.ext = some i) :
    findCluster v.driver request = (v.entry ⟨d,i⟩).cluster := by
  unfold findCluster
  simp only [parent_table parent,found]
  rfl

theorem removed_frame (parent : request.parent_cluster_number = cellNumber d) (r : DriverState) {n : Nat}
    (notDir : n ≠ d.val) (notFat : n ≠ 1) : (removedState v.driver request i r).cluster n = r.cluster n := by
  unfold removedState
  rw [DriverState.writeFat_other _ notFat,parent]
  exact DriverState.writeDirectory_other _ (by rwa [slot_cellNumber])

variable (intact : Intact v)
include dir parent intact

theorem Clear.live (clear : v.Clear request) (found : findEntry (v.driver.table d) request.name request.ext = some i) :
    v.Live ⟨d,i⟩ := by
  obtain ⟨low,named,_⟩ := findEntry_some.mp found
  rcases clear with named' | full
  · by_contra notLive
    have dead := intact.dead ⟨d,i⟩ ⟨dir,low⟩ notLive
    exact named' ⟨named.1.symm.trans dead.1,named.2.symm.trans dead.2⟩
  · exact full d dir parent i low

-- `r` is the state after the cells were freed and cleared, before the entry and the
-- FAT are stored.
theorem Deleted.of_parts (r : DriverState) (live : v.Live ⟨d,i⟩)
    (found : findEntry (v.driver.table d) request.name request.ext = some i)
    (cluster : (v.entry ⟨d,i⟩).cluster = cellNumber c) (chain : v.Chained ⟨d,i⟩ (c :: rest))
    (released : gone = if (v.entry ⟨d,i⟩).attr = ATTR_SUBDIRECTORY then [c] else c :: rest)
    (childless : (v.entry ⟨d,i⟩).attr = ATTR_SUBDIRECTORY → isEmptyDir (v.driver.table c) = true)
    (freed : ∀ b ∈ gone, r.cluster_map b = 0)
    (mapFrame : ∀ b, b ∉ gone → r.cluster_map b = v.driver.cluster_map b)
    (clusterFrame : ∀ n, (∀ b ∈ gone, b.val ≠ n) → r.cluster n = v.driver.cluster n) :
    Deleted v ⟨removedState v.driver request i r,{b | b ∈ v.dirs ∧ cellNumber b ≠ findCluster v.driver request}⟩
      request d i c rest gone := by
  have table : (removedState v.driver request i r).table d = deleteEntry (v.driver.table d) i :=
    removed_table intact.steady dir parent r
  have here := deleteEntry_here (v.driver.table d) i
  rw [← table] at here
  have named := findCluster_found parent found
  refine ⟨dir,parent,found,cluster,?_,released,childless⟩
  constructor
  · exact live
  · exact chain
  · intro b member
    rw [released] at member
    split at member
    · simp [List.mem_singleton.mp member]
    · exact member
  · rintro b tail list
    cases list
    rw [released]
    split <;> simp
  · exact freed
  · exact mapFrame
  · exact here.2.1
  · exact here.1
  · intro j other
    exact (congrFun table j).trans (deleteEntry_other _ other)
  · intro n notDir notFat out
    exact (removed_frame parent r notDir notFat).trans (clusterFrame n out)
  · rw [named]
  · intro b dirB at_ y liveY same
    have isC : b = c := cellNumber_injective (at_.trans cluster)
    subst isC
    have folder := (intact.folder ⟨d,i⟩ live b dirB at_.symm).1
    have used := liveY.2
    unfold Volume.entry at used
    rw [same] at used
    exact isEmptyDir_iff.mp (childless folder) y.index liveY.1.2 used

theorem delete_effect (clear : v.Clear request) : ∃ code v', v.respond (.delete request) = some (code,v') ∧
    Effect v (.delete request) code v' := by
  have table : v.driver.directory request.parent_cluster_number = v.driver.table d := parent_table parent
  cases found : findEntry (v.driver.table d) request.name request.ext with
  | none =>
    have ran : delete v.driver request = some (1,v.driver) := delete_absent (by rw [table]; exact found)
    refine ⟨1,v,by simp [Volume.respond,FsAction.respond,ran,FsAction.directories],.refused (by decide) fun i present => ?_⟩
    rw [table,found] at present
    cases present
  | some i =>
    have live := Clear.live dir parent intact clear found
    have foundHere : findEntry (v.driver.directory request.parent_cluster_number) request.name request.ext = some i := by
      rw [table]; exact found
    obtain ⟨c,rest,cluster,chain,_⟩ := intact.chained _ live
    have clusterHere : (v.driver.directory request.parent_cluster_number i).cluster = cellNumber c := by
      rw [table]; exact cluster
    by_cases folder : (v.entry ⟨d,i⟩).attr = ATTR_SUBDIRECTORY
    · have folderHere : (v.driver.directory request.parent_cluster_number i).attr = ATTR_SUBDIRECTORY := by
        rw [table]; exact folder
      have childTable : v.driver.directory (v.driver.directory request.parent_cluster_number i).cluster =
          v.driver.table c := by rw [clusterHere,DriverState.directory_cell]
      cases empty : isEmptyDir (v.driver.table c) with
      | false =>
        have ran := delete_occupied foundHere folderHere (by rw [childTable]; exact empty)
        refine ⟨2,v,by simp [Volume.respond,FsAction.respond,ran,FsAction.directories],.refused (by decide) fun j present => ?_⟩
        rw [foundHere] at present
        cases present
        exact ⟨folderHere,by rw [childTable]; exact empty⟩
      | true =>
        have ran := delete_folder foundHere folderHere clusterHere (by rw [childTable]; exact empty)
        refine ⟨0,_,?_,.deleted (Deleted.of_parts dir parent intact
          ((v.driver.writeDirectory zeroTable (cellNumber c)).setCell c 0) live found cluster chain (if_pos folder).symm
          (fun _ => empty) ?_ ?_ ?_) (DriverState.writeFat_cluster _ 1)⟩
        · simp only [Volume.respond,FsAction.respond,ran,Option.map_some,FsAction.directories,if_true]
        · simp
        · intro b out
          exact Function.update_of_ne (by simpa using out) _ _
        · intro n out
          exact DriverState.writeDirectory_other _ fun same => out c (by simp) (by rw [same,slot_cellNumber])
    · have chainHere : FatChain v.driver (cellNumber c) (c :: rest) := by
        unfold Volume.Chained at chain
        rwa [cluster] at chain
      obtain ⟨r,released,ran⟩ := delete_file foundHere (by rw [table]; exact folder) clusterHere chainHere
      refine ⟨0,_,?_,.deleted (Deleted.of_parts dir parent intact r live found cluster chain (if_neg folder).symm
        (fun isFolder => absurd isFolder folder) released.freed released.mapFrame released.clusterFrame)
        (DriverState.writeFat_cluster _ 1)⟩
      simp only [Volume.respond,FsAction.respond,ran,Option.map_some,FsAction.directories,if_true]

end delete

theorem request_effect {v : Volume} (intact : Intact v) (a : FsAction) (addressed : v.Addressed a.request)
    (clear : a.Clear v) : ∃ code v', v.respond a = some (code,v') ∧ Effect v a code v' := by
  obtain ⟨d,dir,parent⟩ := addressed
  cases a with
  | write memory request => exact write_effect parent dir intact.steady memory
  | delete request => exact delete_effect dir parent intact clear

theorem respond_driver {v v' : Volume} {a : FsAction} {code : Int} (ran : v.respond a = some (code,v')) :
    a.respond v.driver = some (code,v'.driver) := by
  obtain ⟨⟨code',s⟩,responded,same⟩ := Option.map_eq_some_iff.mp ran
  cases same
  exact responded

theorem Effect.intact {v v' : Volume} {a : FsAction} {code : Int} (effect : Effect v a code v') (intact : Intact v) :
    Intact v' := by
  cases effect with
  | refused => exact intact
  | folder _ wrote => exact wrote.inserted.intact intact
  | file _ wrote => exact wrote.inserted.intact intact
  | short _ wrote => exact wrote.inserted.intact intact
  | deleted deleted => exact deleted.removed.intact intact

theorem ClearStep.effect {v v' : Volume} {a : FsAction} (intact : Intact v) (step : v.ClearStep a v') :
    ∃ code, v.respond a = some (code,v') ∧ Effect v a code v' := by
  obtain ⟨clear,addressed,code,ran⟩ := step
  obtain ⟨code',v'',ran',effect⟩ := request_effect intact a addressed clear
  rw [ran'] at ran
  cases ran
  exact ⟨_,ran',effect⟩

theorem ClearStep.intact {v v' : Volume} {a : FsAction} (intact : Intact v) (step : v.ClearStep a v') : Intact v' := by
  obtain ⟨_,_,effect⟩ := ClearStep.effect intact step
  exact effect.intact intact

theorem rootRun {v : Volume} (intact : Intact v) (actions : List FsAction)
    (inRoot : ∀ a ∈ actions, a.request.parent_cluster_number = ROOT_CLUSTER_NUMBER ∧ a.request.Named) :
    ∃ history v', Run Volume.NamedStep v history v' ∧ history.map Transition.action = actions ∧
      replay v.driver actions = some v'.driver := by
  induction actions generalizing v with
  | nil => exact ⟨[],v,.nil,rfl,rfl⟩
  | cons a rest ih =>
    obtain ⟨parent,named⟩ := inRoot a (by simp)
    have addressed : v.Addressed a.request := ⟨2,intact.root,parent⟩
    obtain ⟨code,v₁,ran,effect⟩ := request_effect intact a addressed (FsAction.clear_of_named named)
    obtain ⟨history,v₂,run,names,replayed⟩ := ih (effect.intact intact) fun b member => inRoot b (by simp [member])
    have step : v.NamedStep a v₁ := ⟨named,addressed,code,ran⟩
    refine ⟨⟨v,a,v₁⟩ :: history,v₂,.cons step run,by simp [names],?_⟩
    obtain ⟨⟨code',s⟩,responded,same⟩ := Option.map_eq_some_iff.mp ran
    cases same
    simp only [replay,responded,Option.bind_some]
    exact replayed

-- A folder and its removal leave a slot that still says `subdirectory`.
def vacatedSlot : List FsAction := [.write blankMemory (rootRequest 'A' 0),.delete (rootRequest 'A' 0)]

theorem vacatedSlot_named : ∀ a ∈ vacatedSlot,
    a.request.parent_cluster_number = ROOT_CLUSTER_NUMBER ∧ a.request.Named := by
  intro a member
  simp only [vacatedSlot,List.mem_cons,List.not_mem_nil,or_false] at member
  rcases member with rfl | rfl <;> exact ⟨rfl,rootRequest_named _ _ (by decide)⟩

theorem Run.intact {s : DriverState} {history : List (Transition Volume FsAction)} {v : Volume}
    (run : Run Volume.ClearStep (formatted s) history v) : Intact v :=
  run.invariant (formatted_intact s) fun _ _ _ intact step => ClearStep.intact intact step

end Sosis.Fat32
