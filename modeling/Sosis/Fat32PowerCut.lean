import Sosis.Fat32Refinement
import Sosis.TornWrites

-- The drive when power goes: the requests as the sectors they store, one after the
-- other, and what a later boot finds when only the first of them were stored.
namespace Sosis.Fat32
open ByteRecords FirstFit LinkedCells TransitionRuns TornWrites

-- A turn of the loop of write_blocks (disk.c), of a write_clusters call of one cluster.
structure SectorStore where
  cluster_number : Word
  ptr : Bytes
  sector : Fin CLUSTER_BLOCK_COUNT

def SectorStore.run (disk : Disk) (s : SectorStore) : Disk :=
  write_blocks disk (drop s.ptr (BLOCK_SIZE*s.sector)) (cluster_to_lba s.cluster_number + BitVec.ofNat 32 s.sector) 1

def clusterStores (ptr : Bytes) (cluster_number : Word) : List SectorStore :=
  (List.finRange CLUSTER_BLOCK_COUNT).map (SectorStore.mk cluster_number ptr)

def fatStores (fat : ClusterMap) : List SectorStore := clusterStores (clusterMapCodec.encode fat) FAT_CLUSTER_NUMBER

-- The stores of writeLoop, of deleteLoop, and of a request, in their order.
def writeLoopStores (data : Bytes) : Nat → Nat → Option Cell → DriverState → List SectorStore
  | 0,_,_,_ => []
  | turns+1,i,prev,s =>
    match findEmptySpace s.cluster_map with
    | none => []
    | some idx => clusterStores (drop data (i*CLUSTER_SIZE)) (cellNumber idx) ++
        writeLoopStores data turns (i+1) (some idx) (turnState data i prev idx s)

def deleteLoopStores : Nat → DriverState → Word → List SectorStore
  | fuel,s,idxCluster =>
    if bound : idxCluster.toNat < CLUSTER_MAP_SIZE then
      if s.cluster_map ⟨_,bound⟩ = FAT32_FAT_END_OF_FILE then clusterStores emptyCluster idxCluster
      else match fuel with
      | 0 => []
      | fuel+1 => clusterStores emptyCluster idxCluster ++
          deleteLoopStores fuel (releaseState s ⟨_,bound⟩) (s.cluster_map ⟨_,bound⟩)
    else []

def FsAction.stores (s : DriverState) : FsAction → List SectorStore
  | .write memory request =>
    let dir_table := s.directory request.parent_cluster_number
    if (dir_table 0).attr ≠ ATTR_SUBDIRECTORY then []
    else match findEntry dir_table request.name request.ext with
    | some _ => []
    | none => match findIdxEmptyEntry dir_table with
      | none => []
      | some idxEntryParent => match findEmptySpace s.cluster_map with
        | none => []
        | some idx =>
          let entered := enteredState s request idxEntryParent idx
          let table := addEntry dir_table request idxEntryParent (cellNumber idx)
          clusterStores (directoryCodec.encode table) request.parent_cluster_number ++
          if request.buffer_size = 0 then
            clusterStores (directoryCodec.encode
              (init_directory_table zeroTable request.name request.parent_cluster_number)) (cellNumber idx) ++
            fatStores (entered.setCell idx FAT32_FAT_END_OF_FILE).cluster_map
          else
            let data := memory.at request.buf
            let turns := ceil request.buffer_size.toNat
            writeLoopStores data turns 0 none entered ++
            match writeLoop data turns 0 none entered with
            | some (true,s) => fatStores s.cluster_map
            | _ => []
  | .delete request =>
    let dir_table := s.directory request.parent_cluster_number
    match findEntry dir_table request.name request.ext with
    | none => []
    | some idxEntry =>
      let idxCluster := (dir_table idxEntry).cluster
      let finish (s : DriverState) := clusterStores (directoryCodec.encode (deleteEntry dir_table idxEntry))
        request.parent_cluster_number ++ fatStores s.cluster_map
      if (dir_table idxEntry).attr = ATTR_SUBDIRECTORY then
        if !isEmptyDir (s.directory idxCluster) then []
        else if bound : idxCluster.toNat < CLUSTER_MAP_SIZE then
          clusterStores (directoryCodec.encode zeroTable) idxCluster ++ finish (s.setCell ⟨_,bound⟩ 0)
        else []
      else deleteLoopStores walkFuel s idxCluster ++ ((deleteLoop walkFuel s idxCluster).map finish).getD []

section sectors
variable {disk : Disk} {ptr : Bytes} {c : Word}

theorem sectorBase (c : Word) (q : Fin CLUSTER_BLOCK_COUNT) :
    blockBase (cluster_to_lba c + BitVec.ofNat 32 q) = CLUSTER_SIZE * slot c + BLOCK_SIZE*q := by
  have small : q.val < 4 := q.isLt
  have number : (cluster_to_lba c).toNat = c.toNat * 4 % 2^32 := by
    simp [cluster_to_lba,BitVec.toNat_mul]
  simp only [blockBase,slot,BitVec.toNat_add,BitVec.toNat_ofNat,number,BLOCK_SIZE,CLUSTER_SIZE]
  omega

theorem run_at (s : SectorStore) (a : Nat) : s.run disk a =
    if CLUSTER_SIZE * slot s.cluster_number + BLOCK_SIZE*s.sector ≤ a ∧
      a < CLUSTER_SIZE * slot s.cluster_number + BLOCK_SIZE*s.sector + BLOCK_SIZE
    then s.ptr (a - CLUSTER_SIZE * slot s.cluster_number) else disk a := by
  simp only [SectorStore.run,write_blocks,sectorBase,drop_apply,mul_one]
  split
  · congr 1
    omega
  · rfl

theorem run_cluster (s : SectorStore) (n : Nat) : clusterAt (s.run disk) n =
    if n = slot s.cluster_number then clip (patch BLOCK_SIZE s.sector s.ptr (clusterAt disk n)) else clusterAt disk n := by
  have small : s.sector.val < 4 := s.sector.isLt
  funext k
  by_cases inside : k < CLUSTER_SIZE
  · simp only [clusterAt,clip,drop_apply,run_at,if_pos inside]
    split
    · rename_i here
      split
      · rename_i same
        subst same
        rw [clip,if_pos inside,patch,if_pos (by simp only [BLOCK_SIZE,CLUSTER_SIZE] at here ⊢; omega),Nat.add_sub_cancel_left]
      · rename_i other
        simp only [BLOCK_SIZE,CLUSTER_SIZE] at here inside
        omega
    · rename_i out
      split
      · rename_i same
        subst same
        rw [clip,if_pos inside,patch,if_neg (by simp only [BLOCK_SIZE,CLUSTER_SIZE] at out ⊢; omega),clip,if_pos inside,
          drop_apply]
      · rw [clip,if_pos inside,drop_apply]
  · split <;> simp only [clusterAt,clip,if_neg inside]

-- The four sectors of a cluster are the whole of it.
theorem clusterStores_run : (clusterStores ptr c).foldl SectorStore.run disk = write_clusters disk ptr c 1 := by
  have listed : clusterStores ptr c = [⟨c,ptr,0⟩,⟨c,ptr,1⟩,⟨c,ptr,2⟩,⟨c,ptr,3⟩] := rfl
  funext a
  simp only [listed,List.foldl_cons,List.foldl_nil,run_at,write_clusters,write_blocks,blockBase_cluster]
  simp only [Fin.val_zero,Fin.val_one,Fin.val_two,show ((3 : Fin CLUSTER_BLOCK_COUNT).val) = 3 from rfl,
    BLOCK_SIZE,CLUSTER_SIZE,CLUSTER_BLOCK_COUNT]
  split_ifs <;> first | rfl | (exfalso; omega)

end sectors

section whole
variable {s s' : DriverState}

theorem writeCluster_stores (s : DriverState) (ptr : Bytes) (c : Word) :
    (clusterStores ptr c).foldl SectorStore.run s.disk = (s.writeCluster ptr c).disk := clusterStores_run

theorem writeLoopStores_run {data : Bytes} {turns i : Nat} {prev : Option Cell} {done : Bool}
    (ran : writeLoop data turns i prev s = some (done,s')) :
    (writeLoopStores data turns i prev s).foldl SectorStore.run s.disk = s'.disk := by
  induction turns generalizing i prev s with
  | zero =>
    cases ran
    rfl
  | succ turns ih =>
    cases room : findEmptySpace s.cluster_map with
    | none =>
      cases prev with
      | none => simp [writeLoop,room] at ran
      | some p =>
        simp only [writeLoop,room,Option.some.injEq,Prod.mk.injEq] at ran
        obtain ⟨-,rfl⟩ := ran
        simp only [writeLoopStores,room]
        rfl
    | some idx =>
      have onward : writeLoop data turns (i+1) (some idx) (turnState data i prev idx s) = some (done,s') := by
        cases prev <;> simpa only [writeLoop,room,turnState] using ran
      have turn : (turnState data i prev idx s).disk = (s.writeCluster (drop data (i*CLUSTER_SIZE)) (cellNumber idx)).disk := by
        cases prev <;> rfl
      simp only [writeLoopStores,room,List.foldl_append]
      rw [writeCluster_stores,← turn]
      exact ih onward

theorem deleteLoopStores_run {fuel : Nat} {p : Word} (ran : deleteLoop fuel s p = some s') :
    (deleteLoopStores fuel s p).foldl SectorStore.run s.disk = s'.disk := by
  induction fuel generalizing s p with
  | zero =>
    unfold deleteLoop at ran
    unfold deleteLoopStores
    split at ran
    · rename_i bound
      split at ran
      · rename_i ends
        cases ran
        rw [dif_pos bound,if_pos ends]
        exact writeCluster_stores _ _ _
      · cases ran
    · cases ran
  | succ fuel ih =>
    unfold deleteLoop at ran
    unfold deleteLoopStores
    split at ran
    · rename_i bound
      split at ran
      · rename_i ends
        cases ran
        rw [dif_pos bound,if_pos ends]
        exact writeCluster_stores _ _ _
      · rename_i onward
        rw [dif_pos bound,if_neg onward,List.foldl_append,writeCluster_stores s]
        have here : ((s.setCell ⟨_,bound⟩ 0).writeCluster emptyCluster p) = releaseState s ⟨p.toNat,bound⟩ := by
          rw [releaseState,cellNumber_of_lt]
        rw [here] at ran
        have same : (s.writeCluster emptyCluster p).disk = (releaseState s ⟨p.toNat,bound⟩).disk := by
          rw [← here]
          rfl
        rw [same]
        exact ih ran
    · cases ran

theorem fatStores_run (s : DriverState) : (fatStores s.cluster_map).foldl SectorStore.run s.disk = s.writeFat.disk :=
  writeCluster_stores _ _ _

theorem write_stores {memory : Memory} {request : FAT32DriverRequest} {code : Int}
    (ran : write s memory request = some (code,s')) :
    ((FsAction.write memory request).stores s).foldl SectorStore.run s.disk = s'.disk := by
  simp only [write] at ran
  simp only [FsAction.stores]
  split at ran
  · rename_i notDirectory
    cases ran
    rw [if_pos notDirectory]
    rfl
  rename_i directory
  rw [if_neg directory]
  cases absent : findEntry (s.directory request.parent_cluster_number) request.name request.ext with
  | some _ =>
    simp only [absent] at ran
    cases ran
    rfl
  | none => cases vacant : findIdxEmptyEntry (s.directory request.parent_cluster_number) with
    | none =>
      simp only [absent,vacant] at ran
      cases ran
      rfl
    | some i => cases room : findEmptySpace s.cluster_map with
      | none =>
        simp only [absent,vacant,room] at ran
        cases ran
        rfl
      | some c =>
        simp only [absent,vacant,room] at ran
        have entered : (clusterStores (directoryCodec.encode (addEntry (s.directory request.parent_cluster_number) request i
            (cellNumber c))) request.parent_cluster_number).foldl SectorStore.run s.disk =
            (enteredState s request i c).disk := writeCluster_stores _ _ _
        rw [List.foldl_append,entered]
        split at ran
        · rename_i folder
          cases ran
          rw [if_pos folder,List.foldl_append,writeCluster_stores]
          exact fatStores_run (((enteredState s request i c).writeDirectory (init_directory_table zeroTable request.name
            request.parent_cluster_number) (cellNumber c)).setCell c FAT32_FAT_END_OF_FILE)
        · rename_i file
          obtain ⟨⟨done,r⟩,looped,same⟩ := Option.map_eq_some_iff.mp ran
          have looped' : writeLoop (memory.at request.buf) (ceil request.buffer_size.toNat) 0 none
              (enteredState s request i c) = some (done,r) := looped
          rw [if_neg file,List.foldl_append,writeLoopStores_run looped',looped']
          cases done with
          | true =>
            cases same
            exact fatStores_run r
          | false =>
            cases same
            rfl

theorem delete_stores {request : FAT32DriverRequest} {code : Int} (ran : delete s request = some (code,s')) :
    ((FsAction.delete request).stores s).foldl SectorStore.run s.disk = s'.disk := by
  have finished (r : DriverState) (table : DirectoryTable) :
      (clusterStores (directoryCodec.encode table) request.parent_cluster_number ++ fatStores r.cluster_map).foldl
        SectorStore.run r.disk = (r.writeDirectory table request.parent_cluster_number).writeFat.disk := by
    rw [List.foldl_append,writeCluster_stores r]
    exact fatStores_run (r.writeDirectory table request.parent_cluster_number)
  simp only [delete] at ran
  simp only [FsAction.stores]
  cases found : findEntry (s.directory request.parent_cluster_number) request.name request.ext with
  | none =>
    simp only [found] at ran
    cases ran
    rfl
  | some i =>
    simp only [found] at ran ⊢
    split at ran
    · rename_i folder
      rw [if_pos folder]
      split at ran
      · rename_i occupied
        cases ran
        rw [if_pos occupied]
        rfl
      · rename_i empty
        rw [if_neg empty]
        split at ran
        · rename_i bound
          cases ran
          rw [dif_pos bound,List.foldl_append,writeCluster_stores]
          exact finished ((s.writeDirectory zeroTable _).setCell ⟨_,bound⟩ 0) _
        · cases ran
    · rename_i file
      obtain ⟨r,walked,same⟩ := Option.map_eq_some_iff.mp ran
      cases same
      rw [if_neg file,List.foldl_append,deleteLoopStores_run walked,walked]
      exact finished r _

-- All its stores together are what a request does to the drive.
theorem stores_run {a : FsAction} {code : Int} (ran : a.respond s = some (code,s')) :
    (a.stores s).foldl SectorStore.run s.disk = s'.disk := by
  cases a with
  | write memory request => exact write_stores ran
  | delete request => exact delete_stores ran

end whole

-- What the drive must still hold for a boot to find the live entry `y` as it was.
structure Spares (v : Volume) (y : Place) (disk : Disk) : Prop where
  boot : clusterAt disk 0 = v.driver.cluster 0
  entry : directoryCodec.decode (clusterAt disk y.dir) y.index = v.entry y
  others : ∀ j : Fin DIRECTORY_ENTRY_COUNT, 2 ≤ j.val → j ≠ y.index →
    ¬ (directoryCodec.decode (clusterAt disk y.dir) j).Named (v.entry y).name (v.entry y).ext
  cells : ∀ xs, v.Chained y xs → ∀ c ∈ xs, clusterMapCodec.decode (clusterAt disk 1) c = v.driver.cluster_map c
  clusters : ∀ xs, v.Chained y xs → ∀ c ∈ xs, c ∉ v.dirs → clusterAt disk c = v.driver.cluster c

-- The stores that leave it so.
inductive Harmless (v : Volume) (y : Place) : SectorStore → Prop where
  | elsewhere {s : SectorStore} : slot s.cluster_number ≠ 0 → slot s.cluster_number ≠ 1 → slot s.cluster_number ≠ y.dir.val →
      (∀ xs, v.Chained y xs → ∀ c ∈ xs, c ∉ v.dirs → c.val ≠ slot s.cluster_number) → Harmless v y s
  | directory {table q} : table y.index = v.entry y →
      (∀ j : Fin DIRECTORY_ENTRY_COUNT, 2 ≤ j.val → j ≠ y.index → ¬ (table j).Named (v.entry y).name (v.entry y).ext) →
      Harmless v y ⟨cellNumber y.dir,directoryCodec.encode table,q⟩
  | fat {fat q} : (∀ xs, v.Chained y xs → ∀ c ∈ xs, fat c = v.driver.cluster_map c) →
      Harmless v y ⟨FAT_CLUSTER_NUMBER,clusterMapCodec.encode fat,q⟩

theorem entry_local : Local entryCodec := by
  intro a b same
  have each : ∀ k, k < 32 → a k = b k := same
  have name (i : Fin 8) : a i = b i := each _ (by omega)
  have ext (i : Fin 3) : a (8+i) = b (8+i) := each _ (by omega)
  change DirectoryEntry.decode a = DirectoryEntry.decode b
  simp (disch := omega) only [DirectoryEntry.decode,le16,le32,name,ext,each]

theorem directory_local : Local directoryCodec := entry_local.array
theorem clusterMap_local : Local clusterMapCodec := word32_local.array

theorem decode_clip {c : Codec α} (here : Local c) (size : c.size = CLUSTER_SIZE) (b : Bytes) :
    c.decode (clip b) = c.decode b :=
  here _ _ fun _ inside => if_pos (size ▸ inside)

theorem directory_patch (table : DirectoryTable) (old : Bytes) (q : Nat) (i : Fin DIRECTORY_ENTRY_COUNT) :
    directoryCodec.decode (clip (patch BLOCK_SIZE q (directoryCodec.encode table) old)) i =
      if i.val * 32 / BLOCK_SIZE = q then table i else directoryCodec.decode old i := by
  have exact : directoryCodec.decode (directoryCodec.encode table) = table := directoryCodec.exact _ _ fun _ _ => rfl
  have records := @patch_array _ _ DIRECTORY_ENTRY_COUNT BLOCK_SIZE q entry_local ⟨16,rfl⟩ (directoryCodec.encode table) old i
  rw [decode_clip directory_local rfl]
  exact records.trans (by rw [← directoryCodec,exact]; rfl)

theorem clusterMap_patch (fat : ClusterMap) (old : Bytes) (q : Nat) (i : Cell) :
    clusterMapCodec.decode (clip (patch BLOCK_SIZE q (clusterMapCodec.encode fat) old)) i =
      if i.val * 4 / BLOCK_SIZE = q then fat i else clusterMapCodec.decode old i := by
  have exact : clusterMapCodec.decode (clusterMapCodec.encode fat) = fat := clusterMapCodec.exact _ _ fun _ _ => rfl
  have records := @patch_array _ _ CLUSTER_MAP_SIZE BLOCK_SIZE q word32_local ⟨128,rfl⟩ (clusterMapCodec.encode fat) old i
  rw [decode_clip clusterMap_local rfl]
  exact records.trans (by rw [← clusterMapCodec,exact]; rfl)

section spared
variable {v : Volume} {y : Place} {disk : Disk}

-- The drive has the FAT's cells of `y` as they are in memory. They are not when the write
-- that made `y` ran out of clusters.
def Settled (v : Volume) (y : Place) : Prop :=
  ∀ xs, v.Chained y xs → ∀ c ∈ xs, clusterMapCodec.decode (v.driver.cluster 1) c = v.driver.cluster_map c

theorem settled_of_stored (stored : v.driver.cluster 1 = fatBytes v.driver.cluster_map) : Settled v y := by
  intro _ _ c _
  rw [stored,fatBytes,clusterMap_clip]

theorem Intact.named_once (intact : Intact v) (live : v.Live y) {j : Fin DIRECTORY_ENTRY_COUNT} (low : 2 ≤ j.val)
    (other : j ≠ y.index) : ¬ (v.driver.table y.dir j).Named (v.entry y).name (v.entry y).ext := by
  intro named
  by_cases liveJ : v.Live ⟨y.dir,j⟩
  · exact other (congrArg Place.index (intact.unique ⟨y.dir,j⟩ y liveJ live rfl named))
  · have dead := intact.dead ⟨y.dir,j⟩ ⟨live.1.1,low⟩ liveJ
    exact intact.named y live ⟨named.1.symm.trans dead.1,named.2.symm.trans dead.2⟩

theorem Spares.here (intact : Intact v) (live : v.Live y) (settled : Settled v y) : Spares v y v.driver.disk where
  boot := rfl
  entry := rfl
  others _ low other := intact.named_once live low other
  cells := settled
  clusters _ _ _ _ _ := rfl

theorem Spares.step (intact : Intact v) (live : v.Live y) {s : SectorStore} (spares : Spares v y disk)
    (harmless : Harmless v y s) : Spares v y (s.run disk) := by
  have dirRange := intact.range y.dir live.1.1
  have chainRange (xs : List Cell) (chain : v.Chained y xs) (c : Cell) (member : c ∈ xs) : 3 ≤ c.val :=
    intact.chain_range live chain c member
  cases harmless with
  | elsewhere notBoot notFat notDir apart =>
    have kept {n : Nat} (other : n ≠ slot s.cluster_number) : clusterAt (s.run disk) n = clusterAt disk n := by
      rw [run_cluster,if_neg other]
    refine ⟨?_,?_,?_,?_,fun xs chain c member notFolder => ?_⟩
    · rw [kept notBoot.symm]
      exact spares.boot
    · rw [kept notDir.symm]
      exact spares.entry
    · rw [kept notDir.symm]
      exact spares.others
    · rw [kept notFat.symm]
      exact spares.cells
    · rw [kept (apart xs chain c member notFolder)]
      exact spares.clusters xs chain c member notFolder
  | @directory table q same absent =>
    have kept {n : Nat} (other : n ≠ y.dir.val) :
        clusterAt (SectorStore.run disk ⟨cellNumber y.dir,directoryCodec.encode table,q⟩) n = clusterAt disk n := by
      rw [run_cluster,slot_cellNumber,if_neg other]
    have there (j : Fin DIRECTORY_ENTRY_COUNT) :
        directoryCodec.decode (clusterAt (SectorStore.run disk ⟨cellNumber y.dir,directoryCodec.encode table,q⟩) y.dir) j =
          if j.val * 32 / BLOCK_SIZE = q then table j else directoryCodec.decode (clusterAt disk y.dir) j := by
      rw [run_cluster,slot_cellNumber,if_pos rfl,directory_patch]
    refine ⟨?_,?_,fun j low other => ?_,?_,fun xs chain c member notFolder => ?_⟩
    · rw [kept (by omega)]
      exact spares.boot
    · rw [there,same,spares.entry,ite_self]
    · rw [there]
      split
      · exact absent j low other
      · exact spares.others j low other
    · rw [kept (by omega)]
      exact spares.cells
    · have apart : c.val ≠ y.dir.val := fun here => notFolder ((Fin.ext here : c = y.dir) ▸ live.1.1)
      rw [kept apart]
      exact spares.clusters xs chain c member notFolder
  | @fat fat q same =>
    have kept {n : Nat} (other : n ≠ 1) :
        clusterAt (SectorStore.run disk ⟨FAT_CLUSTER_NUMBER,clusterMapCodec.encode fat,q⟩) n = clusterAt disk n := by
      rw [run_cluster,slot_fat,if_neg other]
    refine ⟨?_,?_,?_,fun xs chain c member => ?_,fun xs chain c member notFolder => ?_⟩
    · rw [kept (by omega)]
      exact spares.boot
    · rw [kept (by omega)]
      exact spares.entry
    · rw [kept (by omega)]
      exact spares.others
    · rw [run_cluster,slot_fat,if_pos rfl,clusterMap_patch,same xs chain c member,spares.cells xs chain c member,ite_self]
    · have := chainRange xs chain c member
      rw [kept (by omega)]
      exact spares.clusters xs chain c member notFolder

-- Whatever stores were made of a list of harmless ones.
theorem Spares.cut (intact : Intact v) (live : v.Live y) {stores : List SectorStore} (spares : Spares v y disk)
    (harmless : ∀ s ∈ stores, Harmless v y s) (k : Nat) : Spares v y ((stores.take k).foldl SectorStore.run disk) :=
  List.foldlRecOn _ _ spares fun _ before _ member => before.step intact live (harmless _ (List.mem_of_mem_take member))

theorem Spares.read (intact : Intact v) (live : v.Live y) (spares : Spares v y disk)
    (signed : is_empty_storage v.driver = false) {request : FAT32DriverRequest}
    (parent : request.parent_cluster_number = cellNumber y.dir)
    (named : (v.entry y).Named request.name request.ext) (map : ClusterMap) (memory : Memory) :
    is_empty_storage ⟨disk,map⟩ = false ∧
      read (initialize_filesystem_fat32 ⟨disk,map⟩) memory request = read v.driver memory request := by
  have signed' : is_empty_storage ⟨disk,map⟩ = false := by
    rw [is_empty_storage_iff] at signed ⊢
    intro i
    exact (congrFun spares.boot i).trans (signed i)
  have mounted : initialize_filesystem_fat32 ⟨disk,map⟩ = ⟨disk,clusterMapCodec.decode (clusterAt disk 1)⟩ := by
    simp only [initialize_filesystem_fat32,signed',Bool.false_eq_true,if_false,read_clusters_eq,slot_fat]
  refine ⟨signed',?_⟩
  obtain ⟨c,rest,_,chain,_⟩ := intact.chained y live
  rw [mounted,intact.read_live live parent named chain]
  generalize reached : (⟨disk,clusterMapCodec.decode (clusterAt disk 1)⟩ : DriverState) = s
  have table : s.directory request.parent_cluster_number = directoryCodec.decode (clusterAt disk y.dir) := by
    subst reached
    rw [parent,DriverState.directory_cell]
    rfl
  have found : findEntry (s.directory request.parent_cluster_number) request.name request.ext = some y.index := by
    rw [table]
    refine findEntry_unique live.1.2 (by rw [spares.entry]; exact named) fun j low namedJ => ?_
    by_contra other
    exact spares.others j low other ⟨namedJ.1.trans named.1.symm,namedJ.2.trans named.2.symm⟩
  have entry : s.directory request.parent_cluster_number y.index = v.entry y := by rw [table,spares.entry]
  have onward : FatChain s (s.directory request.parent_cluster_number y.index).cluster (c :: rest) := by
    rw [entry]
    subst reached
    exact chain.congr fun b member => spares.cells _ chain b member
  rw [read_found s request found onward memory,entry]
  by_cases folder : (v.entry y).attr = ATTR_SUBDIRECTORY
  · rw [if_pos folder,if_pos folder]
  · rw [storeClusters_congr fun b member => ?_]
    subst reached
    refine spares.clusters _ chain b member fun dir => folder ?_
    obtain ⟨at_,_⟩ := intact.dir_on_chain live chain dir member
    exact (intact.folder y live b dir at_).1

theorem clusterStores_harmless {ptr : Bytes} {c : Word} (each : ∀ q, Harmless v y ⟨c,ptr,q⟩) :
    ∀ s ∈ clusterStores ptr c, Harmless v y s := by
  intro s member
  obtain ⟨q,_,rfl⟩ := List.mem_map.mp member
  exact each q

variable (intact : Intact v) (live : v.Live y)
include intact live

theorem Harmless.fresh {c : Cell} (free : v.driver.cluster_map c = 0) (ptr : Bytes) (q : Fin CLUSTER_BLOCK_COUNT) :
    Harmless v y ⟨cellNumber c,ptr,q⟩ := by
  have low := intact.fresh_range free
  have notDir : c.val ≠ y.dir.val := intact.steady.fresh_not_dir live.1.1 free
  refine .elsewhere ?_ ?_ ?_ fun xs chain b member _ same => ?_
  · rw [slot_cellNumber]
    omega
  · rw [slot_cellNumber]
    omega
  · rw [slot_cellNumber]
    exact notDir
  · rw [slot_cellNumber] at same
    obtain rfl : b = c := Fin.ext same
    exact intact.chain_taken live chain member free

-- The parent's table, with one entry changed that is not `y`'s.
theorem Harmless.parent {d : Cell} (dir : d ∈ v.dirs) {table : DirectoryTable} {i : Fin DIRECTORY_ENTRY_COUNT}
    (frame : ∀ j, j ≠ i → table j = v.driver.table d j) (other : d = y.dir → y.index ≠ i)
    (renamed : d = y.dir → ¬ (table i).Named (v.entry y).name (v.entry y).ext) (q : Fin CLUSTER_BLOCK_COUNT) :
    Harmless v y ⟨cellNumber d,directoryCodec.encode table,q⟩ := by
  have range := intact.range d dir
  by_cases here : d = y.dir
  · subst here
    refine .directory (frame _ (other rfl)) fun j low apart named => ?_
    by_cases at_ : j = i
    · subst at_
      exact renamed rfl named
    · rw [frame j at_] at named
      exact intact.named_once live low apart named
  · refine .elsewhere ?_ ?_ ?_ fun xs chain b member notFolder same => ?_
    · rw [slot_cellNumber]
      omega
    · rw [slot_cellNumber]
      omega
    · rw [slot_cellNumber]
      exact fun same => here (Fin.ext same)
    · rw [slot_cellNumber] at same
      exact notFolder ((Fin.ext same : b = d) ▸ dir)

theorem writeLoop_harmless {data : Bytes} {turns i : Nat} {prev : Option Cell} {s : DriverState}
    (fresh : ∀ c, s.cluster_map c = 0 → v.driver.cluster_map c = 0) :
    ∀ t ∈ writeLoopStores data turns i prev s, Harmless v y t := by
  induction turns generalizing i prev s with
  | zero => exact fun _ member => absurd member List.not_mem_nil
  | succ turns ih =>
    intro t member
    unfold writeLoopStores at member
    cases room : findEmptySpace s.cluster_map with
    | none =>
      rw [room] at member
      cases member
    | some idx =>
      simp only [room,List.mem_append] at member
      have free := fresh idx (findEmptySpace_some.mp room).1
      rcases member with first | onward
      · exact clusterStores_harmless (fun q => .fresh intact live free _ q) t first
      · refine ih (fun c zero => ?_) t onward
        by_cases at_ : c = idx
        · rwa [at_]
        · by_cases back : prev = some c
          · subst back
            rw [turnState_prev _ _ _ _ _ at_,cellNumber_eq_zero] at zero
            have := intact.fresh_range free
            omega
          · rw [turnState_frame _ _ _ _ _ _ at_ back] at zero
            exact fresh c zero

theorem write_harmless {memory : Memory} {request : FAT32DriverRequest} {d : Cell} (dir : d ∈ v.dirs)
    (at_ : request.parent_cluster_number = cellNumber d)
    (other : d = y.dir → ¬ (v.entry y).Named request.name request.ext) :
    ∀ t ∈ (FsAction.write memory request).stores v.driver, Harmless v y t := by
  intro t member
  simp only [FsAction.stores] at member
  split at member
  · cases member
  split at member
  · cases member
  split at member
  · cases member
  rename_i i vacant
  split at member
  · cases member
  rename_i c room
  rw [parent_table at_] at vacant
  obtain ⟨low,empty,_⟩ := findIdxEmptyEntry_some.mp vacant
  have free := (findEmptySpace_some.mp room).1
  have chained {xs : List Cell} (chain : v.Chained y xs) {b : Cell} (on : b ∈ xs) : v.driver.cluster_map b ≠ 0 :=
    intact.chain_taken live chain on
  rcases List.mem_append.mp member with first | onward
  · refine clusterStores_harmless (fun q => ?_) t first
    rw [parent_table at_,at_]
    refine .parent intact live dir (fun j apart => addEntry_other _ _ _ apart) (fun here same => ?_) (fun here named => ?_) q
    · have used := live.2
      rw [Volume.entry,← here,same] at used
      exact empty used
    · rw [addEntry_here] at named
      exact other here ⟨named.1.symm,named.2.symm⟩
  split at onward
  · rcases List.mem_append.mp onward with folder | fat
    · exact clusterStores_harmless (fun q => .fresh intact live free _ q) t folder
    · refine clusterStores_harmless (fun q => .fat fun xs chain b on => ?_) t fat
      refine Function.update_of_ne ?_ _ _
      rintro rfl
      exact chained chain on free
  · rcases List.mem_append.mp onward with data | fat
    · have fresh (b : Cell) (zero : (enteredState v.driver request i c).cluster_map b = 0) : v.driver.cluster_map b = 0 := zero
      exact writeLoop_harmless intact live fresh t data
    · split at fat
      · rename_i s ran
        obtain ⟨cs,appended,_⟩ := writeLoop_parts (by simp) ran
        refine clusterStores_harmless (fun q => .fat fun xs chain b on => ?_) t fat
        exact appended.mapFrame b (fun member => chained chain on (appended.fresh b member)) (by simp)
      · cases fat

-- The cells of another entry's chain, where that entry is no folder.
theorem Harmless.chain {x : Place} {xs : List Cell} (liveX : v.Live x) (other : y ≠ x) (chain : v.Chained x xs) {c : Cell}
    (member : c ∈ xs) (notDir : c ≠ y.dir) (ptr : Bytes) (q : Fin CLUSTER_BLOCK_COUNT) : Harmless v y ⟨cellNumber c,ptr,q⟩ := by
  have low := intact.chain_range liveX chain c member
  refine .elsewhere ?_ ?_ ?_ fun ys chainY b on _ same => ?_
  · rw [slot_cellNumber]
    omega
  · rw [slot_cellNumber]
    omega
  · rw [slot_cellNumber]
    exact fun same => notDir (Fin.ext same)
  · rw [slot_cellNumber] at same
    obtain rfl : b = c := Fin.ext same
    exact other (intact.apart y x ys xs live liveX chainY chain b on member)

omit intact live in
theorem deleteLoop_harmless {xs : List Cell} (each : ∀ c ∈ xs, ∀ q, Harmless v y ⟨cellNumber c,emptyCluster,q⟩) {fuel : Nat}
    {s : DriverState} {p : Word} (chain : FatChain s p xs) : ∀ t ∈ deleteLoopStores fuel s p, Harmless v y t := by
  induction fuel generalizing s p xs with
  | zero =>
    intro t member
    unfold deleteLoopStores at member
    split at member
    · rename_i bound
      split at member
      · cases chain with
        | stop => exact absurd bound (by decide)
        | @link c rest onward => exact clusterStores_harmless (each c (by simp)) t member
      · cases member
    · cases member
  | succ fuel ih =>
    intro t member
    unfold deleteLoopStores at member
    have distinct := chain.nodup cells_pointers
    split at member
    · rename_i bound
      cases chain with
      | stop => exact absurd bound (by decide)
      | @link c rest onward =>
        have at_ : (⟨(cellNumber c).toNat,bound⟩ : Cell) = c := Fin.ext (cellNumber_toNat c)
        simp only [at_] at member
        split at member
        · exact clusterStores_harmless (each c (by simp)) t member
        · rcases List.mem_append.mp member with first | later
          · exact clusterStores_harmless (each c (by simp)) t first
          · refine ih (fun b on => each b (List.mem_cons_of_mem _ on)) (onward.congr fun b on => ?_) t later
            rw [releaseState_map,if_neg]
            rintro rfl
            exact (List.nodup_cons.mp distinct).1 on
    · cases member

theorem delete_harmless {request : FAT32DriverRequest} {d : Cell} (dir : d ∈ v.dirs)
    (at_ : request.parent_cluster_number = cellNumber d) (clear : v.Clear request)
    (other : d = y.dir → ¬ (v.entry y).Named request.name request.ext) :
    ∀ t ∈ (FsAction.delete request).stores v.driver, Harmless v y t := by
  intro t member
  simp only [FsAction.stores] at member
  split at member
  · cases member
  rename_i i found
  rw [parent_table at_] at found
  have liveX : v.Live ⟨d,i⟩ := Clear.live dir at_ intact clear found
  have named := (findEntry_some.mp found).2.1
  have apart : y ≠ ⟨d,i⟩ := by
    rintro rfl
    exact other rfl named
  obtain ⟨c,rest,head,chain,_⟩ := intact.chained _ liveX
  have finish {fat : ClusterMap} (frame : ∀ ys, v.Chained y ys → ∀ b ∈ ys, fat b = v.driver.cluster_map b)
      (late : t ∈ clusterStores (directoryCodec.encode (deleteEntry (v.driver.directory request.parent_cluster_number) i))
        request.parent_cluster_number ++ fatStores fat) : Harmless v y t := by
    rcases List.mem_append.mp late with table | fat
    · refine clusterStores_harmless (fun q => ?_) t table
      rw [parent_table at_,at_]
      refine .parent intact live dir (fun j out => deleteEntry_other _ out) (fun here same => ?_) (fun here named => ?_) q
      · obtain ⟨dy,iy⟩ := y
        cases here
        cases same
        exact apart rfl
      · have gone := (deleteEntry_here (v.driver.table d) i).1
        exact intact.named y live ⟨named.1.symm.trans gone.1,named.2.symm.trans gone.2⟩
    · exact clusterStores_harmless (fun q => .fat frame) t fat
  have off {ys : List Cell} (chainY : v.Chained y ys) {b : Cell} (on : b ∈ ys) : b ∉ c :: rest := fun both =>
    apart (intact.apart y ⟨d,i⟩ ys (c :: rest) live liveX chainY chain b on both)
  have cluster : (v.driver.directory request.parent_cluster_number i).cluster = cellNumber c := by
    rw [parent_table at_]
    exact head
  split at member
  · rename_i folder
    split at member
    · cases member
    · rename_i empty
      split at member
      · rename_i bound
        have cell : (⟨_,bound⟩ : Cell) = c := Fin.ext ((congrArg BitVec.toNat cluster).trans (cellNumber_toNat c))
        simp only [cluster] at member empty
        rcases List.mem_append.mp member with first | late
        · refine clusterStores_harmless (fun q => .chain intact live liveX apart chain (by simp) ?_ _ q) t first
          rintro rfl
          rw [DriverState.directory_cell] at empty
          have childless : isEmptyDir (v.driver.table y.dir) = true := by simpa using empty
          exact isEmptyDir_iff.mp childless y.index live.1.2 live.2
        · refine finish (fun ys chainY b on => ?_) late
          rw [DriverState.setCell_map,Function.update_of_ne]
          intro same
          rw [same.trans (by simpa only [cluster] using cell)] at on
          exact off chainY on (by simp)
      · cases member
  · rename_i file
    have walk : FatChain v.driver (cellNumber c) (c :: rest) := by
      rw [← head]
      exact chain
    rw [cluster] at member
    rcases List.mem_append.mp member with first | late
    · refine deleteLoop_harmless (fun b on q => .chain intact live liveX apart chain on ?_ _ q) walk t first
      rintro rfl
      obtain ⟨named,_⟩ := intact.dir_on_chain liveX chain live.1.1 on
      rw [parent_table at_] at file
      exact file (intact.folder _ liveX _ live.1.1 named).1
    · have length := walk.length_le cells_pointers
      rw [Fintype.card_fin] at length
      obtain ⟨r,ran,released⟩ := deleteLoop_chain walkFuel walk (by
        simp only [List.length_cons] at length
        simp only [walkFuel]
        omega)
      rw [ran] at late
      exact finish (fun ys chainY b on => released.mapFrame b (off chainY on)) late

theorem stores_harmless {a : FsAction} (addressed : v.Addressed a.request) (clear : a.Clear v)
    (other : a.request.parent_cluster_number = cellNumber y.dir → ¬ (v.entry y).Named a.request.name a.request.ext) :
    ∀ t ∈ a.stores v.driver, Harmless v y t := by
  obtain ⟨d,dir,at_⟩ := addressed
  have other' : d = y.dir → ¬ (v.entry y).Named a.request.name a.request.ext := fun same => other (same ▸ at_)
  cases a with
  | write memory request => exact write_harmless intact live dir at_ other'
  | delete request => exact delete_harmless intact live dir at_ clear other'

end spared

-- The drive after the first `k` sectors that a request stores.
def FsAction.cutShort (s : DriverState) (a : FsAction) (k : Nat) : Disk := ((a.stores s).take k).foldl SectorStore.run s.disk

section runs
variable {s : DriverState} {v v' : Volume} {y : Place} {memory : Memory} {request : FAT32DriverRequest}

theorem Effect.undeleted {a : FsAction} {code : Int} (effect : Effect v a code v') (intact : Intact v) (live : v.Live y)
    (kept : ∀ other : FAT32DriverRequest, a = .delete other → code = 0 →
      ¬ (other.parent_cluster_number = cellNumber y.dir ∧ (v.entry y).Named other.name other.ext)) : Undisturbed v v' y := by
  cases effect with
  | refused => exact .refl live
  | folder _ wrote => exact wrote.inserted.undisturbed intact live
  | file _ wrote => exact wrote.inserted.undisturbed intact live
  | short _ wrote => exact wrote.inserted.undisturbed intact live
  | deleted deleted =>
    refine deleted.removed.undisturbed intact live ?_
    rintro rfl
    exact kept _ rfl rfl ⟨deleted.parent,(findEntry_some.mp deleted.found).2.1⟩

theorem Undisturbed.settled (h : Undisturbed v v' y) (intact : Intact v) (live : v.Live y) (settled : Settled v y)
    (same : v'.driver.cluster 1 = v.driver.cluster 1) : Settled v' y := by
  obtain ⟨c,rest,_,chain,_⟩ := intact.chained y live
  intro ys chain' b member
  obtain rfl : ys = c :: rest := chain'.unique cells_pointers (h.chain _ chain)
  unfold Volume.Chained at chain chain'
  rw [h.entry] at chain'
  rw [same,settled _ chain b member]
  exact chain.same_cells cells_pointers chain' member

-- What holds of an entry from its write on, until it is deleted.
structure Durable (n : FileName) (y : Place) (v : Volume) : Prop where
  intact : Intact v
  live : v.Live y
  name : (v.entry y).fileName = n
  signed : is_empty_storage v.driver = false
  settled : Settled v y

theorem Effect.signed {a : FsAction} {code : Int} (effect : Effect v a code v') (intact : Intact v)
    (signed : is_empty_storage v.driver = false) : is_empty_storage v'.driver = false := by
  rw [is_empty_storage_iff] at signed ⊢
  rw [effect.boot_kept intact]
  exact signed

theorem Answered.effect {a : FsAction} {code : Int} (intact : Intact v) (step : v.Answered (a,code) v') : Effect v a code v' := by
  obtain ⟨clear,addressed,ran⟩ := step
  have clear' : a.Clear v := by
    cases a with
    | write => trivial
    | delete => exact clear
  obtain ⟨code',v'',ran',effect⟩ := request_effect intact a addressed clear'
  cases ran.symm.trans ran'
  exact effect

theorem Durable.step {n : FileName} {a : FsAction × Int} (durable : Durable n y v) (step : v.Answered a v')
    (kept : ∀ other : FAT32DriverRequest, a = (.delete other,0) →
      ¬ (other.parent_cluster_number = cellNumber y.dir ∧ other.fileName = n)) : Durable n y v' := by
  obtain ⟨action,code⟩ := a
  have effect := Answered.effect durable.intact step
  have undisturbed := effect.undeleted durable.intact durable.live fun other same zero named => by
    refine kept other (Prod.ext same zero) ⟨named.1,?_⟩
    rw [← durable.name]
    exact Prod.ext named.2.1.symm named.2.2.symm
  refine ⟨effect.intact durable.intact,undisturbed.live,?_,effect.signed durable.intact durable.signed,?_⟩
  · rw [undisturbed.entry]
    exact durable.name
  · cases effect with
    | refused => exact durable.settled
    | folder _ _ _ stored => exact settled_of_stored stored
    | file _ _ _ _ _ stored => exact settled_of_stored stored
    | short _ _ _ _ _ same => exact undisturbed.settled durable.intact durable.live durable.settled same
    | deleted _ stored => exact settled_of_stored stored

theorem Spares.readsSubmitted {disk : Disk} (durable : Durable request.fileName y v) (spares : Spares v y disk)
    (parent : request.parent_cluster_number = cellNumber y.dir) (reads : ReadsSubmitted v.driver memory request)
    (map : ClusterMap) : is_empty_storage ⟨disk,map⟩ = false ∧
      ReadsSubmitted (initialize_filesystem_fat32 ⟨disk,map⟩) memory request := by
  have named : (v.entry y).Named request.name request.ext := Prod.ext_iff.mp durable.name
  have again (reader : Memory) (buf buffer_size : Word) :=
    @Spares.read v y disk durable.intact durable.live spares durable.signed
      {request with buf := buf, buffer_size := buffer_size} parent named map reader
  refine ⟨(again blankMemory 0 0).1,fun reader buf buffer_size => ?_⟩
  rw [(again reader buf buffer_size).2]
  exact reads reader buf buffer_size

theorem Run.signed {history : List (Transition Volume (FsAction × Int))} (run : Run Volume.Answered (formatted s) history v) :
    Intact v ∧ is_empty_storage v.driver = false := by
  refine @Run.invariant _ _ _ _ _ _ (fun w => Intact w ∧ is_empty_storage w.driver = false)
    ⟨formatted_intact s,create_fat32_signed s⟩ (fun w b w' held step => ?_) run
  obtain ⟨action,code⟩ := b
  have effect := Answered.effect held.1 step
  exact ⟨effect.intact held.1,effect.signed held.1 held.2⟩

-- Power may go after any sector of a later request: the next boot does not format the
-- drive, and it reads what the write reported as stored.
theorem written_survives_power_cut {front back : List (Transition Volume (FsAction × Int))} {before after : Volume}
    {a : FsAction} (run : Run Volume.Answered (formatted s) (front ++ ⟨before,(.write memory request,0),after⟩ :: back) v)
    (data : request.buffer_size ≠ 0)
    (whole : ∀ t ∈ front, ∀ other : FAT32DriverRequest, t.action = (.delete other,0) →
      other.parent_cluster_number = request.parent_cluster_number → t.after.dirs = t.before.dirs)
    (kept : ∀ t ∈ back, ∀ other : FAT32DriverRequest, t.action = (.delete other,0) →
      ¬ (other.parent_cluster_number = request.parent_cluster_number ∧ other.name = request.name ∧ other.ext = request.ext))
    (clear : a.Clear v) (addressed : v.Addressed a.request)
    (other : ¬ (a.request.parent_cluster_number = request.parent_cluster_number ∧ a.request.name = request.name ∧
      a.request.ext = request.ext)) (k : Nat) (map : ClusterMap) :
    (∃ code s', a.respond v.driver = some (code,s') ∧ a.cutShort v.driver (a.stores v.driver).length = s'.disk) ∧
      is_empty_storage ⟨a.cutShort v.driver k,map⟩ = false ∧
      ReadsSubmitted (initialize_filesystem_fat32 ⟨a.cutShort v.driver k,map⟩) memory request := by
  obtain ⟨named,last,d,refines,parent,there⟩ := written_held run data whole kept
  have reads := (refines.reads named parent there).2
  obtain ⟨middle,run₁,later⟩ := run.split
  obtain ⟨rfl,written,run₂⟩ := later.uncons
  simp only at run₁ written run₂
  have begun := Run.signed run₁
  obtain ⟨y,durable,at_⟩ : ∃ y, Durable request.fileName y after ∧ request.parent_cluster_number = cellNumber y.dir := by
    have effect := Answered.effect begun.1 written
    have signed := effect.signed begun.1 begun.2
    have intact := effect.intact begun.1
    cases effect with
    | refused failed => exact absurd rfl failed
    | folder empty => exact absurd empty data
    | @file _ _ _ e i c rest _ wrote _ _ _ stored =>
      refine ⟨⟨e,i⟩,⟨intact,wrote.inserted.live_new,?_,signed,settled_of_stored stored⟩,wrote.parent⟩
      rw [wrote.entry,addEntry_here]
      rfl
  have onward : Run (fun (w : Volume) (b : FsAction × Int) (w' : Volume) => w.Answered b w' ∧
      ∀ other : FAT32DriverRequest, b = (.delete other,0) → ¬ (other.parent_cluster_number = request.parent_cluster_number ∧
        other.name = request.name ∧ other.ext = request.ext)) after back v := run₂.restrict fun t member => kept t member
  have ended : Durable request.fileName y v := by
    refine onward.invariant durable fun w b w' held step => held.step step.1 fun other same both => ?_
    exact step.2 other same ⟨both.1.trans at_.symm,Prod.ext_iff.mp both.2⟩
  have named' : (v.entry y).Named request.name request.ext := Prod.ext_iff.mp ended.name
  have harmless := stores_harmless ended.intact ended.live addressed clear fun same both =>
    other ⟨same.trans at_.symm,both.1.symm.trans named'.1,both.2.symm.trans named'.2⟩
  have spares := (Spares.here ended.intact ended.live ended.settled).cut ended.intact ended.live harmless k
  obtain ⟨code,v',ran,_⟩ := request_effect ended.intact a addressed clear
  refine ⟨⟨code,v'.driver,respond_driver ran,?_⟩,spares.readsSubmitted ended at_ reads map⟩
  rw [FsAction.cutShort,List.take_length]
  exact stores_run (respond_driver ran)

end runs

-- Power goes after the parent's table and one sector of another file's data.
theorem written_survives_power_cut_early : ∃ before v,
    Run Volume.Answered (formatted blankDrive) [⟨before,(.write blankMemory (rootRequest 'A' 1),0),v⟩] v ∧
    let a := FsAction.write blankMemory (rootRequest 'B' 1)
    (∃ code s', a.respond v.driver = some (code,s') ∧ a.cutShort v.driver (a.stores v.driver).length = s'.disk) ∧
      is_empty_storage ⟨a.cutShort v.driver 5,formatMap⟩ = false ∧
      ReadsSubmitted (initialize_filesystem_fat32 ⟨a.cutShort v.driver 5,formatMap⟩) blankMemory (rootRequest 'A' 1) := by
  obtain ⟨v,first,intact⟩ := letter_written
  have run := Run.single first
  refine ⟨_,v,run,@written_survives_power_cut blankDrive v blankMemory (rootRequest 'A' 1) [] [] _ v
    (.write blankMemory (rootRequest 'B' 1)) run (by decide) (by simp) (by simp) trivial ⟨2,intact.root,rfl⟩ ?_ 5 formatMap⟩
  rintro ⟨-,name,-⟩
  exact absurd (congrFun name 0) (by decide)

end Sosis.Fat32
