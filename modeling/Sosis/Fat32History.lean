import Sosis.Fat32Volume
import Sosis.TransitionRuns

-- Histories of write and delete requests. Which clusters are directories is read
-- off the history: a successful write of size 0 makes one, a successful delete of
-- the entry that names it ends it.
namespace Sosis.Fat32
open ByteRecords LinkedCells TransitionRuns

inductive FsAction where
  | write (memory : Memory) (request : FAT32DriverRequest)
  | delete (request : FAT32DriverRequest)

def FsAction.request : FsAction → FAT32DriverRequest
  | .write _ request => request
  | .delete request => request

def FsAction.respond (s : DriverState) : FsAction → Option (Int × DriverState)
  | .write memory request => Fat32.write s memory request
  | .delete request => Fat32.delete s request

def replay (s : DriverState) : List FsAction → Option DriverState
  | [] => some s
  | a :: rest => (a.respond s).bind fun (_,s) => replay s rest

-- findCluster names the cluster of the request's entry: after a write the one it
-- created, before a delete the one it is about to remove.
def FsAction.directories (v : Volume) (code : Int) (s : DriverState) : FsAction → Set Cell
  | .write _ request =>
    if code = 0 ∧ request.buffer_size = 0 then {d | d ∈ v.dirs ∨ cellNumber d = findCluster s request} else v.dirs
  | .delete request =>
    if code = 0 then {d | d ∈ v.dirs ∧ cellNumber d ≠ findCluster v.driver request} else v.dirs

def Volume.respond (v : Volume) (a : FsAction) : Option (Int × Volume) :=
  (a.respond v.driver).map fun (code,s) => (code,⟨s,a.directories v code s⟩)

def Volume.Step (v : Volume) (a : FsAction) (v' : Volume) : Prop := ∃ code, v.respond a = some (code,v')

def FAT32DriverRequest.Named (request : FAT32DriverRequest) : Prop :=
  ¬ (request.name = (fun _ => 0) ∧ request.ext = fun _ => 0)

def Volume.Addressed (v : Volume) (request : FAT32DriverRequest) : Prop :=
  ∃ d ∈ v.dirs, request.parent_cluster_number = cellNumber d

-- No dead slot of the parent carries the requested name: dead slots are zeroed, so
-- this only ever concerns a name and ext that are all zero. A write then reports that
-- the entry exists and stores nothing; a delete goes on.
def Volume.Clear (v : Volume) (request : FAT32DriverRequest) : Prop :=
  request.Named ∨ ∀ d ∈ v.dirs, request.parent_cluster_number = cellNumber d →
    ∀ i : Fin DIRECTORY_ENTRY_COUNT, 2 ≤ i.val → v.Live ⟨d,i⟩

def FsAction.Clear (v : Volume) : FsAction → Prop
  | .write .. => True
  | .delete request => v.Clear request

def Volume.AddressedStep (v : Volume) (a : FsAction) (v' : Volume) : Prop := v.Addressed a.request ∧ v.Step a v'
def Volume.ClearStep (v : Volume) (a : FsAction) (v' : Volume) : Prop := a.Clear v ∧ v.AddressedStep a v'
def Volume.NamedStep (v : Volume) (a : FsAction) (v' : Volume) : Prop := a.request.Named ∧ v.AddressedStep a v'

theorem FsAction.clear_of_named {v : Volume} {a : FsAction} (named : a.request.Named) : a.Clear v := by
  cases a with
  | write => trivial
  | delete => exact Or.inl named

theorem NamedStep.clear {v v' : Volume} {a : FsAction} (step : v.NamedStep a v') : v.ClearStep a v' :=
  ⟨FsAction.clear_of_named step.1,step.2⟩

-- The state after formatting, whatever the drive held before.
def formatted (s : DriverState) : Volume := ⟨create_fat32 s,{2}⟩

theorem formatted_map (s : DriverState) : (formatted s).driver.cluster_map = formatMap := rfl

theorem formatted_root (s : DriverState) : (formatted s).driver.table 2 = rootTable := by
  unfold formatted create_fat32
  rw [DriverState.writeDirectory_table]
  rfl

theorem rootTable_header : (rootTable 0).attr = ATTR_SUBDIRECTORY := rfl

theorem init_directory_table_slot (name : Name) (parent : Word) {i : Fin DIRECTORY_ENTRY_COUNT} (low : 2 ≤ i.val) :
    init_directory_table zeroTable name parent i = .zero := by
  have notZero : i ≠ 0 := by rintro rfl; simp at low
  have notOne : i ≠ 1 := by rintro rfl; simp at low
  rw [init_directory_table,if_neg notZero,if_neg notOne]
  rfl

theorem rootTable_slot {i : Fin DIRECTORY_ENTRY_COUNT} (low : 2 ≤ i.val) : rootTable i = .zero := by
  have notZero : i ≠ 0 := by rintro rfl; simp at low
  unfold rootTable
  simp only [Function.update_of_ne notZero]
  exact init_directory_table_slot _ _ low

theorem formatted_slot (s : DriverState) {x : Place} (holds : (formatted s).Holds x) : (formatted s).entry x = .zero := by
  have dir : x.dir = 2 := holds.1
  unfold Volume.entry
  rw [dir]
  exact (congrFun (formatted_root s) x.index).trans (rootTable_slot holds.2)

theorem formatted_dead (s : DriverState) (x : Place) : ¬ (formatted s).Live x := by
  intro live
  have used := live.2
  rw [formatted_slot s live.1] at used
  exact zero_vacant used

theorem formatted_intact (s : DriverState) : Intact (formatted s) where
  cell0 := rfl
  cell1 := rfl
  cell2 := rfl
  root := rfl
  range := by rintro d rfl; decide
  header := by
    rintro d rfl
    exact (congrArg DirectoryEntry.attr (congrFun (formatted_root s) 0)).trans rootTable_header
  single := by rintro d rfl; rfl
  owned := by rintro d rfl other; exact absurd rfl other
  folder x live := absurd live (formatted_dead s x)
  dead x holds _ := by rw [formatted_slot s holds]; exact zero_unnamed
  named x live := absurd live (formatted_dead s x)
  unique x _ live := absurd live (formatted_dead s x)
  chained x live := absurd live (formatted_dead s x)
  apart x _ _ _ live := absurd live (formatted_dead s x)

-- The inputs of the concrete runs below.
def blankDrive : DriverState := ⟨fun _ => 0,fun _ => 0⟩
def blankMemory : Memory := fun _ => 0

def rootRequest (letter : Char) (buffer_size : Word) : FAT32DriverRequest where
  buf := 0
  name i := if i.val = 0 then BitVec.ofNat 8 letter.toNat else 0
  ext _ := 0
  parent_cluster_number := ROOT_CLUSTER_NUMBER
  buffer_size := buffer_size

theorem rootRequest_named (letter : Char) (buffer_size : Word) (visible : BitVec.ofNat 8 letter.toNat ≠ 0) :
    (rootRequest letter buffer_size).Named := fun unnamed => visible (congrFun unnamed.1 0)

-- What a write that passes the early checks leaves behind, in every case.
structure Wrote (v v' : Volume) (memory : Memory) (request : FAT32DriverRequest) (d : Cell)
    (i : Fin DIRECTORY_ENTRY_COUNT) (c : Cell) (rest : List Cell) : Prop where
  directory : d ∈ v.dirs
  parent : request.parent_cluster_number = cellNumber d
  writable : Writable v.driver request i c
  inserted : Inserted v v' ⟨d,i⟩ (c :: rest)
  taken : ∀ b ∈ c :: rest, v'.driver.cluster_map b ≠ 0
  entry : v'.entry ⟨d,i⟩ = addEntry (v.driver.table d) request i (cellNumber c) i
  stored : request.buffer_size ≠ 0 → ∀ (j : Nat) (bound : j < (c :: rest).length),
    v'.driver.cluster (c :: rest)[j] = clip (drop (memory.at request.buf) (j*CLUSTER_SIZE))

structure Deleted (v v' : Volume) (request : FAT32DriverRequest) (d : Cell) (i : Fin DIRECTORY_ENTRY_COUNT)
    (c : Cell) (rest gone : List Cell) : Prop where
  directory : d ∈ v.dirs
  parent : request.parent_cluster_number = cellNumber d
  found : findEntry (v.driver.table d) request.name request.ext = some i
  cluster : (v.entry ⟨d,i⟩).cluster = cellNumber c
  removed : Removed v v' ⟨d,i⟩ (c :: rest) gone
  released : gone = if (v.entry ⟨d,i⟩).attr = ATTR_SUBDIRECTORY then [c] else c :: rest
  childless : (v.entry ⟨d,i⟩).attr = ATTR_SUBDIRECTORY → isEmptyDir (v.driver.table c) = true

def fatBytes (fat : ClusterMap) : Bytes := clip (clusterMapCodec.encode fat)

-- The request fails a check that the source makes before it stores anything.
def FsAction.Refused (s : DriverState) : FsAction → Prop
  | .write _ request => ∀ i c, ¬ Writable s request i c
  | .delete request => ∀ i, findEntry (s.directory request.parent_cluster_number) request.name request.ext = some i →
      (s.directory request.parent_cluster_number i).attr = ATTR_SUBDIRECTORY ∧
        isEmptyDir (s.directory (s.directory request.parent_cluster_number i).cluster) = false

-- A write that passes the early checks but whose data needs more clusters than are
-- free: its copy loop ends in the early return.
def FsAction.RunsOut (s : DriverState) : FsAction → Prop
  | .write _ request => request.buffer_size ≠ 0 ∧ (∃ i c, Writable s request i c) ∧
      (freeCells s.cluster_map).card < ceil request.buffer_size.toNat
  | .delete _ => False

-- A delete that takes an entry longer than a cluster for an empty directory.
def FsAction.CutsTail (s : DriverState) : FsAction → Prop
  | .write .. => False
  | .delete request => ∃ i, findEntry (s.directory request.parent_cluster_number) request.name request.ext = some i ∧
      (s.directory request.parent_cluster_number i).attr = ATTR_SUBDIRECTORY ∧
      isEmptyDir (s.directory (s.directory request.parent_cluster_number i).cluster) = true ∧
      CLUSTER_SIZE < (s.directory request.parent_cluster_number i).filesize.toNat

instance (s : DriverState) (a : FsAction) : Decidable (a.CutsTail s) := by
  cases a <;> unfold FsAction.CutsTail <;> infer_instance

-- The five ways a request on an intact volume can end. The FAT on the drive is
-- written last, and not at all in `short`.
inductive Effect (v : Volume) : FsAction → Int → Volume → Prop where
  | refused : code ≠ 0 → a.Refused v.driver → Effect v a code v
  | folder {v' memory request d i c} : request.buffer_size = 0 → Wrote v v' memory request d i c [] →
      v'.dirs = insert c v.dirs → v'.driver.cluster 1 = fatBytes v'.driver.cluster_map →
      Effect v (.write memory request) 0 v'
  | file {v' memory request d i c rest} : request.buffer_size ≠ 0 → Wrote v v' memory request d i c rest → v'.dirs = v.dirs →
      (c :: rest).length = ceil request.buffer_size.toNat →
      ceil request.buffer_size.toNat ≤ (freeCells v.driver.cluster_map).card →
      v'.driver.cluster 1 = fatBytes v'.driver.cluster_map → Effect v (.write memory request) 0 v'
  | short {v' memory request d i c rest} : request.buffer_size ≠ 0 → Wrote v v' memory request d i c rest → v'.dirs = v.dirs →
      (c :: rest).length < ceil request.buffer_size.toNat →
      (freeCells v.driver.cluster_map).card < ceil request.buffer_size.toNat →
      v'.driver.cluster 1 = v.driver.cluster 1 → Effect v (.write memory request) (-1) v'
  | deleted {v' request d i c rest gone} : Deleted v v' request d i c rest gone →
      v'.driver.cluster 1 = fatBytes v'.driver.cluster_map → Effect v (.delete request) 0 v'

end Sosis.Fat32
