import Sosis.Fat32Effects

-- Requests whose parent is any cluster at all: what makes the driver take it for a
-- directory is nothing but the bytes that lie there.
namespace Sosis.Fat32
open ByteRecords FirstFit TransitionRuns

-- The bytes of the parent cluster, as write and delete load them.
def parentBytes (s : DriverState) (request : FAT32DriverRequest) : Bytes :=
  read_clusters s.disk request.parent_cluster_number 1

-- Byte 11 is the attribute of slot 0 in a directory.
def Marked (s : DriverState) (request : FAT32DriverRequest) : Prop := parentBytes s request 11 = ATTR_SUBDIRECTORY

-- From byte 64 on, some 32 bytes begin with the name and the ext.
def Spelled (s : DriverState) (request : FAT32DriverRequest) : Prop :=
  ∃ i : Fin DIRECTORY_ENTRY_COUNT, 2 ≤ i.val ∧ (∀ j, parentBytes s request (i.val*32 + j.val) = request.name j) ∧
    ∀ j, parentBytes s request (i.val*32 + (8+j.val)) = request.ext j

def WriteRefused (s : DriverState) (request : FAT32DriverRequest) : Prop := ∀ memory, write s memory request = some (2,s)
def DeleteRefused (s : DriverState) (request : FAT32DriverRequest) : Prop := delete s request = some (1,s)

instance (s : DriverState) (request : FAT32DriverRequest) : Decidable (Marked s request) :=
  inferInstanceAs (Decidable (_ = _))

instance (s : DriverState) (request : FAT32DriverRequest) : Decidable (Spelled s request) :=
  inferInstanceAs (Decidable (∃ _, _))

variable {s s' : DriverState} {request : FAT32DriverRequest}

theorem marked_iff : Marked s request ↔ (s.directory request.parent_cluster_number 0).attr = ATTR_SUBDIRECTORY := by
  unfold Marked parentBytes
  rfl

theorem spelled_iff : Spelled s request ↔
    ∃ i, findEntry (s.directory request.parent_cluster_number) request.name request.ext = some i := by
  rw [← Option.ne_none_iff_exists',Ne,findEntry_none]
  constructor
  · rintro ⟨i,low,name,ext⟩ absent
    exact absent i low ⟨funext name,funext ext⟩
  · intro present
    by_contra unspelled
    exact present fun i low named => unspelled ⟨i,low,congrFun named.1,congrFun named.2⟩

-- A write that passes the first check never answers 2.
theorem write_code (directory : (s.directory request.parent_cluster_number 0).attr = ATTR_SUBDIRECTORY) (memory : Memory) :
    write s memory request ≠ some (2,s') := by
  intro answer
  by_cases writable : ∃ i c, Writable s request i c
  · obtain ⟨i,c,writable⟩ := writable
    by_cases folder : request.buffer_size = 0
    · rw [writable.write_folder memory folder] at answer
      cases answer
    · obtain ⟨_,_,_,complete,short⟩ := writable.write_file memory folder
      rcases Nat.lt_or_ge (freeCells s.cluster_map).card (ceil request.buffer_size.toNat) with few | enough
      · rw [(short few).2] at answer
        cases answer
      · rw [(complete enough).2] at answer
        cases answer
  · cases absent : findEntry (s.directory request.parent_cluster_number) request.name request.ext with
    | some i => simp [write,directory,absent] at answer
    | none =>
      cases vacant : findIdxEmptyEntry (s.directory request.parent_cluster_number) with
      | none => simp [write,directory,absent,vacant] at answer
      | some i =>
        cases room : findEmptySpace s.cluster_map with
        | none => simp [write,directory,absent,vacant,room] at answer
        | some c => exact writable ⟨i,c,directory,absent,vacant,room⟩

theorem writeRefused_iff : WriteRefused s request ↔ ¬ Marked s request := by
  rw [marked_iff]
  constructor
  · exact fun refused directory => write_code directory (fun _ => 0) (refused _)
  · intro other memory
    simp [write,other]

-- A delete that finds an entry never answers 1, if it returns.
theorem deleteRefused_iff : DeleteRefused s request ↔ ¬ Spelled s request := by
  rw [spelled_iff]
  constructor
  · rintro refused ⟨i,found⟩
    simp only [DeleteRefused,delete,found] at refused
    split at refused
    · split at refused
      · cases refused
      · split at refused <;> cases refused
    · obtain ⟨_,_,same⟩ := Option.map_eq_some_iff.mp refused
      cases same
  · intro unspelled
    refine delete_absent ?_
    by_contra present
    exact unspelled (Option.ne_none_iff_exists'.mp present)

-- On any state of the drive, so in particular on every state a history reaches.
theorem strangers_refused_iff (s : DriverState) (request : FAT32DriverRequest) :
    (WriteRefused s request ↔ ¬ Marked s request) ∧ (DeleteRefused s request ↔ ¬ Spelled s request) :=
  ⟨writeRefused_iff,deleteRefused_iff⟩

-- A file of the root whose bytes look like a directory: byte 11 is the attribute, and
-- slot 2 is an entry X that starts at cluster 2, the root itself.
def posingMemory : Memory := fun a =>
  if a = 11 then ATTR_SUBDIRECTORY else if a = 64 then BitVec.ofNat 8 'X'.toNat else if a = 90 then 2 else 0

def posingFile : FsAction := .write posingMemory (rootRequest 'F' 2048)

-- Its first cluster is 3.
def strangerRequest (letter : Char) : FAT32DriverRequest := {rootRequest letter 1 with parent_cluster_number := 3}

-- A write stores its entry in the file's data, and a delete frees the root directory.
theorem posing_obeyed : ∃ history v, Run Volume.NamedStep (formatted blankDrive) history v ∧
    history.map Transition.action = [posingFile] ∧ (∀ letter, ¬ v.Addressed (strangerRequest letter)) ∧
    ¬ WriteRefused v.driver (strangerRequest 'Y') ∧ ¬ DeleteRefused v.driver (strangerRequest 'X') ∧
    (delete v.driver (strangerRequest 'X')).any (fun r => r.1 == 0 && r.2.cluster_map 2 == 0) = true := by
  have named : posingFile.request.Named := rootRequest_named 'F' 2048 (by decide)
  have addressed : (formatted blankDrive).Addressed posingFile.request := ⟨2,rfl,rfl⟩
  obtain ⟨code,v,ran,_⟩ := request_effect (formatted_intact blankDrive) posingFile addressed
    (FsAction.clear_of_named named)
  have step : (formatted blankDrive).NamedStep posingFile v := ⟨named,addressed,code,ran⟩
  obtain ⟨⟨code',s⟩,stored,same⟩ := Option.map_eq_some_iff.mp ran
  cases same
  have dirs : posingFile.directories (formatted blankDrive) code s = {2} :=
    if_neg fun both => absurd both.2 (by decide)
  have posing : (posingFile.respond (create_fat32 blankDrive)).any (fun r => Marked r.2 (strangerRequest 'Y') ∧
      Spelled r.2 (strangerRequest 'X') ∧
      (delete r.2 (strangerRequest 'X')).any (fun r => r.1 == 0 && r.2.cluster_map 2 == 0) = true) = true := by
    decide +kernel
  rw [show posingFile.respond (create_fat32 blankDrive) = some (code,s) from stored,Option.any_some,
    decide_eq_true_eq] at posing
  refine ⟨_,_,.single step,rfl,?_,fun refused => writeRefused_iff.mp refused posing.1,
    fun refused => deleteRefused_iff.mp refused posing.2.1,posing.2.2⟩
  rintro letter ⟨d,dir,parent⟩
  rw [dirs,Set.mem_singleton_iff] at dir
  rw [dir] at parent
  exact absurd parent (show (3 : Word) ≠ cellNumber 2 by decide)

end Sosis.Fat32
