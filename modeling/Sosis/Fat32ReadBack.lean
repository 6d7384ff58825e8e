import Sosis.Fat32AnyName

-- A read that follows a successful write of data.
namespace Sosis.Fat32
open ByteRecords LinkedCells TransitionRuns

-- Whatever buffer of enough size the reader offers, it receives the bytes written.
def ReadsBack (s : DriverState) (memory : Memory) (request : FAT32DriverRequest) : Prop :=
  ∀ (reader : Memory) (buf buffer_size : Word), request.buffer_size ≤ buffer_size →
    ∃ filled, read s reader {request with buf := buf, buffer_size := buffer_size} = some (0,filled) ∧
      ∀ k < request.buffer_size.toNat, filled.at buf k = memory.at request.buf k

section wrote
variable {v v' : Volume} {memory : Memory} {request : FAT32DriverRequest} {d c : Cell}
  {i : Fin DIRECTORY_ENTRY_COUNT} {rest : List Cell}

theorem Wrote.attr_after (h : Wrote v v' memory request d i c rest) (data : request.buffer_size ≠ 0) :
    (v'.driver.table d i).attr = (v.driver.table d i).attr := by
  have entry := h.entry
  unfold Volume.entry at entry
  rw [entry,addEntry_here]
  exact if_neg data

-- The new entry is the one the reader finds, with the size just written and with
-- the attribute its slot had before.
theorem Wrote.read_after (h : Wrote v v' memory request d i c rest) (data : request.buffer_size ≠ 0)
    (reader : Memory) (buf buffer_size : Word) (enough : request.buffer_size ≤ buffer_size) :
    read v'.driver reader {request with buf := buf, buffer_size := buffer_size} = some (
      if (v.driver.table d i).attr = ATTR_SUBDIRECTORY then (1,reader)
      else (0,storeClusters v'.driver reader buf (c :: rest))) := by
  have table : v'.driver.directory request.parent_cluster_number = v'.driver.table d := parent_table h.parent
  have entry := h.entry
  unfold Volume.entry at entry
  have size : (v'.driver.table d i).filesize = request.buffer_size := by rw [entry,addEntry_here]
  have chain : FatChain v'.driver (v'.driver.table d i).cluster (c :: rest) := h.inserted.chain
  have found := h.found_after
  rw [← table] at found chain
  rw [read_found v'.driver {request with buf := buf, buffer_size := buffer_size} found chain reader]
  simp only [table,size,h.attr_after data,if_neg (BitVec.not_lt.mpr enough)]

theorem Wrote.bytes_after (h : Wrote v v' memory request d i c rest) (data : request.buffer_size ≠ 0)
    (complete : (c :: rest).length = ceil request.buffer_size.toNat) (reader : Memory) (buf : Word) {k : Nat}
    (inside : k < request.buffer_size.toNat) :
    (storeClusters v'.driver reader buf (c :: rest)).at buf k = memory.at request.buf k := by
  rw [ceil_eq] at complete
  have place : k / CLUSTER_SIZE < (c :: rest).length := by
    rw [complete]
    simp only [CLUSTER_SIZE]
    omega
  rw [storeClusters_at h.inserted.chain _ _ (Nat.lt_trans inside request.buffer_size.isLt),dif_pos place,
    h.stored data _ place]
  have within : k % CLUSTER_SIZE < CLUSTER_SIZE := Nat.mod_lt _ (by decide)
  simp only [clip,if_pos within,drop_apply]
  rw [Nat.mul_comm,Nat.div_add_mod]

theorem Wrote.readsBack_exact (h : Wrote v v' memory request d i c rest) (data : request.buffer_size ≠ 0)
    (complete : (c :: rest).length = ceil request.buffer_size.toNat) :
    ReadsBack v'.driver memory request ↔ (v.driver.table d i).attr ≠ ATTR_SUBDIRECTORY := by
  constructor
  · intro back folder
    obtain ⟨filled,ran,_⟩ := back memory request.buf request.buffer_size (BitVec.le_refl _)
    rw [h.read_after data memory _ _ (BitVec.le_refl _),if_pos folder] at ran
    cases ran
  · intro file reader buf buffer_size enough
    refine ⟨_,?_,fun k inside => h.bytes_after data complete reader buf inside⟩
    rw [h.read_after data reader buf buffer_size enough,if_neg file]

end wrote

theorem readsBack_iff {s s' : DriverState} {history : List (Transition Volume FsAction)} {v : Volume} {memory : Memory}
    {request : FAT32DriverRequest} (run : Run Volume.AddressedStep (formatted s) history v)
    (addressed : v.Addressed request) (data : request.buffer_size ≠ 0)
    (written : write v.driver memory request = some (0,s')) :
    ReadsBack s' memory request ↔
      ∀ i, findIdxEmptyEntry (v.driver.directory request.parent_cluster_number) = some i →
        (v.driver.directory request.parent_cluster_number i).attr ≠ ATTR_SUBDIRECTORY := by
  obtain ⟨d,dir,parent⟩ := addressed
  obtain ⟨code,v',ran,effect⟩ := write_effect parent dir (Run.sound run).steady memory
  obtain ⟨⟨code',s''⟩,responded,same⟩ := Option.map_eq_some_iff.mp ran
  rw [show (FsAction.write memory request).respond v.driver = some (0,s') from written] at responded
  cases responded
  obtain ⟨rfl,volume⟩ := Prod.mk.inj same
  obtain rfl : v'.driver = s' := congrArg Volume.driver volume.symm
  cases effect with
  | refused failed => exact absurd rfl failed
  | folder empty => exact absurd empty data
  | @file _ _ _ d' i c rest _ wrote _ complete =>
    rw [wrote.readsBack_exact data complete,parent_table wrote.parent]
    have slot := wrote.writable.vacant
    rw [parent_table wrote.parent] at slot
    constructor
    · intro file j at_
      rw [slot] at at_
      cases at_
      exact file
    · exact fun file => file i slot

theorem readsBack_iff_fresh : ∃ s', write (formatted blankDrive).driver blankMemory (rootRequest 'A' 1) = some (0,s') ∧
    (ReadsBack s' blankMemory (rootRequest 'A' 1) ↔
      ∀ i, findIdxEmptyEntry ((formatted blankDrive).driver.directory ROOT_CLUSTER_NUMBER) = some i →
        ((formatted blankDrive).driver.directory ROOT_CLUSTER_NUMBER i).attr ≠ ATTR_SUBDIRECTORY) := by
  have code : (write (create_fat32 blankDrive) blankMemory (rootRequest 'A' 1)).map Prod.fst = some 0 := by decide +kernel
  obtain ⟨⟨_,s'⟩,written,rfl⟩ := Option.map_eq_some_iff.mp code
  exact ⟨s',written,readsBack_iff .nil ⟨2,rfl,rfl⟩ (by decide) written⟩

theorem vacatedSlot_unreadable : ∃ history v s', Run Volume.AddressedStep (formatted blankDrive) history v ∧
    history.map Transition.action = vacatedSlot ∧ v.Addressed (rootRequest 'B' 1) ∧
    write v.driver blankMemory (rootRequest 'B' 1) = some (0,s') ∧ ¬ ReadsBack s' blankMemory (rootRequest 'B' 1) := by
  obtain ⟨history,v,run,actions,replayed⟩ := rootRun (formatted_intact blankDrive) vacatedSlot vacatedSlot_named
  have intact := Run.intact (run.mono fun _ _ _ => NamedStep.clear)
  have answers : (replay (create_fat32 blankDrive) vacatedSlot).any (fun s =>
      (write s blankMemory (rootRequest 'B' 1)).any fun wrote =>
        wrote.1 == 0 && (read wrote.2 blankMemory (rootRequest 'B' 1)).any fun result => result.1 == 1) = true := by
    decide +kernel
  rw [show replay (create_fat32 blankDrive) vacatedSlot = some v.driver from replayed,Option.any_some] at answers
  cases written : write v.driver blankMemory (rootRequest 'B' 1) with
  | none =>
    rw [written] at answers
    cases answers
  | some result =>
    obtain ⟨code,s'⟩ := result
    rw [written] at answers
    simp only [Option.any_some,Bool.and_eq_true,beq_iff_eq] at answers
    obtain ⟨rfl,answer⟩ := answers
    refine ⟨history,v,s',run.mono fun _ _ _ step => step.2,actions,⟨2,intact.root,rfl⟩,written,fun back => ?_⟩
    obtain ⟨filled,ran,_⟩ := back blankMemory 0 1 (by decide)
    rw [show read s' blankMemory (rootRequest 'B' 1) = some (0,filled) from ran] at answer
    simp at answer

end Sosis.Fat32
