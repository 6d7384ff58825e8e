import Mathlib.Tactic.Common
import Sosis.Fat32Driver
import Sosis.LinkedCells

-- One specification for each primitive of the driver: what a search finds, and
-- what a cluster of the drive holds after a cluster write. Nothing above this
-- module looks at byte addresses again.
namespace Sosis.Fat32
open ByteRecords FirstFit LinkedCells

theorem memcmp_eq_zero {n : Nat} (s1 s2 : Fin n → Byte) : memcmp s1 s2 = 0 ↔ s1 = s2 := by
  induction n with
  | zero => simp only [memcmp,true_iff]; funext i; exact i.elim0
  | succ n ih =>
    unfold memcmp
    split
    · rename_i less
      simp only [Int.reduceNeg,neg_eq_zero,one_ne_zero,false_iff]
      rintro rfl
      exact absurd less (BitVec.lt_irrefl _)
    · rename_i notLess
      split
      · rename_i less
        simp only [one_ne_zero,false_iff]
        rintro rfl
        exact absurd less (BitVec.lt_irrefl _)
      · rename_i notMore
        have head : s1 0 = s2 0 := BitVec.le_antisymm (BitVec.not_lt.mp notMore) (BitVec.not_lt.mp notLess)
        rw [ih]
        constructor
        · intro tail
          funext i
          refine Fin.cases head (fun j => congrFun tail j) i
        · rintro rfl; rfl

-- A slot carries a name when both memcmp calls of findEntry succeed.
def DirectoryEntry.Named (e : DirectoryEntry) (name : Name) (ext : Ext) : Prop := e.name = name ∧ e.ext = ext

instance (e : DirectoryEntry) (name : Name) (ext : Ext) : Decidable (e.Named name ext) :=
  inferInstanceAs (Decidable (e.name = name ∧ e.ext = ext))

theorem findEntry_some {t : DirectoryTable} {name : Name} {ext : Ext} {i : Fin DIRECTORY_ENTRY_COUNT} :
    findEntry t name ext = some i ↔ 2 ≤ i.val ∧ (t i).Named name ext ∧
      ∀ j : Fin DIRECTORY_ENTRY_COUNT, 2 ≤ j.val → j < i → ¬ (t j).Named name ext := by
  simp [findEntry,firstFit_some,DirectoryEntry.Named,memcmp_eq_zero]

theorem findEntry_none {t : DirectoryTable} {name : Name} {ext : Ext} :
    findEntry t name ext = none ↔ ∀ j : Fin DIRECTORY_ENTRY_COUNT, 2 ≤ j.val → ¬ (t j).Named name ext := by
  simp [findEntry,firstFit_none,DirectoryEntry.Named,memcmp_eq_zero]

theorem findEntry_unique {t : DirectoryTable} {name : Name} {ext : Ext} {i : Fin DIRECTORY_ENTRY_COUNT}
    (low : 2 ≤ i.val) (named : (t i).Named name ext)
    (only : ∀ j : Fin DIRECTORY_ENTRY_COUNT, 2 ≤ j.val → (t j).Named name ext → j = i) :
    findEntry t name ext = some i :=
  findEntry_some.mpr ⟨low,named,fun j lowJ before namedJ => absurd (only j lowJ namedJ) (Fin.ne_of_lt before)⟩

theorem findEmptySpace_some {fat : ClusterMap} {i : Fin CLUSTER_MAP_SIZE} :
    findEmptySpace fat = some i ↔ fat i = 0 ∧ ∀ j, j < i → fat j ≠ 0 := by
  simp [findEmptySpace,firstFit_some]

theorem findEmptySpace_none {fat : ClusterMap} : findEmptySpace fat = none ↔ ∀ j, fat j ≠ 0 := by
  simp [findEmptySpace,firstFit_none]

theorem findIdxEmptyEntry_some {t : DirectoryTable} {i : Fin DIRECTORY_ENTRY_COUNT} :
    findIdxEmptyEntry t = some i ↔ 2 ≤ i.val ∧ (t i).user_attribute ≠ UATTR_NOT_EMPTY ∧
      ∀ j : Fin DIRECTORY_ENTRY_COUNT, 2 ≤ j.val → j < i → (t j).user_attribute = UATTR_NOT_EMPTY := by
  simp [findIdxEmptyEntry,firstFit_some]

theorem isEmptyDir_iff {t : DirectoryTable} : isEmptyDir t = true ↔
    ∀ j : Fin DIRECTORY_ENTRY_COUNT, 2 ≤ j.val → (t j).user_attribute ≠ UATTR_NOT_EMPTY := by
  simp [isEmptyDir,firstFit_none]

-- Cell numbers as pointers: injective, and never the end-of-file value.
@[simp] theorem cellNumber_toNat (i : Fin CLUSTER_MAP_SIZE) : (cellNumber i).toNat = i.val := by
  have bound : i.val < 512 := i.isLt
  simp only [cellNumber,BitVec.toNat_ofNat]
  omega

theorem cellNumber_of_lt (w : Word) (bound : w.toNat < CLUSTER_MAP_SIZE) : cellNumber ⟨w.toNat,bound⟩ = w := by
  apply BitVec.eq_of_toNat_eq
  rw [cellNumber_toNat]

theorem cellNumber_injective : Function.Injective cellNumber := by
  intro i j same
  have numbers := congrArg BitVec.toNat same
  rw [cellNumber_toNat,cellNumber_toNat] at numbers
  exact Fin.ext numbers

theorem cellNumber_ne_end (i : Fin CLUSTER_MAP_SIZE) : cellNumber i ≠ FAT32_FAT_END_OF_FILE := by
  intro same
  have numbers := congrArg BitVec.toNat same
  rw [cellNumber_toNat] at numbers
  have bound : i.val < 512 := i.isLt
  have far : FAT32_FAT_END_OF_FILE.toNat = 0x0FFFFFFF := rfl
  omega

theorem cellNumber_eq_zero {i : Fin CLUSTER_MAP_SIZE} : cellNumber i = 0 ↔ i.val = 0 := by
  rw [← BitVec.toNat_inj,cellNumber_toNat]
  rfl

theorem cells_pointers : Pointers cellNumber FAT32_FAT_END_OF_FILE := ⟨cellNumber_injective,cellNumber_ne_end⟩

-- The place of a cluster number on the drive: the LBA keeps 28 bits, a cluster
-- number therefore 26.
def slot (c : Word) : Nat := c.toNat % 2^26

def clip (b : Bytes) : Bytes := fun k => if k < CLUSTER_SIZE then b k else 0

def clusterAt (disk : Disk) (n : Nat) : Bytes := clip (drop disk (CLUSTER_SIZE*n))

@[simp] theorem slot_cellNumber (i : Fin CLUSTER_MAP_SIZE) : slot (cellNumber i) = i.val := by
  have bound : i.val < 512 := i.isLt
  simp only [slot,cellNumber_toNat]
  omega

theorem slot_fat : slot FAT_CLUSTER_NUMBER = 1 := rfl
theorem slot_root : slot ROOT_CLUSTER_NUMBER = 2 := rfl

theorem blockBase_cluster (c : Word) : blockBase (cluster_to_lba c) = CLUSTER_SIZE * slot c := by
  have number : (cluster_to_lba c).toNat = c.toNat * 4 % 2^32 := by
    simp [cluster_to_lba,BitVec.toNat_mul]
  simp only [blockBase,slot,number,BLOCK_SIZE,CLUSTER_SIZE]
  omega

theorem read_clusters_eq (disk : Disk) (c : Word) : read_clusters disk c 1 = clusterAt disk (slot c) := by
  funext k
  simp only [read_clusters,read_blocks,blockBase_cluster,clusterAt,clip,drop_apply]
  rfl

theorem clusterAt_write (disk : Disk) (b : Bytes) (c : Word) (n : Nat) :
    clusterAt (write_clusters disk b c 1) n = if n = slot c then clip b else clusterAt disk n := by
  funext k
  by_cases inside : k < CLUSTER_SIZE
  · by_cases same : n = slot c
    · subst same
      simp only [clusterAt,clip,drop_apply,write_clusters,write_blocks,blockBase_cluster,if_pos inside,if_true]
      rw [if_pos ⟨Nat.le_add_right _ _,Nat.add_lt_add_left inside _⟩,Nat.add_sub_cancel_left]
    · simp only [clusterAt,clip,drop_apply,write_clusters,write_blocks,blockBase_cluster,if_pos inside,if_neg same]
      refine if_neg ?_
      simp only [CLUSTER_SIZE,BLOCK_SIZE,CLUSTER_BLOCK_COUNT] at inside ⊢
      omega
  · split <;> simp only [clusterAt,clip,if_neg inside]

@[simp] theorem clip_clip (b : Bytes) : clip (clip b) = clip b := by
  funext k; by_cases inside : k < CLUSTER_SIZE <;> simp [clip,inside]

theorem directory_clip (t : DirectoryTable) : directoryCodec.decode (clip (directoryCodec.encode t)) = t := by
  apply directoryCodec.exact
  intro k inside
  have size : directoryCodec.size = CLUSTER_SIZE := rfl
  simp only [clip,if_pos (size ▸ inside)]

theorem clusterMap_clip (m : ClusterMap) : clusterMapCodec.decode (clip (clusterMapCodec.encode m)) = m := by
  apply clusterMapCodec.exact
  intro k inside
  have size : clusterMapCodec.size = CLUSTER_SIZE := rfl
  simp only [clip,if_pos (size ▸ inside)]

-- The two views of a drive state the rest of the development uses.
def DriverState.cluster (s : DriverState) (n : Nat) : Bytes := clusterAt s.disk n
def DriverState.table (s : DriverState) (n : Nat) : DirectoryTable := directoryCodec.decode (s.cluster n)

namespace DriverState
variable (s : DriverState)

theorem directory_eq (c : Word) : s.directory c = s.table (slot c) := by
  rw [directory,read_clusters_eq]; rfl

@[simp] theorem directory_cell (i : Fin CLUSTER_MAP_SIZE) : s.directory (cellNumber i) = s.table i := by
  rw [directory_eq,slot_cellNumber]

@[simp] theorem setCell_cluster (i : Fin CLUSTER_MAP_SIZE) (value : Word) (n : Nat) :
    (s.setCell i value).cluster n = s.cluster n := rfl
@[simp] theorem setCell_table (i : Fin CLUSTER_MAP_SIZE) (value : Word) (n : Nat) :
    (s.setCell i value).table n = s.table n := rfl
@[simp] theorem setCell_map (i : Fin CLUSTER_MAP_SIZE) (value : Word) :
    (s.setCell i value).cluster_map = Function.update s.cluster_map i value := rfl
@[simp] theorem writeCluster_map (b : Bytes) (c : Word) : (s.writeCluster b c).cluster_map = s.cluster_map := rfl
@[simp] theorem writeDirectory_map (t : DirectoryTable) (c : Word) :
    (s.writeDirectory t c).cluster_map = s.cluster_map := rfl
@[simp] theorem writeFat_map : s.writeFat.cluster_map = s.cluster_map := rfl

theorem writeCluster_cluster (b : Bytes) (c : Word) (n : Nat) :
    (s.writeCluster b c).cluster n = if n = slot c then clip b else s.cluster n :=
  clusterAt_write _ _ _ _

theorem writeCluster_other {b : Bytes} {c : Word} {n : Nat} (other : n ≠ slot c) :
    (s.writeCluster b c).cluster n = s.cluster n := by rw [writeCluster_cluster,if_neg other]

theorem writeDirectory_other {t : DirectoryTable} {c : Word} {n : Nat} (other : n ≠ slot c) :
    (s.writeDirectory t c).cluster n = s.cluster n := s.writeCluster_other other

theorem writeDirectory_table (t : DirectoryTable) (c : Word) (n : Nat) :
    (s.writeDirectory t c).table n = if n = slot c then t else s.table n := by
  unfold table writeDirectory
  rw [writeCluster_cluster]
  split
  · exact directory_clip t
  · rfl

theorem writeFat_cluster (n : Nat) :
    s.writeFat.cluster n = if n = 1 then clip (clusterMapCodec.encode s.cluster_map) else s.cluster n := by
  rw [writeFat,writeCluster_cluster,slot_fat]

theorem writeFat_other {n : Nat} (other : n ≠ 1) : s.writeFat.cluster n = s.cluster n := by
  rw [writeFat_cluster,if_neg other]

theorem writeFat_table {n : Nat} (other : n ≠ 1) : s.writeFat.table n = s.table n := by
  unfold table; rw [writeFat_other _ other]

theorem table_congr {s s' : DriverState} {n : Nat} (same : s'.cluster n = s.cluster n) : s'.table n = s.table n := by
  unfold table; rw [same]

end DriverState

end Sosis.Fat32
