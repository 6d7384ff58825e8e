import Mathlib.Logic.Function.Basic
import Sosis.ByteRecords

-- Constants and on-disk structures of header/filesystem/fat32.h and the block
-- device of disk.c. The driver's scratch buffers are not state here: every driver
-- function reloads them from the disk before it looks at them.
namespace Sosis.Fat32
open ByteRecords

abbrev Word := BitVec 32

abbrev BLOCK_SIZE : Nat := 512
abbrev CLUSTER_BLOCK_COUNT : Nat := 4
abbrev CLUSTER_SIZE : Nat := 2048
abbrev CLUSTER_MAP_SIZE : Nat := 512
abbrev DIRECTORY_ENTRY_COUNT : Nat := 64

instance : NeZero CLUSTER_MAP_SIZE := ⟨by decide⟩
instance : NeZero DIRECTORY_ENTRY_COUNT := ⟨by decide⟩

def BOOT_SECTOR : Word := 0
def CLUSTER_0_VALUE : Word := 0x0FFFFFF0
def CLUSTER_1_VALUE : Word := 0x0FFFFFFF
def FAT32_FAT_END_OF_FILE : Word := 0x0FFFFFFF
def FAT32_FAT_EMPTY_ENTRY : Word := 0
def FAT_CLUSTER_NUMBER : Word := 1
def ROOT_CLUSTER_NUMBER : Word := 2
def ATTR_SUBDIRECTORY : Byte := 0b00010000
def UATTR_NOT_EMPTY : Byte := 0b10101010

abbrev Name := Fin 8 → Byte
abbrev Ext := Fin 3 → Byte

structure DirectoryEntry where
  name : Name
  ext : Ext
  attr : Byte -- `attribute`, a Lean keyword
  user_attribute : Byte
  undelete : Byte
  create_time : BitVec 16
  create_date : BitVec 16
  access_date : BitVec 16
  cluster_high : BitVec 16
  modified_time : BitVec 16
  modified_date : BitVec 16
  cluster_low : BitVec 16
  filesize : Word

abbrev DirectoryTable := Fin DIRECTORY_ENTRY_COUNT → DirectoryEntry
abbrev ClusterMap := Fin CLUSTER_MAP_SIZE → Word

-- `struct FAT32DirectoryEntry x = {0}`
def DirectoryEntry.zero : DirectoryEntry :=
  ⟨fun _ => 0,fun _ => 0,0,0,0,0,0,0,0,0,0,0,0⟩

-- The packed layout, byte by byte.
def DirectoryEntry.encode (e : DirectoryEntry) (k : Nat) : Byte :=
  if inName : k < 8 then e.name ⟨k,inName⟩
  else if inExt : k - 8 < 3 then e.ext ⟨k-8,inExt⟩
  else match k with
  | 11 => e.attr
  | 12 => e.user_attribute
  | 13 => e.undelete
  | 14 => byteOf e.create_time 0 | 15 => byteOf e.create_time 1
  | 16 => byteOf e.create_date 0 | 17 => byteOf e.create_date 1
  | 18 => byteOf e.access_date 0 | 19 => byteOf e.access_date 1
  | 20 => byteOf e.cluster_high 0 | 21 => byteOf e.cluster_high 1
  | 22 => byteOf e.modified_time 0 | 23 => byteOf e.modified_time 1
  | 24 => byteOf e.modified_date 0 | 25 => byteOf e.modified_date 1
  | 26 => byteOf e.cluster_low 0 | 27 => byteOf e.cluster_low 1
  | 28 => byteOf e.filesize 0 | 29 => byteOf e.filesize 1
  | 30 => byteOf e.filesize 2 | 31 => byteOf e.filesize 3
  | _ => 0

def DirectoryEntry.decode (b : Bytes) : DirectoryEntry where
  name i := b i
  ext i := b (8+i)
  attr := b 11
  user_attribute := b 12
  undelete := b 13
  create_time := le16 b 14
  create_date := le16 b 16
  access_date := le16 b 18
  cluster_high := le16 b 20
  modified_time := le16 b 22
  modified_date := le16 b 24
  cluster_low := le16 b 26
  filesize := le32 b 28

theorem DirectoryEntry.decode_exact (e : DirectoryEntry) (b : Bytes)
    (agrees : ∀ k < 32, b k = e.encode k) : DirectoryEntry.decode b = e := by
  obtain ⟨name,ext,attr,user,undelete,ctime,cdate,adate,high,mtime,mdate,low,size⟩ := e
  simp only [DirectoryEntry.decode,DirectoryEntry.mk.injEq]
  refine ⟨?_,?_,agrees 11 (by omega),agrees 12 (by omega),agrees 13 (by omega),?_,?_,?_,?_,?_,?_,?_,?_⟩
  · funext i
    rw [agrees i (by omega)]
    simp [DirectoryEntry.encode]
  · funext i
    rw [agrees (8+i) (by omega)]
    simp [DirectoryEntry.encode]
  · exact le16_exact _ _ _ (agrees 14 (by omega)) (agrees 15 (by omega))
  · exact le16_exact _ _ _ (agrees 16 (by omega)) (agrees 17 (by omega))
  · exact le16_exact _ _ _ (agrees 18 (by omega)) (agrees 19 (by omega))
  · exact le16_exact _ _ _ (agrees 20 (by omega)) (agrees 21 (by omega))
  · exact le16_exact _ _ _ (agrees 22 (by omega)) (agrees 23 (by omega))
  · exact le16_exact _ _ _ (agrees 24 (by omega)) (agrees 25 (by omega))
  · exact le16_exact _ _ _ (agrees 26 (by omega)) (agrees 27 (by omega))
  · exact le32_exact _ _ _ (agrees 28 (by omega)) (agrees 29 (by omega))
      (agrees 30 (by omega)) (agrees 31 (by omega))

def entryCodec : Codec DirectoryEntry := ⟨32,DirectoryEntry.encode,DirectoryEntry.decode,DirectoryEntry.decode_exact⟩
def directoryCodec : Codec DirectoryTable := entryCodec.array DIRECTORY_ENTRY_COUNT
def clusterMapCodec : Codec ClusterMap := word32.array CLUSTER_MAP_SIZE

-- (cluster_high << 16) | cluster_low
def DirectoryEntry.cluster (e : DirectoryEntry) : Word :=
  (e.cluster_high.zeroExtend 32 <<< 16) ||| e.cluster_low.zeroExtend 32

theorem cluster_of_halves (e : DirectoryEntry) (w : Word) (high : e.cluster_high = (w >>> 16).truncate 16)
    (low : e.cluster_low = (w &&& 0xFFFF).truncate 16) : e.cluster = w := by
  unfold DirectoryEntry.cluster
  rw [high,low]
  ext k inside
  by_cases upper : 16 ≤ k
  · simp [show ¬ k < 16 by omega,show 16 + (k-16) = k by omega,show k-16 < 16 by omega,
      BitVec.getLsbD_eq_getElem inside]
  · have mask : (65535#32)[k] = true := by
      rw [BitVec.getElem_eq_testBit_toNat]
      exact (Nat.testBit_two_pow_sub_one 16 k).trans (by simpa using upper)
    simp [show k < 16 by omega,mask,BitVec.getLsbD_eq_getElem inside]

theorem cluster_zero (e : DirectoryEntry) (high : e.cluster_high = 0) (low : e.cluster_low = 0) : e.cluster = 0 := by
  unfold DirectoryEntry.cluster
  rw [high,low]
  decide

end Sosis.Fat32
