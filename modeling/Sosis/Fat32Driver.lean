import Sosis.FirstFit
import Sosis.Fat32Layout

-- fat32.c over the block device of disk.c, function by function. A result `none`
-- is a call that leaves the defined behaviour of the source: it indexes
-- cluster_map outside its 512 cells, or its loop does not end.
namespace Sosis.Fat32
open ByteRecords FirstFit

-- The address space a request's buffer lives in.
abbrev Memory := Word → Byte

-- The drive, by byte address. A sector number keeps 28 bits of the LBA the caller
-- computed (`0xE0 | ((logical_block_address >> 24) & 0xF)`).
abbrev Disk := Bytes

def blockBase (logical_block_address : Word) : Nat := BLOCK_SIZE * (logical_block_address.toNat % 2^28)

def read_blocks (disk : Disk) (logical_block_address : Word) (block_count : Nat) : Bytes :=
  fun k => if k < BLOCK_SIZE*block_count then disk (blockBase logical_block_address + k) else 0

def write_blocks (disk : Disk) (ptr : Bytes) (logical_block_address : Word) (block_count : Nat) : Disk :=
  fun a => if blockBase logical_block_address ≤ a ∧ a < blockBase logical_block_address + BLOCK_SIZE*block_count
    then ptr (a - blockBase logical_block_address) else disk a

def cluster_to_lba (cluster : Word) : Word := cluster * BitVec.ofNat 32 CLUSTER_BLOCK_COUNT

def read_clusters (disk : Disk) (cluster_number : Word) (cluster_count : Nat) : Bytes :=
  read_blocks disk (cluster_to_lba cluster_number) (cluster_count*CLUSTER_BLOCK_COUNT)

def write_clusters (disk : Disk) (ptr : Bytes) (cluster_number : Word) (cluster_count : Nat) : Disk :=
  write_blocks disk ptr (cluster_to_lba cluster_number) (cluster_count*CLUSTER_BLOCK_COUNT)

-- string.c
def memcmp : {n : Nat} → (Fin n → Byte) → (Fin n → Byte) → Int
  | 0,_,_ => 0
  | _+1,s1,s2 =>
    if s1 0 < s2 0 then -1
    else if s2 0 < s1 0 then 1
    else memcmp (fun i => s1 i.succ) (fun i => s2 i.succ)

-- `size` bytes stored at `ptr`; pointer arithmetic wraps at 2^32.
def Memory.store (memory : Memory) (ptr : Word) (bytes : Bytes) (size : Nat) : Memory :=
  fun a => if (a-ptr).toNat < size then bytes (a-ptr).toNat else memory a

def Memory.at (memory : Memory) (ptr : Word) : Bytes := fun k => memory (ptr + BitVec.ofNat 32 k)

-- fat32_driver_state: the drive and the cached FAT.
structure DriverState where
  disk : Disk
  cluster_map : ClusterMap

structure FAT32DriverRequest where
  buf : Word
  name : Name
  ext : Ext
  parent_cluster_number : Word
  buffer_size : Word

def fs_signature_text : List Char :=
  ['C','o','u','r','s','e',' ',' ',' ',' ',' ',' ',' ',' ',' ',' ',
   'D','e','s','i','g','n','e','d',' ','b','y',' ',' ',' ',' ',' ',
   'L','a','b',' ','S','i','s','t','e','r',' ','I','T','B',' ',' ',
   'M','a','d','e',' ','w','i','t','h',' ','<','3',' ',' ',' ',' ',
   '-','-','-','-','-','-','-','-','-','-','-','2','0','2','4','\n']

def fs_signature : Bytes := fun k =>
  if k = BLOCK_SIZE-2 then 'O'.toNat
  else if k = BLOCK_SIZE-1 then 'k'.toNat
  else ((fs_signature_text[k]?).map Char.toNat).getD 0

def DriverState.directory (s : DriverState) (cluster : Word) : DirectoryTable :=
  directoryCodec.decode (read_clusters s.disk cluster 1)

def DriverState.writeCluster (s : DriverState) (ptr : Bytes) (cluster : Word) : DriverState :=
  {s with disk := write_clusters s.disk ptr cluster 1}

def DriverState.writeDirectory (s : DriverState) (table : DirectoryTable) (cluster : Word) : DriverState :=
  s.writeCluster (directoryCodec.encode table) cluster

-- write_clusters(&fat32_driver_state.fat_table.cluster_map, FAT_CLUSTER_NUMBER, 1)
def DriverState.writeFat (s : DriverState) : DriverState :=
  s.writeCluster (clusterMapCodec.encode s.cluster_map) FAT_CLUSTER_NUMBER

def DriverState.setCell (s : DriverState) (i : Fin CLUSTER_MAP_SIZE) (value : Word) : DriverState :=
  {s with cluster_map := Function.update s.cluster_map i value}

def cellNumber (i : Fin CLUSTER_MAP_SIZE) : Word := BitVec.ofNat 32 i

def zeroTable : DirectoryTable := fun _ => .zero

def init_directory_table (dir_table : DirectoryTable) (name : Name) (parent_dir_cluster : Word) : DirectoryTable :=
  fun i =>
    if i = 0 then {dir_table 0 with
      name := name
      attr := ATTR_SUBDIRECTORY
      user_attribute := UATTR_NOT_EMPTY
      filesize := 0}
    else if i = 1 then {dir_table 1 with
      name := Function.update (Function.update (dir_table 1).name 0 '.'.toNat) 1 '.'.toNat
      attr := ATTR_SUBDIRECTORY
      user_attribute := UATTR_NOT_EMPTY
      cluster_high := (parent_dir_cluster >>> 16).truncate 16
      cluster_low := (parent_dir_cluster &&& 0xFFFF).truncate 16
      filesize := 0}
    else {dir_table i with user_attribute := FAT32_FAT_EMPTY_ENTRY.truncate 8}

def rootName : Name := fun i => (([82,111,111,116] : List Byte)[i.val]?).getD 0

def rootTable : DirectoryTable :=
  let table := init_directory_table zeroTable rootName ROOT_CLUSTER_NUMBER
  Function.update table 0 {table 0 with
    cluster_high := 0
    cluster_low := ROOT_CLUSTER_NUMBER.truncate 16}

def formatMap : ClusterMap := fun i =>
  if i = 0 then CLUSTER_0_VALUE
  else if i = 1 then CLUSTER_1_VALUE
  else if i = 2 then FAT32_FAT_END_OF_FILE
  else 0

def create_fat32 (s : DriverState) : DriverState :=
  let s := {s with disk := write_blocks s.disk fs_signature 0 1}
  let s := {s with cluster_map := formatMap}
  s.writeFat.writeDirectory rootTable ROOT_CLUSTER_NUMBER

def is_empty_storage (s : DriverState) : Bool :=
  let boot_sector := read_blocks s.disk BOOT_SECTOR 1
  memcmp (fun i : Fin BLOCK_SIZE => boot_sector i) (fun i => fs_signature i) != 0

def initialize_filesystem_fat32 (s : DriverState) : DriverState :=
  if is_empty_storage s then create_fat32 s
  else {s with cluster_map := clusterMapCodec.decode (read_clusters s.disk FAT_CLUSTER_NUMBER 1)}

-- -9999 is `none`.
def findEntry (dir_table : DirectoryTable) (name : Name) (ext : Ext) : Option (Fin DIRECTORY_ENTRY_COUNT) :=
  firstFit (fun i => memcmp (dir_table i).name name == 0 && memcmp (dir_table i).ext ext == 0) 2

def findCluster (s : DriverState) (request : FAT32DriverRequest) : Word :=
  let dir_table := s.directory request.parent_cluster_number
  match findEntry dir_table request.name request.ext with
  | none => 9999
  | some idx => (dir_table idx).cluster

def findEmptySpace (fat : ClusterMap) : Option (Fin CLUSTER_MAP_SIZE) :=
  firstFit (fun i => fat i == 0) 0

def findIdxEmptyEntry (dir : DirectoryTable) : Option (Fin DIRECTORY_ENTRY_COUNT) :=
  firstFit (fun i => (dir i).user_attribute != UATTR_NOT_EMPTY) 2

def isEmptyDir (dir : DirectoryTable) : Bool :=
  (firstFit (fun i => (dir i).user_attribute == UATTR_NOT_EMPTY) 2).isNone

-- A walk that stops visits each cell at most once, so this many turns of a loop
-- are enough for every walk that does stop.
def walkFuel : Nat := CLUSTER_MAP_SIZE + 1

-- while (cluster_number != FAT32_FAT_END_OF_FILE)
def readLoop (s : DriverState) : Nat → Memory → Word → Word → Option Memory
  | fuel,memory,buffer,cluster_number =>
    if cluster_number = FAT32_FAT_END_OF_FILE then some memory
    else match fuel with
    | 0 => none
    | fuel+1 =>
      let memory := memory.store buffer (read_clusters s.disk cluster_number 1) CLUSTER_SIZE
      if bound : cluster_number.toNat < CLUSTER_MAP_SIZE then
        readLoop s fuel memory (buffer + BitVec.ofNat 32 CLUSTER_SIZE) (s.cluster_map ⟨_,bound⟩)
      else none

def read (s : DriverState) (memory : Memory) (request : FAT32DriverRequest) : Option (Int × Memory) :=
  let dir_table := s.directory request.parent_cluster_number
  match findEntry dir_table request.name request.ext with
  | none => some (3,memory)
  | some idx =>
    if request.buffer_size < (dir_table idx).filesize then some (2,memory)
    else if (dir_table idx).attr = ATTR_SUBDIRECTORY then some (1,memory)
    else (readLoop s walkFuel memory request.buf (dir_table idx).cluster).map fun memory => (0,memory)

def read_directory (s : DriverState) (memory : Memory) (request : FAT32DriverRequest) : Int × Memory :=
  let dir_table := s.directory request.parent_cluster_number
  match findEntry dir_table request.name request.ext with
  | none => (2,memory)
  | some idx =>
    if (dir_table idx).attr ≠ ATTR_SUBDIRECTORY then (1,memory)
    else (0,memory.store request.buf (read_clusters s.disk (dir_table idx).cluster 1) CLUSTER_SIZE)

-- ceil((double)size / CLUSTER_SIZE): the quotient of a 32-bit size by a power of
-- two is exact in a double, so truncation and comparison are those of integers.
def ceil (size : Nat) : Nat :=
  let intPart := size / CLUSTER_SIZE
  if intPart*CLUSTER_SIZE < size then intPart+1 else intPart

def addEntry (parent_dir : DirectoryTable) (request : FAT32DriverRequest) (idxEntry : Fin DIRECTORY_ENTRY_COUNT)
    (cluster_idx : Word) : DirectoryTable :=
  Function.update parent_dir idxEntry {parent_dir idxEntry with
    name := request.name
    ext := request.ext
    user_attribute := UATTR_NOT_EMPTY
    attr := if request.buffer_size = 0 then ATTR_SUBDIRECTORY else (parent_dir idxEntry).attr
    cluster_high := (cluster_idx >>> 16).truncate 16
    cluster_low := (cluster_idx &&& 0xFFFF).truncate 16
    filesize := request.buffer_size}

-- The turns of `for (int i = 0; i < total_cluster; i++)` that are still to come,
-- with `idx` as the turn before left it. `false` is the early `return -1`.
def writeLoop (data : Bytes) : Nat → Nat → Option (Fin CLUSTER_MAP_SIZE) → DriverState → Option (Bool × DriverState)
  | 0,_,_,s => some (true,s)
  | turns+1,i,prev,s =>
    match findEmptySpace s.cluster_map with
    | none => match prev with
      | none => none
      | some prev => some (false,s.setCell prev FAT32_FAT_END_OF_FILE)
    | some idx =>
      let s := s.writeCluster (drop data (i*CLUSTER_SIZE)) (cellNumber idx)
      let s := match prev with
        | none => s
        | some prev => s.setCell prev (cellNumber idx)
      writeLoop data turns (i+1) (some idx) (s.setCell idx FAT32_FAT_END_OF_FILE)

def write (s : DriverState) (memory : Memory) (request : FAT32DriverRequest) : Option (Int × DriverState) :=
  let dir_table := s.directory request.parent_cluster_number
  if (dir_table 0).attr ≠ ATTR_SUBDIRECTORY then some (2,s)
  else match findEntry dir_table request.name request.ext with
  | some _ => some (1,s)
  | none => match findIdxEmptyEntry dir_table with
    | none => some (-1,s)
    | some idxEntryParent => match findEmptySpace s.cluster_map with
      | none => some (-1,s)
      | some idx =>
        let s := s.writeDirectory (addEntry dir_table request idxEntryParent (cellNumber idx))
          request.parent_cluster_number
        if request.buffer_size = 0 then
          let new_dir := init_directory_table zeroTable request.name request.parent_cluster_number
          let s := s.writeDirectory new_dir (cellNumber idx)
          some (0,(s.setCell idx FAT32_FAT_END_OF_FILE).writeFat)
        else
          (writeLoop (memory.at request.buf) (ceil request.buffer_size.toNat) 0 none s).map fun (done,s) =>
            if done then (0,s.writeFat) else (-1,s)

def deleteEntry (parent_dir : DirectoryTable) (idxEntry : Fin DIRECTORY_ENTRY_COUNT) : DirectoryTable :=
  Function.update parent_dir idxEntry {parent_dir idxEntry with
    name := fun _ => 0
    ext := fun _ => 0
    user_attribute := FAT32_FAT_EMPTY_ENTRY.truncate 8
    cluster_high := 0
    cluster_low := 0
    filesize := 0}

def emptyCluster : Bytes := fun _ => 0

-- while (cluster_map[idxCluster] != FAT32_FAT_END_OF_FILE), then the last cluster.
def deleteLoop : Nat → DriverState → Word → Option DriverState
  | fuel,s,idxCluster =>
    if bound : idxCluster.toNat < CLUSTER_MAP_SIZE then
      if s.cluster_map ⟨_,bound⟩ = FAT32_FAT_END_OF_FILE then
        some ((s.writeCluster emptyCluster idxCluster).setCell ⟨_,bound⟩ 0)
      else match fuel with
      | 0 => none
      | fuel+1 =>
        deleteLoop fuel ((s.setCell ⟨_,bound⟩ 0).writeCluster emptyCluster idxCluster) (s.cluster_map ⟨_,bound⟩)
    else none

def delete (s : DriverState) (request : FAT32DriverRequest) : Option (Int × DriverState) :=
  let dir_table := s.directory request.parent_cluster_number
  match findEntry dir_table request.name request.ext with
  | none => some (1,s)
  | some idxEntry =>
    let idxCluster := (dir_table idxEntry).cluster
    let finish (s : DriverState) : Int × DriverState :=
      (0,(s.writeDirectory (deleteEntry dir_table idxEntry) request.parent_cluster_number).writeFat)
    if (dir_table idxEntry).attr = ATTR_SUBDIRECTORY then
      if !isEmptyDir (s.directory idxCluster) then some (2,s)
      else
        let s := s.writeDirectory zeroTable idxCluster
        if bound : idxCluster.toNat < CLUSTER_MAP_SIZE then some (finish (s.setCell ⟨_,bound⟩ 0))
        else none
    else (deleteLoop walkFuel s idxCluster).map finish

end Sosis.Fat32
