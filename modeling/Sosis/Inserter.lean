import Sosis.Fat32PowerCut
import Sosis.SystemFiles

-- external-inserter.c, the tool that puts programs on the storage image, and the boot
-- from an image it made: the driver's code run by the tool on an image in memory, and run
-- by the kernel on the drive, agree on what a file is.
namespace Sosis.Inserter
open ByteRecords TransitionRuns LinkedCells
open Fat32 (Word Memory Disk Volume Name Ext FsAction DriverState FAT32DriverRequest DirectoryTable ClusterMap BLOCK_SIZE
  CLUSTER_SIZE CLUSTER_BLOCK_COUNT CLUSTER_MAP_SIZE)
open Fat32 (is_empty_storage initialize_filesystem_fat32)

-- The storage file has this size from the makefile's `disk` on.
abbrev STORAGE_SIZE : Nat := 4*1024*1024

-- image_storage + BLOCK_SIZE * (logical_block_address + i), in 32 bits.
def blockOffset (logical_block_address : Word) (i : Nat) : Nat := BLOCK_SIZE * (logical_block_address.toNat + i) % 2^32

def memcpy (dest : Bytes) (offset : Nat) (src : Bytes) (n : Nat) : Bytes :=
  fun k => if offset ≤ k ∧ k < offset + n then src (k - offset) else dest k

def read_blocks (image_storage : Bytes) (logical_block_address : Word) (block_count : Nat) : Bytes :=
  (List.range block_count).foldl (fun ptr i => memcpy ptr (BLOCK_SIZE*i)
    (drop image_storage (blockOffset logical_block_address i)) BLOCK_SIZE) fun _ => 0

def write_blocks (image_storage : Bytes) (ptr : Bytes) (logical_block_address : Word) (block_count : Nat) : Bytes :=
  (List.range block_count).foldl (fun image i => memcpy image (blockOffset logical_block_address i)
    (drop ptr (BLOCK_SIZE*i)) BLOCK_SIZE) image_storage

section blocks
variable {image ptr : Bytes} {lba : Word} {count : Nat}

theorem blockOffset_inside (inside : BLOCK_SIZE * (lba.toNat + count) ≤ STORAGE_SIZE) {i : Nat} (low : i < count) :
    blockOffset lba i = Fat32.blockBase lba + BLOCK_SIZE*i := by
  simp only [blockOffset,Fat32.blockBase,BLOCK_SIZE,STORAGE_SIZE] at *
  omega

-- On the image the tool's block functions are those of the drive.
theorem read_blocks_same (inside : BLOCK_SIZE * (lba.toNat + count) ≤ STORAGE_SIZE) :
    read_blocks image lba count = Fat32.read_blocks image lba count := by
  induction count with
  | zero =>
    funext k
    simp [read_blocks,Fat32.read_blocks]
  | succ count ih =>
    have earlier := ih (by simp only [BLOCK_SIZE] at *; omega)
    unfold read_blocks at earlier ⊢
    rw [List.range_succ,List.foldl_append,earlier,List.foldl_cons,List.foldl_nil,
      blockOffset_inside inside (Nat.lt_succ_self count)]
    funext k
    simp only [memcpy,Fat32.read_blocks,drop_apply]
    split
    · rename_i here
      rw [if_pos (by simp only [BLOCK_SIZE] at *; omega)]
      congr 1
      omega
    · rename_i out
      simp only [BLOCK_SIZE] at *
      split <;> split <;> first | rfl | (exfalso; omega)

theorem write_blocks_same (inside : BLOCK_SIZE * (lba.toNat + count) ≤ STORAGE_SIZE) :
    write_blocks image ptr lba count = Fat32.write_blocks image ptr lba count := by
  induction count with
  | zero =>
    funext a
    simp only [write_blocks,Fat32.write_blocks,List.range_zero,List.foldl_nil]
    rw [if_neg (by omega)]
  | succ count ih =>
    have earlier := ih (by simp only [BLOCK_SIZE] at *; omega)
    unfold write_blocks at earlier ⊢
    rw [List.range_succ,List.foldl_append,earlier,List.foldl_cons,List.foldl_nil,
      blockOffset_inside inside (Nat.lt_succ_self count)]
    funext a
    simp only [memcpy,Fat32.write_blocks,drop_apply]
    split
    · rename_i here
      rw [if_pos (by simp only [BLOCK_SIZE] at *; omega)]
      congr 1
      omega
    · rename_i out
      simp only [BLOCK_SIZE] at *
      split <;> split <;> first | rfl | (exfalso; omega)

end blocks

-- fat32.c once more, over these block functions.
namespace Tool

def read_clusters (image_storage : Bytes) (cluster_number : Word) (cluster_count : Nat) : Bytes :=
  read_blocks image_storage (Fat32.cluster_to_lba cluster_number) (cluster_count*CLUSTER_BLOCK_COUNT)

def write_clusters (image_storage : Bytes) (ptr : Bytes) (cluster_number : Word) (cluster_count : Nat) : Bytes :=
  write_blocks image_storage ptr (Fat32.cluster_to_lba cluster_number) (cluster_count*CLUSTER_BLOCK_COUNT)

def directory (s : DriverState) (cluster : Word) : DirectoryTable :=
  Fat32.directoryCodec.decode (read_clusters s.disk cluster 1)

def writeCluster (s : DriverState) (ptr : Bytes) (cluster : Word) : DriverState :=
  {s with disk := write_clusters s.disk ptr cluster 1}

def writeDirectory (s : DriverState) (table : DirectoryTable) (cluster : Word) : DriverState :=
  writeCluster s (Fat32.directoryCodec.encode table) cluster

def writeFat (s : DriverState) : DriverState :=
  writeCluster s (Fat32.clusterMapCodec.encode s.cluster_map) Fat32.FAT_CLUSTER_NUMBER

def create_fat32 (s : DriverState) : DriverState :=
  let s := {s with disk := write_blocks s.disk Fat32.fs_signature 0 1}
  let s := {s with cluster_map := Fat32.formatMap}
  writeDirectory (writeFat s) Fat32.rootTable Fat32.ROOT_CLUSTER_NUMBER

def is_empty_storage (s : DriverState) : Bool :=
  let boot_sector := read_blocks s.disk Fat32.BOOT_SECTOR 1
  Fat32.memcmp (fun i : Fin BLOCK_SIZE => boot_sector i) (fun i => Fat32.fs_signature i) != 0

def initialize_filesystem_fat32 (s : DriverState) : DriverState :=
  if is_empty_storage s then create_fat32 s
  else {s with cluster_map := Fat32.clusterMapCodec.decode (read_clusters s.disk Fat32.FAT_CLUSTER_NUMBER 1)}

def writeLoop (data : Bytes) : Nat → Nat → Option (Fin CLUSTER_MAP_SIZE) → DriverState → Option (Bool × DriverState)
  | 0,_,_,s => some (true,s)
  | turns+1,i,prev,s =>
    match Fat32.findEmptySpace s.cluster_map with
    | none => match prev with
      | none => none
      | some prev => some (false,s.setCell prev Fat32.FAT32_FAT_END_OF_FILE)
    | some idx =>
      let s := writeCluster s (drop data (i*CLUSTER_SIZE)) (Fat32.cellNumber idx)
      let s := match prev with
        | none => s
        | some prev => s.setCell prev (Fat32.cellNumber idx)
      writeLoop data turns (i+1) (some idx) (s.setCell idx Fat32.FAT32_FAT_END_OF_FILE)

def write (s : DriverState) (memory : Memory) (request : FAT32DriverRequest) : Option (Int × DriverState) :=
  let dir_table := directory s request.parent_cluster_number
  if (dir_table 0).attr ≠ Fat32.ATTR_SUBDIRECTORY then some (2,s)
  else match Fat32.findEntry dir_table request.name request.ext with
  | some _ => some (1,s)
  | none => match Fat32.findIdxEmptyEntry dir_table with
    | none => some (-1,s)
    | some idxEntryParent => match Fat32.findEmptySpace s.cluster_map with
      | none => some (-1,s)
      | some idx =>
        let s := writeDirectory s (Fat32.addEntry dir_table request idxEntryParent (Fat32.cellNumber idx))
          request.parent_cluster_number
        if request.buffer_size = 0 then
          let new_dir := Fat32.init_directory_table Fat32.zeroTable request.name request.parent_cluster_number
          let s := writeDirectory s new_dir (Fat32.cellNumber idx)
          some (0,writeFat (s.setCell idx Fat32.FAT32_FAT_END_OF_FILE))
        else
          (writeLoop (memory.at request.buf) (Fat32.ceil request.buffer_size.toNat) 0 none s).map fun (done,s) =>
            if done then (0,writeFat s) else (-1,s)

end Tool

-- Where every cluster lies on the image, it is the driver that the kernel runs on the drive.
section same
variable {image : Bytes} {cluster : Word} {s : DriverState}

theorem clusters_inside (inside : CLUSTER_SIZE * cluster.toNat < STORAGE_SIZE) :
    BLOCK_SIZE * ((Fat32.cluster_to_lba cluster).toNat + 1*CLUSTER_BLOCK_COUNT) ≤ STORAGE_SIZE := by
  simp only [Fat32.cluster_to_lba,BitVec.toNat_mul,BitVec.toNat_ofNat,CLUSTER_SIZE,BLOCK_SIZE,CLUSTER_BLOCK_COUNT,
    STORAGE_SIZE] at inside ⊢
  omega

theorem cell_inside (i : Fin CLUSTER_MAP_SIZE) : CLUSTER_SIZE * (Fat32.cellNumber i).toNat < STORAGE_SIZE := by
  have bound : i.val < 512 := i.isLt
  rw [Fat32.cellNumber_toNat]
  simp only [CLUSTER_SIZE,STORAGE_SIZE]
  omega

theorem directory_same (inside : CLUSTER_SIZE * cluster.toNat < STORAGE_SIZE) :
    Tool.directory s cluster = s.directory cluster :=
  congrArg Fat32.directoryCodec.decode (read_blocks_same (clusters_inside inside))

theorem writeCluster_same (inside : CLUSTER_SIZE * cluster.toNat < STORAGE_SIZE) (ptr : Bytes) :
    Tool.writeCluster s ptr cluster = s.writeCluster ptr cluster :=
  congrArg (fun disk => {s with disk := disk}) (write_blocks_same (clusters_inside inside))

theorem writeFat_same : Tool.writeFat s = s.writeFat := writeCluster_same (by decide) _

theorem initialized_same : Tool.initialize_filesystem_fat32 s = initialize_filesystem_fat32 s := by
  have boot : Tool.is_empty_storage s = is_empty_storage s := by
    unfold Tool.is_empty_storage is_empty_storage
    rw [read_blocks_same (by decide)]
  have signed : write_blocks s.disk Fat32.fs_signature 0 1 = Fat32.write_blocks s.disk Fat32.fs_signature 0 1 :=
    write_blocks_same (by decide)
  have fat : Tool.read_clusters s.disk Fat32.FAT_CLUSTER_NUMBER 1 = Fat32.read_clusters s.disk Fat32.FAT_CLUSTER_NUMBER 1 :=
    read_blocks_same (by decide)
  have created : Tool.create_fat32 s = Fat32.create_fat32 s := by
    have root : CLUSTER_SIZE * Fat32.ROOT_CLUSTER_NUMBER.toNat < STORAGE_SIZE := by decide
    unfold Tool.create_fat32 Tool.writeDirectory
    simp only [signed,writeFat_same,writeCluster_same root]
    rfl
  unfold Tool.initialize_filesystem_fat32 initialize_filesystem_fat32
  rw [boot,created,fat]

theorem writeLoop_same (data : Bytes) (turns i : Nat) (prev : Option (Fin CLUSTER_MAP_SIZE)) :
    Tool.writeLoop data turns i prev s = Fat32.writeLoop data turns i prev s := by
  induction turns generalizing i prev s with
  | zero => rfl
  | succ turns ih =>
    unfold Tool.writeLoop Fat32.writeLoop
    simp only [writeCluster_same (cell_inside _),ih]
    all_goals rfl

theorem write_same {memory : Memory} {request : FAT32DriverRequest}
    (inside : CLUSTER_SIZE * request.parent_cluster_number.toNat < STORAGE_SIZE) :
    Tool.write s memory request = Fat32.write s memory request := by
  unfold Tool.write Fat32.write Tool.writeDirectory DriverState.writeDirectory
  simp only [directory_same inside,writeCluster_same inside,writeCluster_same (cell_inside _),writeFat_same,writeLoop_same]
  all_goals rfl

end same

def isspace (c : Byte) : Bool := c == 32 || 9 ≤ c && c ≤ 13
def isdigit (c : Byte) : Bool := 48 ≤ c && c ≤ 57

-- sscanf(arg, "%8s", request.name), into a name of zeros. The NUL it ends with comes to
-- lie in ext at the latest, which is zero already.
def scanName (arg : List Byte) : Name := fun i =>
  ((((arg.dropWhile isspace).takeWhile fun c => !isspace c).take 8)[i.val]?).getD 0

-- sscanf(arg, "%u", &n): an unsigned long, of which 32 bits are kept. Without a digit n stays zero.
def scanUnsigned (arg : List Byte) : Word :=
  let arg := arg.dropWhile isspace
  let negative := arg.head? == some 45
  let digits := (if negative || arg.head? == some 43 then arg.drop 1 else arg).takeWhile isdigit
  let value := digits.foldl (fun n c => 10*n + (c.toNat - 48)) 0
  if 2^64 ≤ value then BitVec.ofNat 32 (2^64 - 1)
  else if negative then BitVec.ofNat 32 (2^64 - value) else BitVec.ofNat 32 value

-- What main is run with, besides the storage file: the file that argv[1] names, if it can
-- be opened, and what malloc left in file_buffer.
structure Arguments where
  argv1 : List Byte
  argv2 : List Byte
  target : Option (List Byte)
  left : Memory

namespace Arguments

-- fread(file_buffer, 4 * 1024 * 1024, 1, fptr_target): the bytes of a shorter file are stored,
-- as a part of the one item.
def file_buffer (x : Arguments) : Memory := fun a =>
  match x.target with
  | none => x.left a
  | some file => if a.toNat < STORAGE_SIZE then (file[a.toNat]?).getD (x.left a) else x.left a

-- Addresses are counted from file_buffer on.
def request (x : Arguments) : FAT32DriverRequest where
  buf := 0
  name := scanName x.argv1
  ext _ := 0
  parent_cluster_number := scanUnsigned x.argv2
  buffer_size := BitVec.ofNat 32 ((x.target.map List.length).getD 0)

end Arguments

-- The storage file becomes image_storage and is written back. A parent behind the image
-- takes the driver out of image_storage; the clusters it finds itself lie in the image.
def main (storage : Disk) (x : Arguments) : Option (Int × Disk) :=
  if CLUSTER_SIZE * x.request.parent_cluster_number.toNat < STORAGE_SIZE then
    (Tool.write (Tool.initialize_filesystem_fat32 ⟨storage,fun _ => 0⟩) x.file_buffer x.request).map fun (retcode,s) =>
      (retcode,s.disk)
  else none

def Inserts (storage : Disk) (x : Arguments × Int) (storage' : Disk) : Prop := main storage x.1 = some (x.2,storage')

-- What a boot from the image has: the volume that the insertions have made.
structure Images (storage : Disk) (v : Volume) : Prop where
  intact : Fat32.Intact v
  mounted : initialize_filesystem_fat32 ⟨storage,fun _ => 0⟩ = v.driver
  signed : is_empty_storage v.driver = false
  stored : v.driver.cluster 1 = Fat32.fatBytes v.driver.cluster_map

theorem remounts {v : Volume} (signed : is_empty_storage v.driver = false)
    (stored : v.driver.cluster 1 = Fat32.fatBytes v.driver.cluster_map) (map : Fat32.ClusterMap) :
    initialize_filesystem_fat32 ⟨v.driver.disk,map⟩ = v.driver := by
  have signed' : is_empty_storage ⟨v.driver.disk,map⟩ = false := signed
  have cluster : Fat32.read_clusters v.driver.disk Fat32.FAT_CLUSTER_NUMBER 1 = v.driver.cluster 1 := Fat32.read_clusters_eq ..
  simp only [initialize_filesystem_fat32,signed',Bool.false_eq_true,if_false,cluster,stored]
  rw [Fat32.fatBytes,Fat32.clusterMap_clip]

theorem blank_images {storage : Disk} (blank : is_empty_storage ⟨storage,fun _ => 0⟩ = true) :
    Images storage (Fat32.formatted ⟨storage,fun _ => 0⟩) := by
  refine ⟨Fat32.formatted_intact _,?_,Fat32.create_fat32_signed _,Fat32.formatted_stored _⟩
  exact congrArg Volume.driver (Fat32.initialized_formatted blank)

def written (x : Arguments × Int) : FsAction × Int := (.write x.1.file_buffer x.1.request,x.2)

def Rooted (x : Arguments) : Prop := x.request.parent_cluster_number = Fat32.ROOT_CLUSTER_NUMBER ∧ x.request.Named

-- An insertion is a write to the volume, and the next run of the tool or of the kernel
-- finds what it left.
theorem Images.step {storage storage' : Disk} {v : Volume} {x : Arguments × Int} (images : Images storage v)
    (inserts : Inserts storage x storage') (rooted : Rooted x.1) (whole : x.2 ≠ -1) :
    ∃ v', v.Answered (written x) v' ∧ Images storage' v' := by
  obtain ⟨x,code⟩ := x
  obtain ⟨inside,ran⟩ := Option.ite_none_right_eq_some.mp inserts
  obtain ⟨⟨code',s⟩,written,same⟩ := Option.map_eq_some_iff.mp ran
  cases same
  rw [initialized_same,images.mounted,write_same inside] at written
  have addressed : v.Addressed x.request := ⟨2,images.intact.root,rooted.1⟩
  obtain ⟨code',v',responds,_⟩ := Fat32.request_effect images.intact (.write x.file_buffer x.request) addressed trivial
  have answer : Fat32.write v.driver x.file_buffer x.request = some (code',v'.driver) := Fat32.respond_driver responds
  rw [written] at answer
  cases answer
  have answered : v.Answered (.write x.file_buffer x.request,code) v' := ⟨Or.inl rooted.2,addressed,responds⟩
  have effect := Fat32.Answered.effect images.intact answered
  have signed := effect.signed images.intact images.signed
  have stored : v'.driver.cluster 1 = Fat32.fatBytes v'.driver.cluster_map := by
    cases effect with
    | refused => exact images.stored
    | folder _ _ _ stored => exact stored
    | file _ _ _ _ _ stored => exact stored
    | short => exact absurd rfl whole
  exact ⟨v',answered,effect.intact images.intact,remounts signed stored _,signed,stored⟩

theorem Images.run {storage storage' : Disk} {v : Volume} {history : List (Transition Disk (Arguments × Int))}
    (images : Images storage v) (run : Run Inserts storage history storage')
    (rooted : ∀ t ∈ history, Rooted t.action.1) (whole : ∀ t ∈ history, t.action.2 ≠ -1) :
    ∃ steps v', Run Volume.Answered v steps v' ∧ Images storage' v' ∧
      ∀ s ∈ steps, ∀ other : FAT32DriverRequest, s.action ≠ (.delete other,0) := by
  have good : Run (fun storage x storage' => Inserts storage x storage' ∧ Rooted x.1 ∧ x.2 ≠ -1) storage history storage' :=
    run.restrict fun t member => ⟨rooted t member,whole t member⟩
  have matched (storage : Disk) (x : Arguments × Int) (storage' : Disk) (v : Volume) (images : Images storage v)
      (taken : Inserts storage x storage' ∧ Rooted x.1 ∧ x.2 ≠ -1) :
      ∃ v', v.Answered (written x) v' ∧ Images storage' v' := images.step taken.1 taken.2.1 taken.2.2
  obtain ⟨steps,v',run',images',pairs⟩ := good.simulated images matched
  refine ⟨steps,v',run',images',fun s member other same => ?_⟩
  obtain ⟨t,_,pair⟩ := paired_mem pairs member
  have labelled := pair.action.symm.trans same
  simp [written] at labelled

-- What a write stored fits in the clusters that the FAT has.
theorem answered_fits {v v' : Volume} {memory : Memory} {request : FAT32DriverRequest} (intact : Fat32.Intact v)
    (answered : v.Answered (.write memory request,0) v') : ¬ (0x100000 : Word) < request.buffer_size := by
  intro large
  have size : 0x100000 < request.buffer_size.toNat := large
  cases Fat32.Answered.effect intact answered with
  | refused failed => exact failed rfl
  | folder empty =>
    rw [empty] at size
    exact absurd size (by decide)
  | file _ _ _ _ enough =>
    have most : (Fat32.freeCells v.driver.cluster_map).card ≤ 512 := (Finset.card_le_univ _).trans (by simp)
    rw [Fat32.ceil_eq] at enough
    omega

-- The file of a successful insertion can be read from the image for good.
theorem inserted_reads {storage₀ storage : Disk} {history : List (Transition Disk (Arguments × Int))}
    {t : Transition Disk (Arguments × Int)} (blank : is_empty_storage ⟨storage₀,fun _ => 0⟩ = true)
    (run : Run Inserts storage₀ history storage) (rooted : ∀ t ∈ history, Rooted t.action.1)
    (whole : ∀ t ∈ history, t.action.2 ≠ -1) (member : t ∈ history) (success : t.action.2 = 0)
    (data : t.action.1.request.buffer_size ≠ 0) :
    ¬ (0x100000 : Word) < t.action.1.request.buffer_size ∧ Fat32.ReadsSubmitted
      (initialize_filesystem_fat32 ⟨storage,fun _ => 0⟩) t.action.1.file_buffer t.action.1.request := by
  obtain ⟨front,back,rfl⟩ := List.append_of_mem member
  obtain ⟨middle,run₁,later⟩ := run.split
  obtain ⟨rfl,inserts,run₂⟩ := later.uncons
  obtain ⟨before,⟨x,code⟩,after⟩ := t
  simp only at success run₁ inserts run₂ data
  subst success
  obtain ⟨steps,v,written₁,images,early⟩ := (blank_images blank).run run₁ (fun u earlier => rooted u (by simp [earlier]))
    fun u earlier => whole u (by simp [earlier])
  obtain ⟨v',answered,images'⟩ := images.step inserts (rooted _ member) (by simp)
  obtain ⟨steps',last,written₂,images'',late⟩ := images'.run run₂ (fun u later => rooted u (by simp [later]))
    fun u later => whole u (by simp [later])
  obtain ⟨named,st,d,refines,parent,there⟩ := Fat32.written_held (written₁.append (Run.cons answered written₂)) data
    (fun u member other same => absurd same (early u member other)) fun u member other same => absurd same (late u member other)
  rw [images''.mounted]
  exact ⟨answered_fits images.intact answered,(refines.reads named parent there).2⟩

end Sosis.Inserter

namespace Sosis.Kernel
open AddressSpaces TransitionRuns PagingState
open ByteRecords (Byte)
open Fat32 (Word Memory Disk DriverState FAT32DriverRequest CLUSTER_SIZE)

-- What read stores below the end of the first page is stored on that page.
theorem storesMapped_low {table : PageDirectory} (own : Own (table 0) = true) (s : DriverState) {turns : Nat} {buffer p : Word}
    (low : buffer.toNat + CLUSTER_SIZE*turns ≤ 2^22) : storesMapped table s turns buffer p = true := by
  induction turns generalizing buffer p with
  | zero => rfl
  | succ turns ih =>
    have next : (buffer + BitVec.ofNat 32 CLUSTER_SIZE).toNat = buffer.toNat + CLUSTER_SIZE := by
      simp only [CLUSTER_SIZE] at low ⊢
      rw [BitVec.toNat_add,BitVec.toNat_ofNat]
      omega
    unfold storesMapped
    split
    · rfl
    · rw [Bool.and_eq_true]
      refine ⟨List.all_eq_true.mpr fun x member => ?_,?_⟩
      · have inside := List.mem_range.mp member
        have page : page_index (buffer + BitVec.ofNat 32 x) = 0 := by
          apply BitVec.eq_of_toNat_eq
          rw [page_index_toNat,BitVec.toNat_add,BitVec.toNat_ofNat,show (0 : PageIndex).toNat = 0 from rfl]
          simp only [CLUSTER_SIZE] at *
          omega
        rw [page]
        exact own
      · split
        · refine ih ?_
          rw [next]
          simp only [CLUSTER_SIZE] at *
          omega
        · rfl

namespace System

-- What the kernel does for the shell when it boots, whatever the drive holds.
structure ShellStarts (k k' : KernelState) (page_dir : PageDirectoryPtr) : Prop where
  creates : KernelState.boot.process_create_user_process shellRequest = some (PROCESS_CREATE_SUCCESS,k)
  slot : KernelState.boot.process_list_get_inactive_index = some 0
  directory : (k.process_list 0).context.page_directory_virtual_addr = some page_dir
  entry : k.paging.directory page_dir 0x300 = kernel_entry
  own : Own (k.paging.directory page_dir 0) = true
  created : k.active 0 = true ∧ k.cur_idx = -1 ∧ k.active_process_count ≠ 0
  first : k.operate .first = some k'
  switched : k'.active 0 = true ∧ k'.cur_idx = 0 ∧ (k'.process_list 0).context.eip = 0

theorem shell_starts : ∃ k k' page_dir, ShellStarts k k' page_dir := by
  have checked : ((KernelState.boot.process_create_user_process shellRequest).any fun created =>
      created.1 == PROCESS_CREATE_SUCCESS && (created.2.process_list 0).context.page_directory_virtual_addr.any fun page_dir =>
        decide (KernelState.boot.process_list_get_inactive_index = some 0 ∧
          created.2.paging.directory page_dir 0x300 = kernel_entry ∧ Own (created.2.paging.directory page_dir 0) = true ∧
          created.2.active 0 = true ∧ created.2.cur_idx = -1 ∧ created.2.active_process_count ≠ 0) &&
        (created.2.operate .first).any fun k => decide (k.active 0 = true ∧ k.cur_idx = 0 ∧ (k.process_list 0).context.eip = 0))
      = true := by decide +kernel
  obtain ⟨⟨code,k⟩,creates,found⟩ := (Option.any_eq_true _ _).mp checked
  obtain ⟨success,found⟩ := Bool.and_eq_true_iff.mp found
  obtain ⟨page_dir,directory,found⟩ := (Option.any_eq_true _ _).mp found
  obtain ⟨kernel,found⟩ := Bool.and_eq_true_iff.mp found
  obtain ⟨k',first,switched⟩ := (Option.any_eq_true _ _).mp found
  obtain ⟨slot,entry,own,created⟩ := of_decide_eq_true kernel
  obtain rfl : code = PROCESS_CREATE_SUCCESS := beq_iff_eq.mp success
  exact ⟨k,k',page_dir,creates,slot,directory,entry,own,created,first,of_decide_eq_true switched⟩

section starts
variable {k k' : KernelState} {page_dir : PageDirectoryPtr} {s : DriverState} {memory filled : Word → Byte}

theorem ShellStarts.creation (starts : ShellStarts k k' page_dir) {seen : Memory}
    (reads : Fat32.read s ((k.paging.directory page_dir).shown memory) shellRequest = some (0,seen))
    (settled : settle (k.paging.directory page_dir).back seen memory = filled) :
    (Computer.power s memory).create shellRequest = some ⟨k,s,filled⟩ := by
  have mapped : imageMapped (k.paging.directory page_dir) s shellRequest = true := by
    unfold imageMapped
    dsimp only
    split
    · rfl
    · exact storesMapped_low starts.own s (by decide)
  have into : readInto (k.paging.directory page_dir) s ((k.paging.directory page_dir).shown memory) shellRequest =
      some (0,seen) := by
    rw [readInto,reads,Option.bind_some,mapped]
    rfl
  simp only [Computer.create,Computer.power,starts.creates,Option.bind_some,ne_eq,not_true_eq_false,if_false,starts.slot,
    starts.directory,LoadState.load,starts.entry,if_true,into,Option.map_some,settled]

theorem ShellStarts.power (starts : ShellStarts k k' page_dir) (creates : (Computer.power s memory).create shellRequest =
    some ⟨k,s,filled⟩) : Computer.Next ⟨k,s,filled⟩ (.call .first) ⟨k',s,filled⟩ ∧ KernelState.Secure k := by
  have switches : Computer.operate ⟨k,s,filled⟩ (.call .first) = some ⟨k',s,filled⟩ := by
    simp only [Computer.operate,starts.first,Option.map_some]
  have empty : KernelState.boot.Obeys .init ∧ KernelState.boot.Secludes .init := by decide +kernel
  obtain ⟨secure,_,_⟩ := @Computer.Next.step (.power s memory) ⟨k,s,filled⟩ (.call .init) KernelState.boot_secure
    ⟨empty,creates⟩
  exact ⟨⟨⟨⟨starts.created.2,trivial⟩,trivial⟩,switches⟩,secure⟩

-- The boot with a drive from which read fills the first page without an error.
theorem kernel_setup_loads {disk : Disk} {seen : Memory → Memory}
    (reads : ∀ reader, Fat32.read (Fat32.initialize_filesystem_fat32 ⟨disk,fun _ => 0⟩) reader shellRequest =
      some (0,seen reader)) :
    ∃ (m : System) (reader : Memory), kernel_setup disk memory = some m ∧ m.kernel.cur_idx = 0 ∧ m.kernel.active 0 = true ∧
      (m.kernel.process_list 0).context.eip = 0 ∧
      ∀ a : Word, page_index a = 0 → m.computer.sees 0 a = some (seen reader a) := by
  obtain ⟨k,k',page_dir,starts⟩ := shell_starts
  generalize reached : Fat32.initialize_filesystem_fat32 ⟨disk,fun _ => 0⟩ = s at reads
  generalize settled : settle (k.paging.directory page_dir).back (seen ((k.paging.directory page_dir).shown memory)) memory =
    filled
  have creates := starts.creation (reads _) settled
  obtain ⟨next,secure⟩ := starts.power creates
  obtain ⟨_,kept,_⟩ := Computer.Next.step secure next
  have sees : Computer.sees ⟨k',s,filled⟩ 0 = Computer.sees ⟨k,s,filled⟩ 0 := kept 0 starts.created.1 starts.switched.1
  refine ⟨(power s memory).withComputer ⟨k',s,filled⟩,(k.paging.directory page_dir).shown memory,?_,starts.switched.2.1,
    starts.switched.1,starts.switched.2.2,fun a page => ?_⟩
  · rw [kernel_setup,reached]
    have begins : (power s memory).computer.operate (.call .init) = some ⟨k,s,filled⟩ := creates
    simp only [begins,Option.bind_some,next.2,Option.map_some]
  · rw [show ((power s memory).withComputer ⟨k',s,filled⟩).computer = ⟨k',s,filled⟩ from rfl,sees]
    rcases Computer.creation_cases creates with same | ⟨j,d,loaded⟩
    · have active := starts.created.1
      rw [show k = KernelState.boot from congrArg Computer.kernel same] at active
      cases active
    · obtain ⟨opened,created⟩ := loaded.created
      cases starts.slot.symm.trans created.slot
      cases starts.directory.symm.trans created.directory
      refine loaded.sees secure settled.symm ?_
      rw [page]
      exact starts.own

end starts

open Inserter in
-- The file that was inserted as the shell is the program the kernel starts with: it lies
-- in the memory of the running process, where that process begins.
theorem inserted_shell_boots {storage₀ storage : Disk} {memory : Word → Byte}
    {history : List (Transition Disk (Arguments × Int))} {t : Transition Disk (Arguments × Int)} {program : List Byte}
    (blank : Fat32.is_empty_storage ⟨storage₀,fun _ => 0⟩ = true) (run : Run Inserts storage₀ history storage)
    (rooted : ∀ t ∈ history, Rooted t.action.1) (whole : ∀ t ∈ history, t.action.2 ≠ -1) (member : t ∈ history)
    (name : scanName t.action.1.argv1 = shellName) (file : t.action.1.target = some program) (data : program ≠ [])
    (small : program.length ≤ STORAGE_SIZE) (success : t.action.2 = 0) :
    ∃ m : System, kernel_setup storage memory = some m ∧ m.kernel.cur_idx = 0 ∧ m.kernel.active 0 = true ∧
      (m.kernel.process_list 0).context.eip = 0 ∧
      ∀ k (inside : k < program.length), m.computer.sees 0 (BitVec.ofNat 32 k) = some program[k] := by
  have size : t.action.1.request.buffer_size.toNat = program.length := by
    simp only [Arguments.request,file,Option.map_some,Option.getD_some,BitVec.toNat_ofNat,STORAGE_SIZE] at small ⊢
    omega
  have some_ : t.action.1.request.buffer_size ≠ 0 := by
    intro zero
    rw [zero] at size
    exact data (List.length_eq_zero_iff.mp size.symm)
  obtain ⟨fits,reads⟩ := inserted_reads blank run rooted whole member success some_
  have shell : {t.action.1.request with buf := 0,buffer_size := 0x100000} = shellRequest := by
    have parent := (rooted t member).1
    have named : t.action.1.request.name = shellName := name
    dsimp only
    rw [parent,named]
    rfl
  choose result read answer using fun reader : Memory => reads reader 0 0x100000
  rw [shell] at read
  have filled (reader : Memory) : (result reader).1 = 0 ∧ ∀ k < program.length,
      (result reader).2.at 0 k = t.action.1.file_buffer.at 0 k := by
    have here := answer reader
    rw [if_neg fits,size] at here
    exact here
  obtain ⟨m,reader,started,cur,active,eip,sees⟩ := @kernel_setup_loads memory storage (fun reader => (result reader).2)
    fun reader => (read reader).trans (congrArg some (Prod.ext (filled reader).1 rfl))
  refine ⟨m,started,cur,active,eip,fun k inside => ?_⟩
  have most : program.length ≤ 0x100000 := by
    rw [← size]
    exact Nat.le_of_not_lt fits
  have number : (BitVec.ofNat 32 k).toNat = k := by
    rw [BitVec.toNat_ofNat]
    omega
  have page : page_index (BitVec.ofNat 32 k) = 0 := by
    apply BitVec.eq_of_toNat_eq
    rw [page_index_toNat,number,show (0 : PageIndex).toNat = 0 from rfl]
    omega
  have byte := (filled reader).2 k inside
  simp only [Memory.at,zero_add] at byte
  rw [sees _ page,byte]
  simp only [Arguments.file_buffer,file,number,STORAGE_SIZE]
  rw [if_pos (by omega),List.getElem?_eq_getElem inside,Option.getD_some]

open Inserter in
def shellArguments : Arguments := ⟨[115,104,101,108,108],[50],some [0xEB,0xFE],fun _ => 0⟩

open Inserter in
def clockArguments : Arguments := ⟨[99,108,111,99,107],[50],some [0x90,0x90,0xC3],fun _ => 0⟩

open Inserter in
-- A blank image, a program that jumps to itself, and another program behind it.
theorem inserted_shell_boots_loop : ∃ storage storage' m, Inserts (fun _ => 0) (shellArguments,0) storage ∧
    Inserts storage (clockArguments,0) storage' ∧
    kernel_setup storage' (fun _ => 0) = some m ∧ m.kernel.cur_idx = 0 ∧ m.kernel.active 0 = true ∧
      (m.kernel.process_list 0).context.eip = 0 ∧
      ∀ k (inside : k < [(0xEB : Byte),0xFE].length), m.computer.sees 0 (BitVec.ofNat 32 k) = some [(0xEB : Byte),0xFE][k] := by
  have rooted : Rooted shellArguments := ⟨rfl,fun unnamed => absurd (congrFun unnamed.1 0) (by decide)⟩
  have rooted' : Rooted clockArguments := ⟨rfl,fun unnamed => absurd (congrFun unnamed.1 0) (by decide)⟩
  have checked : ((main (fun _ => 0) shellArguments).any (fun result => result.1 == 0 &&
      (main result.2 clockArguments).any fun result' => result'.1 == 0) &&
      Fat32.is_empty_storage ⟨fun _ => 0,fun _ => 0⟩) = true := by decide +kernel
  obtain ⟨inserted,blank⟩ := Bool.and_eq_true_iff.mp checked
  obtain ⟨⟨code,storage⟩,ran,later⟩ := (Option.any_eq_true _ _).mp inserted
  obtain ⟨zero,later⟩ := Bool.and_eq_true_iff.mp later
  obtain ⟨⟨code',storage'⟩,ran',zero'⟩ := (Option.any_eq_true _ _).mp later
  obtain rfl : code = 0 := beq_iff_eq.mp zero
  obtain rfl : code' = 0 := beq_iff_eq.mp zero'
  have inserts : Inserts (fun _ => 0) (shellArguments,0) storage := ran
  have inserts' : Inserts storage (clockArguments,0) storage' := ran'
  have name : scanName shellArguments.argv1 = shellName := by decide
  obtain ⟨m,booted⟩ := @inserted_shell_boots (fun _ => 0) storage' (fun _ => 0) _ _ [0xEB,0xFE] blank
    ((Run.single inserts).append (Run.single inserts')) (by simpa using ⟨rooted,rooted'⟩) (by simp) (List.mem_cons_self) name rfl
    (by simp) (by decide) rfl
  exact ⟨storage,storage',m,inserts,inserts',booted⟩

end System

end Sosis.Kernel
