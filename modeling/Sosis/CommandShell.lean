import Sosis.Fat32Driver
import Sosis.CommandStrings

-- cp and mv of command-shell.c. The shell sees the drive through system calls only;
-- a result `none` is a run that indexes a table outside its slots, uses a variable
-- that was never set, or has not ended within the calls it was given.
namespace Sosis.Command
open ByteRecords Fat32

structure Report where
  val : List Byte
  color : Word
  deriving DecidableEq

-- Where one call of `copy` and of the `remove` next to it have their buffers on the
-- stack; the address of `data_buf` depends on the size it was given.
structure Frame where
  cl : Word
  src_table : Word
  data_buf : Word → Word
  remove_buf : Word

-- `cur_cluster` and `cwd_table` are the kernel's, behind system calls 19 and 22; the
-- table is a copy that no request on the drive updates.
structure Shell where
  driver : DriverState
  memory : Memory
  cur_cluster : Word
  cwd_table : DirectoryTable
  copy_status : Byte
  reports : List Report -- newest first

namespace Shell

def putBytes (st : Shell) (val : List Byte) (color : Word) : Shell := {st with reports := ⟨val,color⟩ :: st.reports}
def puts (st : Shell) (text : String) (color : Word) : Shell := st.putBytes (chars text) color
def puts_integer (st : Shell) (number : Int) : Shell := st.putBytes (integerText number) 0xF

def read (st : Shell) (request : FAT32DriverRequest) : Option (Int × Shell) :=
  (Fat32.read st.driver st.memory request).map fun (retcode,memory) => (retcode,{st with memory := memory})

def read_directory (st : Shell) (request : FAT32DriverRequest) : Int × Shell :=
  let result := Fat32.read_directory st.driver st.memory request
  (result.1,{st with memory := result.2})

def write (st : Shell) (request : FAT32DriverRequest) : Option (Int × Shell) :=
  (Fat32.write st.driver st.memory request).map fun (retcode,driver) => (retcode,{st with driver := driver})

def delete (st : Shell) (request : FAT32DriverRequest) : Option (Int × Shell) :=
  (Fat32.delete st.driver request).map fun (retcode,driver) => (retcode,{st with driver := driver})

end Shell

def remove (st : Shell) (name : Name) (ext : Ext) (parent_number data_buf : Word) : Option Shell := do
  let request : FAT32DriverRequest := ⟨data_buf,name,ext,parent_number,0⟩
  let (_,st) ← st.delete request
  let (_,st) ← st.delete request
  return st

structure Source where
  src_size : Word
  src_cluster_number : Word
  is_dir : Bool
  deriving DecidableEq

def sizeofEntry : Word := 32
def sizeofTable : Word := 2048

def fourBytes (name : Name) : Fin 4 → Byte := fun i => name ⟨i.val,by omega⟩

-- The search of copy for its source. A file that matches does not end it, and slots
-- are looked at whether they are in use or not.
def scan (src_name : Name) (src_ext : Ext) : List DirectoryEntry → Option Source → Option Source
  | [],found => found
  | e :: rest,found =>
    if memcmp (fourBytes e.name) (fourBytes src_name) = 0 ∧ memcmp e.ext src_ext = 0 then
      if e.attr = ATTR_SUBDIRECTORY then some ⟨sizeofTable,e.cluster,true⟩
      else scan src_name src_ext rest (some ⟨e.filesize,e.cluster,false⟩)
    else scan src_name src_ext rest found

def entries (table : DirectoryTable) : List DirectoryEntry := (List.finRange DIRECTORY_ENTRY_COUNT).map table

def findSource (table : DirectoryTable) (src_name : Name) (src_ext : Ext) : Option Source :=
  scan src_name src_ext (entries table) none

def targetCluster (table : DirectoryTable) (name : Name) (ext : Ext) : Option Word :=
  (entries table).foldl (fun found e =>
    if memcmp e.name name = 0 ∧ memcmp e.ext ext = 0 ∧ e.user_attribute = UATTR_NOT_EMPTY
      then some e.cluster else found) none

def clearTarget (frame : Frame) (st : Shell) (target_name : Name) (target_ext : Ext) (target_parent_number : Word) :
    Option Shell :=
  let (t_retcode,st) := st.read_directory ⟨frame.cl,target_name,target_ext,target_parent_number,sizeofEntry⟩
  if t_retcode ≠ 2 then remove st target_name target_ext target_parent_number frame.remove_buf else some st

def copyFile (frame : Frame) (st : Shell) (src_size : Word) (src_name : Name) (src_ext : Ext) (src_parent_number : Word)
    (target_name : Name) (target_ext : Ext) (target_parent_number : Word) : Option Shell := do
  let data_buf := frame.data_buf src_size
  let (_,st) ← st.read ⟨data_buf,src_name,src_ext,src_parent_number,src_size⟩
  let (retcode,st) ← st.write ⟨data_buf,target_name,target_ext,target_parent_number,src_size⟩
  let st := if retcode ≠ 0 then
    ((st.puts "Error: " 0x04).puts "Error writing to file" 0x07).puts_integer retcode else st
  return {st with copy_status := 0}

def copyFolder (frame : Frame) (st : Shell) (src_size : Word) (src_name : Name) (src_ext : Ext) (src_parent_number : Word)
    (target_name : Name) (target_ext : Ext) (target_parent_number : Word) :
    Option (DirectoryTable × Option Word × Shell) := do
  let (_,st) := st.read_directory ⟨frame.src_table,src_name,src_ext,src_parent_number,src_size⟩
  let src_table := directoryCodec.decode (st.memory.at frame.src_table)
  let (_,st) ← st.write ⟨frame.src_table,target_name,target_ext,target_parent_number,0⟩
  return (src_table,targetCluster (st.driver.directory target_parent_number) target_name target_ext,st)

-- The recursion of traverseFolder, for whatever is done with a file. The table is the
-- one of the moment of the call, whatever the visits do to it.
def walkFiles {σ : Type} (driver : σ → DriverState) (visit : Nat → σ → Word → DirectoryEntry → Option σ) :
    Nat → σ → Word → Option σ
  | 0,_,_ => none
  | fuel+1,st,cluster =>
    ((entries ((driver st).directory cluster)).drop 2).foldlM (fun st entry =>
      if entry.user_attribute ≠ UATTR_NOT_EMPTY then some st
      else if entry.attr = ATTR_SUBDIRECTORY then walkFiles driver visit fuel st entry.cluster
      else visit fuel st cluster entry) st

section commands
variable (frames : Nat → Frame)

-- The calls still allowed to nest come first.
def copy : Nat → Shell → Name → Ext → Word → Name → Ext → Word → Option Shell
  | 0,_,_,_,_,_,_,_ => none
  | fuel+1,st,src_name,src_ext,src_parent_number,target_name,target_ext,target_parent_number => do
    let st ← clearTarget (frames fuel) st target_name target_ext target_parent_number
    let source ← findSource (st.driver.directory src_parent_number) src_name src_ext
    if source.is_dir then
      let (src_table,target_cluster_number,st) ← copyFolder (frames fuel) st source.src_size src_name src_ext
        src_parent_number target_name target_ext target_parent_number
      let st ← ((entries src_table).drop 1).foldlM (fun (st : Shell) e =>
        if e.user_attribute = UATTR_NOT_EMPTY then do
          copy fuel st e.name e.ext source.src_cluster_number e.name e.ext (← target_cluster_number)
        else some st) st
      return {st with copy_status := 0}
    else
      copyFile (frames fuel) st source.src_size src_name src_ext src_parent_number target_name target_ext
        target_parent_number

def findFileFolder (cwd : DirectoryTable) (name : Name) (ext : Ext) : Option (Fin DIRECTORY_ENTRY_COUNT) :=
  FirstFit.firstFit (fun i => (cwd i).user_attribute == UATTR_NOT_EMPTY &&
    memcmp (cwd i).name name == 0 && memcmp (cwd i).ext ext == 0) 2

-- The turns still to come. The getDir behind the last component, whose result is not
-- used, is left out.
def followPath (s : DriverState) (path : List Byte) : Nat → Word → Nat → Option Word
  | 0,last_cluster,_ => some last_cluster
  | turns+1,last_cluster,lastIdx => do
    let (dir,lastIdx) ← getDir path slash lastIdx
    followPath s path turns (findCluster s ⟨0,dir,fun _ => 0,last_cluster,0⟩) lastIdx

def getLastCluster (st : Shell) (path : List Byte) : Option Word :=
  followPath st.driver path (countPath path) st.cur_cluster 0

def transfer (fuel : Nat) (isDelete : Bool) (st : Shell) (name : Name) (ext : Ext) (cluster destination : Word) :
    Option Shell := do
  let st ← copy frames fuel st name ext cluster name ext destination
  if isDelete then remove st name ext cluster (frames fuel).remove_buf else some st

def traverseFolder (fuel : Nat) (st : Shell) (cluster destination : Word) (isDelete : Bool) : Option Shell :=
  walkFiles Shell.driver (fun fuel st cluster entry =>
    transfer frames fuel isDelete st entry.name entry.ext cluster destination) fuel st cluster

def Shell.warn (st : Shell) (source_filename : List Byte) (dest_cluster : Word) : Shell :=
  if dest_cluster = 9999 then
    ((st.puts "Error: " 0x04).putBytes source_filename 0x07).puts "Invalid Destination Path.\n" 0x07 else st

def Shell.conclude (finished failed : String) (st : Shell) : Shell :=
  if st.copy_status = 0 then st.puts finished 0x07 else st.puts failed 0x07

def pathCommand (usage finished failed : String) (isDelete : Bool) (fuel : Nat) (st : Shell) (command : List Byte) :
    Option Shell :=
  if countWords command ≠ 3 then some ((st.puts "Error: " 0x04).puts usage 0x07)
  else do
    let source_filename ← getWord command 1 12
    let pathDest ← getWord command 2 100
    match parseFileName source_filename with
    | none =>
      some (((st.puts "Error: " 0x04).putBytes source_filename 0x07).puts ": Invalid source file name or extension.\n" 0x07)
    | some (source_name,source_ext) =>
      let dest_cluster ← getLastCluster st pathDest
      let st := st.warn source_filename dest_cluster
      -- without a slot the source goes on with cwd.table[-9999]
      let idx ← findFileFolder st.cwd_table source_name source_ext
      let entry := st.cwd_table idx
      let st ← if entry.attr ≠ ATTR_SUBDIRECTORY then
          transfer frames fuel isDelete st source_name source_ext st.cur_cluster dest_cluster
        else traverseFolder frames fuel st entry.cluster dest_cluster isDelete
      return st.conclude finished failed

def copyPath : Nat → Shell → List Byte → Option Shell :=
  pathCommand frames "Invalid syntax\ncp <source> <destination>\n" "Copy successful.\n"
    "Copy failed: unable to verify copy.\n" false

def mvPath : Nat → Shell → List Byte → Option Shell :=
  pathCommand frames "Invalid syntax\nmv <source> <destination>\n" "Move successful.\n"
    "Move failed: unable to verify copy.\n" true

end commands

end Sosis.Command
