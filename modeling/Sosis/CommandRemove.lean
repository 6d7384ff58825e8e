import Sosis.CommandCopyPath
import Sosis.StringWords

-- rm of command-shell.c. It looks for its file in the root directory and removes it there,
-- wherever the prompt is.
namespace Sosis.Command
open ByteRecords Fat32 TransitionRuns

-- The loop that looks for the flag: the last word that is one.
def findRecursive (command : List Byte) : List Nat → Option Nat → Option (Option Nat)
  | [],recursive => some recursive
  | i :: rest,recursive => do
    let word ← getWord command i (wordLen command i + 1)
    findRecursive command rest (if word = chars "-r" then some i else recursive)

-- "check if all files exists"; `false` is a return.
def checkFiles (table_buf : Word) (command : List Byte) (recursive : Option Nat) : List Nat → Shell → Option (Bool × Shell)
  | [],st => some (true,st)
  | i :: rest,st =>
    if recursive = some i then checkFiles table_buf command recursive rest st
    else do
      let filename ← getWord command i 12
      match parseFileName filename with
      | none => some (false,(st.putBytes filename 0x07).puts ": filename invalid, name or extension may be too long\n" 0x07)
      | some (name,ext) =>
        let (retcode,st) := st.read_directory ⟨table_buf,name,ext,2,sizeofTable⟩
        if retcode = 2 then some (false,((st.puts "Error: " 0x04).putBytes filename 0x07).puts " not found\n" 0x07)
        else if retcode = 0 ∧ recursive = none then
          some (false,((st.puts "Error: " 0x04).putBytes filename 0x07).puts " is a directory;  -r not specified\n" 0x07)
        else checkFiles table_buf command recursive rest st

-- syscall(18,cur_cluster,"",true)
def Shell.update_shell_dir (st : Shell) : Shell := {st with cwd_table := st.driver.directory st.cur_cluster}

def removeFiles (remove_buf : Word) (command : List Byte) (recursive : Option Nat) : List Nat → Shell → Option Shell
  | [],st => some st
  | i :: rest,st =>
    if recursive = some i then removeFiles remove_buf command recursive rest st
    else do
      let filename ← getWord command i 12
      match parseFileName filename with
      | none => some (((st.puts "Error: " 0x04).putBytes filename 0x07).puts
          " filename invalid, name or extension may be too long\n" 0x07)
      | some (name,ext) =>
        let st ← remove st name ext 2 remove_buf
        removeFiles remove_buf command recursive rest st.update_shell_dir

def rm (table_buf remove_buf : Word) (st : Shell) (command : List Byte) : Option Shell :=
  let n_words := countWords command
  if n_words ≠ 2 then some ((st.puts "Error: " 0x04).puts "Invalid syntax\nrm <file/folder>\n" 0x07)
  else do
    let arguments := List.range' 1 (n_words-1)
    let recursive ← findRecursive command arguments none
    if recursive = none ∧ n_words < 2 ∨ recursive ≠ none ∧ n_words < 3 then
      some ((st.puts "Error: " 0x04).puts ": missing file operands\n" 0x07)
    else
      let (found,st) ← checkFiles table_buf command recursive arguments st
      if found then removeFiles remove_buf command recursive arguments st else some st

-- The file that a name means in one directory.
def FileHere (v : Volume) (cluster : Word) (name : Name) (ext : Ext) (z : Place) : Prop :=
  v.Live z ∧ cellNumber z.dir = cluster ∧ ¬ v.Folder z ∧ (v.entry z).Named name ext

-- The file of that name there is gone, and every other entry is as it was.
def RemovesHere (v : Volume) (cluster : Word) (name : Name) (ext : Ext) (result : Option Shell) : Prop :=
  ∃ st', result = some st' ∧ (∀ z, FileHere v cluster name ext z → ¬ (⟨st'.driver,v.dirs⟩ : Volume).Live z) ∧
    ∀ z, v.Live z → ¬ FileHere v cluster name ext z → Undisturbed v ⟨st'.driver,v.dirs⟩ z

-- An empty name is that of a dead slot, whose cluster is 0.
def Strays (v : Volume) (name : Name) (ext : Ext) : Prop := ∃ i, findEntry (v.driver.table 2) name ext = some i ∧
  (v.entry ⟨2,i⟩).attr ≠ ATTR_SUBDIRECTORY ∧ ¬ v.Live ⟨2,i⟩

-- In the root directory the file must not be marked as a directory; elsewhere there must
-- be no file of the name to remove, neither here nor in the root directory. The flag is
-- not taken for a file, and a name of 12 characters does not fit.
def RmFinds (v : Volume) (cluster : Word) (arg : List Byte) (name : Name) (ext : Ext) : Prop :=
  if arg = chars "-r" then ∀ z, ¬ FileHere v cluster name ext z
  else (arg.length ≤ 11 ∧ ¬ Strays v name ext) ∧
    if cluster = ROOT_CLUSTER_NUMBER then ∀ z, FileHere v cluster name ext z → (v.entry z).attr ≠ ATTR_SUBDIRECTORY
    else (∀ z, ¬ FileHere v cluster name ext z) ∧
      ∀ z, FileHere v ROOT_CLUSTER_NUMBER name ext z → (v.entry z).attr = ATTR_SUBDIRECTORY

-- The line at the prompt, and its one argument.
structure RmLine (command arg : List Byte) : Prop where
  words : countWords command = 2
  argument : getWord command 1 (wordLen command 1 + 1) = some arg

section run
variable {v : Volume} {st : Shell} {command arg : List Byte} {name : Name} {ext : Ext} {cluster table_buf remove_buf : Word}

theorem rm_flag (line : RmLine command arg) (flag : arg = chars "-r") :
    rm table_buf remove_buf st command = some ((st.puts "Error: " 0x04).puts ": missing file operands\n" 0x07) := by
  have one : List.range' 1 (2-1) = [1] := rfl
  simp [rm,line.words,one,findRecursive,line.argument,flag]

theorem rm_overflows (line : RmLine command arg) (file : arg ≠ chars "-r") (long : ¬ arg.length ≤ 11) :
    rm table_buf remove_buf st command = none := by
  have one : List.range' 1 (2-1) = [1] := rfl
  have none : getWord command 1 12 = none := getWord_spills line.argument long
  simp [rm,line.words,one,findRecursive,line.argument,file,checkFiles,none]

-- What it does with a name that fits.
theorem rm_eq (line : RmLine command arg) (file : arg ≠ chars "-r") (fits : arg.length ≤ 11)
    (parsed : parseFileName arg = some (name,ext)) :
    rm table_buf remove_buf st command =
      let (retcode,st) := st.read_directory ⟨table_buf,name,ext,2,sizeofTable⟩
      if retcode = 2 then some (((st.puts "Error: " 0x04).putBytes arg 0x07).puts " not found\n" 0x07)
      else if retcode = 0 then
        some (((st.puts "Error: " 0x04).putBytes arg 0x07).puts " is a directory;  -r not specified\n" 0x07)
      else (remove st name ext 2 remove_buf).map Shell.update_shell_dir := by
  have one : List.range' 1 (2-1) = [1] := rfl
  have word : getWord command 1 12 = some arg := getWord_fits line.argument fits
  simp only [rm,line.words,one,findRecursive,line.argument,file,checkFiles,removeFiles,word,parsed,Option.bind_eq_bind,
    Option.bind_some]
  generalize st.read_directory ⟨table_buf,name,ext,2,sizeofTable⟩ = answer
  obtain ⟨retcode,st'⟩ := answer
  by_cases absent : retcode = 2
  · simp [absent]
  · by_cases folder : retcode = 0
    · simp [folder]
    · simp [absent,folder,Option.map_eq_bind]

-- rm has removed nothing.
theorem removesHere_still {st' : Shell} (same : st'.driver = v.driver) :
    RemovesHere v cluster name ext (some st') ↔ ∀ z, ¬ FileHere v cluster name ext z := by
  have volume : (⟨st'.driver,v.dirs⟩ : Volume) = v := by rw [same]
  constructor
  · rintro ⟨_,ran,gone,_⟩ z there
    cases ran
    rw [volume] at gone
    exact gone z there there.1
  · intro nothing
    refine ⟨st',rfl,fun z there => absurd there (nothing z),fun z live _ => ?_⟩
    rw [volume]
    exact .refl live

-- What the look-up decides: the drive stays as it is, or the entry that was found goes.
theorem rm_cases (table_buf remove_buf : Word) (drive : st.driver = v.driver) (line : RmLine command arg)
    (file : arg ≠ chars "-r") (fits : arg.length ≤ 11) (parsed : parseFileName arg = some (name,ext)) :
    (∃ st', rm table_buf remove_buf st command = some st' ∧ st'.driver = v.driver ∧
      ∀ i, findEntry (v.driver.table 2) name ext = some i → (v.driver.table 2 i).attr = ATTR_SUBDIRECTORY) ∨
    ∃ i st₁, findEntry (v.driver.table 2) name ext = some i ∧ (v.driver.table 2 i).attr ≠ ATTR_SUBDIRECTORY ∧
      st₁.driver = v.driver ∧
      rm table_buf remove_buf st command = (remove st₁ name ext 2 remove_buf).map Shell.update_shell_dir := by
  have table : st.driver.directory 2 = v.driver.table 2 := by
    rw [drive]
    exact DriverState.directory_cell v.driver 2
  obtain ⟨retcode,st₁,asked,drive₁,absent,folder⟩ := st.read_directory_answer ⟨table_buf,name,ext,2,sizeofTable⟩
  simp only [table] at absent folder
  rw [rm_eq line file fits parsed,asked]
  by_cases missing : retcode = 2
  · refine .inl ⟨_,if_pos missing,drive₁.trans drive,fun i found => ?_⟩
    cases (absent.mp missing).symm.trans found
  · by_cases marked : retcode = 0
    · refine .inl ⟨_,(if_neg missing).trans (if_pos marked),drive₁.trans drive,fun i found => ?_⟩
      obtain ⟨j,found',attr⟩ := folder.mp marked
      cases found.symm.trans found'
      exact attr
    · obtain ⟨i,found⟩ := Option.ne_none_iff_exists'.mp fun none => missing (absent.mpr none)
      exact .inr ⟨i,st₁,found,fun attr => marked (folder.mpr ⟨i,found,attr⟩),drive₁.trans drive,
        (if_neg missing).trans (if_neg marked)⟩

variable (intact : Intact v)
include intact

theorem FileHere.found {z : Place} (there : FileHere v ROOT_CLUSTER_NUMBER name ext z) :
    z.dir = 2 ∧ findEntry (v.driver.table 2) name ext = some z.index := by
  obtain ⟨live,number,_,label⟩ := there
  have root : z.dir = 2 := cellNumber_injective number
  have found := intact.find_self live
  rw [label.1,label.2,root] at found
  exact ⟨root,found⟩

theorem FileHere.named {z : Place} (there : FileHere v cluster name ext z) : ¬ (name = (fun _ => 0) ∧ ext = fun _ => 0) := by
  obtain ⟨live,_,_,label⟩ := there
  exact fun unnamed => intact.named z live ⟨label.1.trans unnamed.1,label.2.trans unnamed.2⟩

-- The look-up takes a dead slot for a file, and the walk of delete leaves the table.
theorem rm_astray (grounded : Grounded v) (drive : st.driver = v.driver) (line : RmLine command arg)
    (file : arg ≠ chars "-r") (fits : arg.length ≤ 11) (parsed : parseFileName arg = some (name,ext))
    (strays : Strays v name ext) : rm table_buf remove_buf st command = none := by
  obtain ⟨i,found,plain,dead⟩ := strays
  rcases rm_cases table_buf remove_buf drive line file fits parsed with
    ⟨_,_,_,folders⟩ | ⟨_,st₁,_,_,drive₁,ran⟩
  · exact absurd (folders i found) plain
  · have cell0 : st₁.driver.cluster_map 0 = CLUSTER_0_VALUE := by
      rw [drive₁]
      exact intact.cell0
    have table : st₁.driver.directory 2 = v.driver.table 2 := by
      rw [drive₁]
      exact DriverState.directory_cell v.driver 2
    have start : (v.driver.table 2 i).cluster = 0 := grounded ⟨2,i⟩ ⟨intact.root,(findEntry_some.mp found).1⟩ dead
    have stuck : delete st₁.driver ⟨remove_buf,name,ext,2,0⟩ = none :=
      delete_astray cell0 (by rw [table]; exact found) (by rw [table]; exact plain) (by rw [table]; exact start)
    rw [ran]
    unfold remove Shell.delete
    simp only [stuck]
    rfl

-- What rm leaves of the drive.
theorem rm_vacates (table_buf remove_buf : Word) (drive : st.driver = v.driver) (line : RmLine command arg)
    (file : arg ≠ chars "-r") (fits : arg.length ≤ 11) (parsed : parseFileName arg = some (name,ext))
    (straight : ¬ Strays v name ext) :
    ∃ st', rm table_buf remove_buf st command = some st' ∧
      (st'.driver = v.driver ∧ (∀ z, FileHere v ROOT_CLUSTER_NUMBER name ext z → (v.entry z).attr = ATTR_SUBDIRECTORY) ∨
        ∃ x v', FileHere v ROOT_CLUSTER_NUMBER name ext x ∧ (v.entry x).attr ≠ ATTR_SUBDIRECTORY ∧ st'.driver = v'.driver ∧
          v'.dirs = v.dirs ∧ Vacated v 2 name ext v') := by
  rcases rm_cases table_buf remove_buf drive line file fits parsed with
    ⟨st',ran,still,folders⟩ | ⟨i,st₁,found,plain,drive₁,ran⟩
  · refine ⟨st',ran,.inl ⟨still,fun z there => ?_⟩⟩
    obtain ⟨root,at_⟩ := there.found intact
    obtain ⟨b,j⟩ := z
    cases root
    exact folders j at_
  · obtain ⟨low,label,_⟩ := findEntry_some.mp found
    have live : v.Live ⟨2,i⟩ := by
      by_contra dead
      exact straight ⟨i,found,plain,dead⟩
    have notFolder : ¬ v.Folder ⟨2,i⟩ := fun ⟨e,dir,cluster⟩ => plain (intact.folder _ live e dir cluster).1
    have here : FileHere v ROOT_CLUSTER_NUMBER name ext ⟨2,i⟩ := ⟨live,rfl,notFolder,label⟩
    obtain ⟨v',removed,vacated⟩ := remove_vacates intact intact.root (here.named intact) drive₁ remove_buf
    have gone : remove st₁ name ext 2 remove_buf = some {st₁ with driver := v'.driver} := removed
    have kept : v'.dirs = v.dirs := vacated.dirs_eq fun j at_ => by
      cases found.symm.trans at_
      exact notFolder
    exact ⟨Shell.update_shell_dir {st₁ with driver := v'.driver},ran.trans (congrArg (Option.map Shell.update_shell_dir) gone),
      .inr ⟨⟨2,i⟩,v',here,plain,rfl,kept,vacated⟩⟩

-- rm has removed a file in the root directory.
theorem removesHere_vacated {st' : Shell} {v' : Volume} {x : Place}
    (there : FileHere v ROOT_CLUSTER_NUMBER name ext x) (plain : (v.entry x).attr ≠ ATTR_SUBDIRECTORY)
    (drive' : st'.driver = v'.driver) (dirs : v'.dirs = v.dirs) (vacated : Vacated v 2 name ext v') :
    RemovesHere v cluster name ext (some st') ↔ cluster = ROOT_CLUSTER_NUMBER := by
  have volume : (⟨st'.driver,v.dirs⟩ : Volume) = v' := by rw [drive',← dirs]
  obtain ⟨root,found⟩ := there.found intact
  have named := there.named intact
  obtain ⟨live,number,_,label⟩ := there
  have absent : findEntry (v'.driver.table 2) name ext = none := by
    rcases vacated.absent_or intact named with absent | ⟨_,j,at_,marked,_⟩
    · exact absent
    · obtain ⟨b,i⟩ := x
      cases root
      cases found.symm.trans at_
      exact absurd marked plain
  constructor
  · rintro ⟨_,ran,_,frame⟩
    cases ran
    by_contra other
    have kept := frame x live fun here => other (here.2.1.symm.trans number)
    rw [volume] at kept
    exact vacated.gone intact absent kept.live ⟨root,label⟩
  · rintro rfl
    refine ⟨st',rfl,fun z here stays => ?_,fun z liveZ other => ?_⟩
    · rw [volume] at stays
      exact vacated.gone intact absent stays ⟨(here.found intact).1,here.2.2.2⟩
    · rw [volume]
      refine vacated.undisturbed intact liveZ fun dir label' => other ⟨liveZ,congrArg cellNumber dir,?_,label'⟩
      rintro ⟨e,inDirs,cluster⟩
      have same : z = x := intact.unique z x liveZ live (dir.trans root.symm)
        ⟨label'.1.trans label.1.symm,label'.2.trans label.2.symm⟩
      exact plain (same ▸ (intact.folder z liveZ e inDirs cluster).1)

end run

-- rm acts on the current directory exactly when that is the root directory and the file is
-- not marked, or there is nothing to remove.
theorem rm_acts_here_iff {s : DriverState} {history : List (Transition Volume FsAction)} {v : Volume} {st : Shell}
    {command arg : List Byte} {name : Name} {ext : Ext} (run : Run Volume.ClearStep (formatted s) history v)
    (drive : st.driver = v.driver) (line : RmLine command arg) (parsed : parseFileName arg = some (name,ext))
    (table_buf remove_buf : Word) :
    RemovesHere v st.cur_cluster name ext (rm table_buf remove_buf st command) ↔ RmFinds v st.cur_cluster arg name ext := by
  obtain ⟨intact,_⟩ := Run.sized run
  unfold RmFinds
  by_cases flag : arg = chars "-r"
  · rw [if_pos flag,rm_flag line flag]
    exact removesHere_still drive
  · rw [if_neg flag]
    by_cases fits : arg.length ≤ 11
    · by_cases strays : Strays v name ext
      · rw [rm_astray intact (Run.grounded run) drive line flag fits parsed strays]
        exact iff_of_false (fun ⟨_,ran,_⟩ => nomatch ran) fun both => both.1.2 strays
      rw [and_iff_right ⟨fits,strays⟩]
      obtain ⟨st',ran,result⟩ := rm_vacates intact table_buf remove_buf drive line flag fits parsed strays
      rw [ran]
      rcases result with ⟨same,marked⟩ | ⟨x,v',there,plain,drive',dirs,vacated⟩
      · rw [removesHere_still same]
        split
        · rename_i root
          rw [root]
          exact forall_congr' fun z =>
            ⟨fun nothing there => absurd there nothing,fun plain there => plain there (marked z there)⟩
        · exact (and_iff_left marked).symm
      · rw [removesHere_vacated intact there plain drive' dirs vacated]
        split
        · rename_i root
          refine iff_of_true root fun z here => ?_
          rw [root] at here
          have same : z = x := intact.unique z x here.1 there.1 ((here.found intact).1.trans (there.found intact).1.symm)
            ⟨here.2.2.2.1.trans there.2.2.2.1.symm,here.2.2.2.2.trans there.2.2.2.2.symm⟩
          exact same ▸ plain
        · rename_i other
          exact iff_of_false other fun both => plain (both.2 x there)
    · rw [rm_overflows line flag fits]
      exact iff_of_false (fun ⟨_,ran,_⟩ => nomatch ran) fun both => fits both.1.1

def removeSibling : List Byte := chars "rm abcd1"

theorem removeSibling_line : RmLine removeSibling (chars "abcd1") := ⟨by decide +kernel,by decide +kernel⟩

-- The file abcd1 in the root directory, and a shell at a prompt anywhere.
theorem sibling_here : ∃ history v, Run Volume.NamedStep (formatted blankDrive) history v ∧
    history.map Transition.action = siblings ∧ replay (create_fat32 blankDrive) siblings = some v.driver ∧
    parseFileName (chars "abcd1") = some ((v.entry ⟨2,3⟩).name,(v.entry ⟨2,3⟩).ext) ∧
    FileHere v ROOT_CLUSTER_NUMBER (v.entry ⟨2,3⟩).name (v.entry ⟨2,3⟩).ext ⟨2,3⟩ := by
  obtain ⟨history,v,run,actions,replayed,_,⟨live,_,parsed⟩,file,_⟩ := siblings_prompt
  exact ⟨history,v,run,actions,replayed,parsed,live,rfl,file,rfl,rfl⟩

theorem rm_acts_here_sibling : ∃ history v name ext, Run Volume.ClearStep (formatted blankDrive) history v ∧
    history.map Transition.action = siblings ∧ RmLine removeSibling (chars "abcd1") ∧
    parseFileName (chars "abcd1") = some (name,ext) ∧
    (RemovesHere v ROOT_CLUSTER_NUMBER name ext (rm 0 0 (shellOn v.driver) removeSibling) ↔
      RmFinds v ROOT_CLUSTER_NUMBER (chars "abcd1") name ext) := by
  obtain ⟨history,v,run,actions,_,parsed,there⟩ := sibling_here
  have clear := run.mono fun _ _ _ => NamedStep.clear
  have drive : (shellOn v.driver).driver = v.driver := rfl
  exact ⟨history,v,_,_,clear,actions,removeSibling_line,parsed,
    rm_acts_here_iff clear drive removeSibling_line parsed 0 0⟩

-- Typed in the folder d, the command removes the file of the root directory.
theorem rm_removes_elsewhere : ∃ history v name ext, Run Volume.NamedStep (formatted blankDrive) history v ∧
    history.map Transition.action = siblings ∧ parseFileName (chars "abcd1") = some (name,ext) ∧
    ¬ RemovesHere v 3 name ext (rm 0 0 {shellOn v.driver with cur_cluster := 3} removeSibling) := by
  obtain ⟨history,v,run,actions,replayed,parsed,there⟩ := sibling_here
  obtain ⟨intact,_⟩ := Run.sized (run.mono fun _ _ _ => NamedStep.clear)
  have plain : (replay (create_fat32 blankDrive) siblings).any (fun s => (s.table 2 3).attr ≠ ATTR_SUBDIRECTORY) = true := by
    decide +kernel
  rw [replayed,Option.any_some,decide_eq_true_eq] at plain
  have straight : ¬ Strays v (v.entry ⟨2,3⟩).name (v.entry ⟨2,3⟩).ext := by
    rintro ⟨i,found,_,dead⟩
    cases found.symm.trans (there.found intact).2
    exact dead there.1
  have drive : ({shellOn v.driver with cur_cluster := 3} : Shell).driver = v.driver := rfl
  obtain ⟨st',ran,result⟩ := rm_vacates intact 0 0 drive removeSibling_line (by decide) (by decide) parsed straight
  refine ⟨history,v,_,_,run,actions,parsed,?_⟩
  rw [ran]
  rcases result with ⟨_,marked⟩ | ⟨x,v',there',plain',drive',dirs,vacated⟩
  · exact absurd (marked ⟨2,3⟩ there) plain
  · rw [removesHere_vacated intact there' plain' drive' dirs vacated]
    decide

end Sosis.Command
