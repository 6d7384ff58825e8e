import Sosis.CommandShell
import Sosis.Fat32Contents

-- What copy does to the files of an intact volume, request by request, and when cp of
-- one file is the copy it reports.
namespace Sosis.Command
open ByteRecords Fat32 FirstFit LinkedCells TransitionRuns

-- The ways the two deletes of `remove` leave the entry with the name.
inductive Vacated (v : Volume) (d : Cell) (name : Name) (ext : Ext) : Volume → Prop where
  | absent : findEntry (v.driver.table d) name ext = none → Vacated v d name ext v
  | blocked {i} : findEntry (v.driver.table d) name ext = some i → (v.entry ⟨d,i⟩).attr = ATTR_SUBDIRECTORY →
      isEmptyDir (v.driver.directory (v.entry ⟨d,i⟩).cluster) = false → Vacated v d name ext v
  | deleted {v' buf i c rest gone} : Deleted v v' ⟨buf,name,ext,cellNumber d,0⟩ d i c rest gone →
      v'.driver.table d = deleteEntry (v.driver.table d) i → Vacated v d name ext v'

section vacated
variable {v v' : Volume} {d : Cell} {name : Name} {ext : Ext} {z : Place}

theorem Vacated.intact (h : Vacated v d name ext v') (intact : Intact v) : Intact v' := by
  cases h with
  | absent => exact intact
  | blocked => exact intact
  | deleted deleted => exact deleted.removed.intact intact

theorem Vacated.sized (h : Vacated v d name ext v') (intact : Intact v) (sized : Sized v) : Sized v' := by
  cases h with
  | absent => exact sized
  | blocked => exact sized
  | deleted deleted => exact deleted.removed.sized intact sized

theorem Vacated.undisturbed (h : Vacated v d name ext v') (intact : Intact v) (live : v.Live z)
    (other : z.dir = d → ¬ (v.entry z).Named name ext) : Undisturbed v v' z := by
  cases h with
  | absent => exact .refl live
  | blocked => exact .refl live
  | deleted deleted =>
    refine deleted.removed.undisturbed intact live ?_
    rintro rfl
    exact other rfl (findEntry_some.mp deleted.found).2.1

theorem Vacated.live_before (h : Vacated v d name ext v') (intact : Intact v) (live : v'.Live z) : v.Live z := by
  cases h with
  | absent => exact live
  | blocked => exact live
  | deleted deleted => exact (deleted.removed.live_cases intact live).2.1

-- Past the deletes the name is absent, unless they were refused.
theorem Vacated.absent_or (h : Vacated v d name ext v') (intact : Intact v) (named : ¬ (name = (fun _ => 0) ∧ ext = fun _ => 0)) :
    findEntry (v'.driver.table d) name ext = none ∨ v' = v ∧ ∃ i, findEntry (v.driver.table d) name ext = some i ∧
      (v.entry ⟨d,i⟩).attr = ATTR_SUBDIRECTORY ∧
      isEmptyDir (v.driver.directory (v.entry ⟨d,i⟩).cluster) = false := by
  cases h with
  | absent none => exact Or.inl none
  | blocked found folder occupied => exact Or.inr ⟨rfl,_,found,folder,occupied⟩
  | deleted deleted table => exact Or.inl (deleted.absent_after intact named table)

theorem Vacated.gone (h : Vacated v d name ext v') (intact : Intact v)
    (absent : findEntry (v'.driver.table d) name ext = none) (stays : v'.Live z) :
    ¬ (z.dir = d ∧ (v.entry z).Named name ext) := by
  rintro ⟨rfl,named⟩
  have found := intact.find_self (h.live_before intact stays)
  rw [named.1,named.2] at found
  cases h with
  | absent none => cases none.symm.trans found
  | blocked => cases absent.symm.trans found
  | deleted deleted =>
    cases deleted.found.symm.trans found
    exact (deleted.removed.live_cases intact stays).1 rfl

-- Where the next write goes, and what it may use, told from the state before.
theorem Vacated.vacant (h : Vacated v d name ext v') (absent : findEntry (v'.driver.table d) name ext = none) :
    findIdxEmptyEntry (v'.driver.table d) = vacancy (v.driver.table d) (findEntry (v.driver.table d) name ext) := by
  cases h with
  | absent none => rw [none,vacancy_none]
  | blocked found => cases absent.symm.trans found
  | deleted deleted table => rw [table,vacancy_deleted]; exact congrArg _ deleted.found.symm

theorem Vacated.attr (h : Vacated v d name ext v') (i : Fin DIRECTORY_ENTRY_COUNT) :
    (v'.driver.table d i).attr = (v.driver.table d i).attr := by
  cases h with
  | absent => rfl
  | blocked => rfl
  | deleted _ table => rw [table,deleteEntry_attr]

theorem Vacated.reclaims (h : Vacated v d name ext v') (intact : Intact v)
    (absent : findEntry (v'.driver.table d) name ext = none) :
    ∃ gone, v.Reclaims d (findEntry (v.driver.table d) name ext) gone ∧
      (freeCells v'.driver.cluster_map).card = (freeCells v.driver.cluster_map).card + gone.length := by
  cases h with
  | absent none => exact ⟨[],by rw [none]; rfl,by simp⟩
  | blocked found => cases absent.symm.trans found
  | deleted deleted =>
    refine ⟨_,?_,deleted.free_card intact⟩
    rw [show findEntry (v.driver.table d) name ext = some _ from deleted.found]
    exact deleted.reclaims

theorem Vacated.dirs_eq (h : Vacated v d name ext v')
    (file : ∀ i, findEntry (v.driver.table d) name ext = some i → ¬ v.Folder ⟨d,i⟩) : v'.dirs = v.dirs := by
  cases h with
  | absent => rfl
  | blocked => rfl
  | deleted deleted => exact deleted.dirs_eq (file _ deleted.found)

theorem Vacated.table_elsewhere (h : Vacated v d name ext v') (intact : Intact v) {b : Cell} (dir : b ∈ v'.dirs)
    (other : b ≠ d) : v'.driver.table b = v.driver.table b := by
  cases h with
  | absent => rfl
  | blocked => rfl
  | deleted deleted => exact deleted.table_elsewhere intact dir other

-- The entry that goes was not the directory it lay in.
theorem Vacated.dir_kept (h : Vacated v d name ext v') (dir : d ∈ v.dirs) : d ∈ v'.dirs := by
  cases h with
  | absent => exact dir
  | blocked => exact dir
  | deleted deleted =>
    rw [deleted.removed.shrunk]
    exact ⟨dir,fun same => deleted.removed.childless d dir same _ deleted.removed.live rfl⟩

theorem Vacated.used (h : Vacated v d name ext v') (absent : findEntry (v'.driver.table d) name ext = none)
    (j : Fin DIRECTORY_ENTRY_COUNT) : (v'.driver.table d j).user_attribute = UATTR_NOT_EMPTY ↔
      (v.driver.table d j).user_attribute = UATTR_NOT_EMPTY ∧ findEntry (v.driver.table d) name ext ≠ some j := by
  cases h with
  | absent none => simp [none]
  | blocked found => cases absent.symm.trans found
  | @deleted _ _ i _ _ _ deleted table =>
    rw [table,show findEntry (v.driver.table d) name ext = some i from deleted.found]
    by_cases here : j = i
    · rw [here]
      exact iff_of_false (deleteEntry_here (v.driver.table d) i).2.1 fun both => both.2 rfl
    · rw [deleteEntry_other _ here]
      exact (and_iff_left fun same => here (Option.some.inj same).symm).symm

-- The entry that goes may have been a folder.
theorem Vacated.shrunk (h : Vacated v d name ext v') (absent : findEntry (v'.driver.table d) name ext = none) :
    v'.dirs = {b ∈ v.dirs | ∀ j, findEntry (v.driver.table d) name ext = some j → cellNumber b ≠ (v.entry ⟨d,j⟩).cluster} := by
  cases h with
  | absent none => simp [none]
  | blocked found => cases absent.symm.trans found
  | @deleted _ _ i _ _ _ deleted =>
    rw [deleted.removed.shrunk,show findEntry (v.driver.table d) name ext = some i from deleted.found]
    simp

-- A file that is not marked as a directory is deleted for sure.
theorem Vacated.file {i : Fin DIRECTORY_ENTRY_COUNT} (h : Vacated v d name ext v')
    (found : findEntry (v.driver.table d) name ext = some i) (plain : (v.entry ⟨d,i⟩).attr ≠ ATTR_SUBDIRECTORY) :
    ∃ buf c rest, Deleted v v' ⟨buf,name,ext,cellNumber d,0⟩ d i c rest (c :: rest) ∧
      v'.driver.table d = deleteEntry (v.driver.table d) i := by
  cases h with
  | absent none => cases none.symm.trans found
  | blocked at_ folder =>
    cases at_.symm.trans found
    exact absurd folder plain
  | deleted deleted table =>
    cases deleted.found.symm.trans found
    have released := deleted.released
    rw [if_neg plain] at released
    exact ⟨_,_,_,released ▸ deleted,table⟩

end vacated

theorem Shell.delete_eq {st : Shell} {request : FAT32DriverRequest} {code : Int} {s' : DriverState}
    (ran : Fat32.delete st.driver request = some (code,s')) : st.delete request = some (code,{st with driver := s'}) := by
  unfold Shell.delete
  rw [ran]
  rfl

-- What is no directory is not loaded.
theorem Shell.read_directory_other {st : Shell} {request : FAT32DriverRequest}
    (other : ∀ i, findEntry (st.driver.directory request.parent_cluster_number) request.name request.ext = some i →
      (st.driver.directory request.parent_cluster_number i).attr ≠ ATTR_SUBDIRECTORY) :
    (st.read_directory request).2.memory = st.memory := by
  unfold Shell.read_directory Fat32.read_directory
  simp only
  cases found : findEntry (st.driver.directory request.parent_cluster_number) request.name request.ext with
  | none => simp
  | some i => simp [other i found]

theorem remove_eq {st : Shell} {name : Name} {ext : Ext} {parent_number buf : Word} {code code' : Int} {s s' : DriverState}
    (first : Fat32.delete st.driver ⟨buf,name,ext,parent_number,0⟩ = some (code,s))
    (second : Fat32.delete s ⟨buf,name,ext,parent_number,0⟩ = some (code',s')) :
    remove st name ext parent_number buf = some {st with driver := s'} := by
  have later : Shell.delete {st with driver := s} ⟨buf,name,ext,parent_number,0⟩ = some (code',{st with driver := s'}) :=
    Shell.delete_eq second
  unfold remove
  simp only [Shell.delete_eq first,later,Option.bind_eq_bind,Option.bind_some]
  rfl

-- What the answer of a directory request tells.
theorem Shell.read_directory_answer (st : Shell) (request : FAT32DriverRequest) :
    ∃ retcode st', st.read_directory request = (retcode,st') ∧ st'.driver = st.driver ∧
      (retcode = 2 ↔ findEntry (st.driver.directory request.parent_cluster_number) request.name request.ext = none) ∧
      (retcode = 0 ↔ ∃ i, findEntry (st.driver.directory request.parent_cluster_number) request.name request.ext = some i ∧
        (st.driver.directory request.parent_cluster_number i).attr = ATTR_SUBDIRECTORY) := by
  refine ⟨_,_,rfl,rfl,?_⟩
  unfold Fat32.read_directory
  simp only
  cases findEntry (st.driver.directory request.parent_cluster_number) request.name request.ext with
  | none => simp
  | some i =>
    by_cases folder : (st.driver.directory request.parent_cluster_number i).attr = ATTR_SUBDIRECTORY <;> simp [folder]

section calls
variable {v : Volume} {st : Shell} {d : Cell} {name : Name} {ext : Ext} (intact : Intact v) (dir : d ∈ v.dirs)
  (named : ¬ (name = (fun _ => 0) ∧ ext = fun _ => 0)) (drive : st.driver = v.driver)
include intact dir named drive

-- The second delete of the same name finds nothing, or is refused like the first one.
theorem remove_vacates (buf : Word) : ∃ v', remove st name ext (cellNumber d) buf = some {st with driver := v'.driver} ∧
    Vacated v d name ext v' := by
  have clear : (FsAction.delete ⟨buf,name,ext,cellNumber d,0⟩).Clear v := Or.inl named
  obtain ⟨code,v',ran,effect⟩ := request_effect intact (.delete ⟨buf,name,ext,cellNumber d,0⟩) ⟨d,dir,rfl⟩ clear
  have first : delete v.driver ⟨buf,name,ext,cellNumber d,0⟩ = some (code,v'.driver) := respond_driver ran
  cases effect with
  | refused failed refused =>
    refine ⟨v,remove_eq (by rw [drive]; exact first) first,?_⟩
    cases found : findEntry (v.driver.table d) name ext with
    | none => exact .absent found
    | some i =>
      obtain ⟨folder,occupied⟩ := refused i (by rw [parent_table rfl]; exact found)
      rw [parent_table rfl] at folder occupied
      exact .blocked found folder occupied
  | deleted deleted =>
    obtain rfl := cellNumber_injective deleted.parent
    have table := deleted_table intact dir rfl deleted.found first
    have absent := deleted.absent_after intact named table
    rw [← DriverState.directory_cell] at absent
    exact ⟨v',remove_eq (by rw [drive]; exact first) (delete_absent absent),.deleted deleted table⟩

-- Memory changes in the buffer `cl` at most.
theorem clearTarget_vacates (frame : Frame) : ∃ st' v', clearTarget frame st name ext (cellNumber d) = some st' ∧
    st'.driver = v'.driver ∧ Vacated v d name ext v' ∧
    ∀ a, CLUSTER_SIZE ≤ (a - frame.cl).toNat → st'.memory a = st.memory a := by
  have kept : ∀ a, CLUSTER_SIZE ≤ (a - frame.cl).toNat →
      (st.read_directory ⟨frame.cl,name,ext,cellNumber d,sizeofEntry⟩).2.memory a = st.memory a := by
    intro a far
    unfold Shell.read_directory Fat32.read_directory
    simp only
    split
    · rfl
    · split
      · rfl
      · exact if_neg (Nat.not_lt.mpr far)
  have answer : (st.read_directory ⟨frame.cl,name,ext,cellNumber d,sizeofEntry⟩).1 = 2 ↔
      findEntry (v.driver.table d) name ext = none := by
    obtain ⟨retcode,st',asked,_,absent,_⟩ := st.read_directory_answer ⟨frame.cl,name,ext,cellNumber d,sizeofEntry⟩
    simp only [drive,DriverState.directory_cell] at absent
    rw [asked]
    exact absent
  by_cases absent : findEntry (v.driver.table d) name ext = none
  · exact ⟨_,v,if_neg (not_not.mpr (answer.mpr absent)),drive,.absent absent,kept⟩
  · have drive' : (st.read_directory ⟨frame.cl,name,ext,cellNumber d,sizeofEntry⟩).2.driver = v.driver := drive
    obtain ⟨v',ran,vacated⟩ := remove_vacates intact dir named drive' frame.remove_buf
    exact ⟨_,v',(if_pos fun missed => absent (answer.mp missed)).trans ran,rfl,vacated,kept⟩

end calls

theorem copyFile_effect {v : Volume} {st : Shell} {d : Cell} {frame : Frame} {size src_parent : Word}
    {src_name : Name} {src_ext : Ext} {retcode : Int} {memory : Memory} (name : Name) (ext : Ext) (intact : Intact v)
    (dir : d ∈ v.dirs) (drive : st.driver = v.driver)
    (ran : Fat32.read v.driver st.memory ⟨frame.data_buf size,src_name,src_ext,src_parent,size⟩ = some (retcode,memory)) :
    ∃ st' code v', copyFile frame st size src_name src_ext src_parent name ext (cellNumber d) = some st' ∧
      st'.driver = v'.driver ∧ st'.copy_status = 0 ∧
      Effect v (.write memory ⟨frame.data_buf size,name,ext,cellNumber d,size⟩) code v' := by
  have parent : (⟨frame.data_buf size,name,ext,cellNumber d,size⟩ : FAT32DriverRequest).parent_cluster_number =
      cellNumber d := rfl
  obtain ⟨code,v',responded,effect⟩ := write_effect parent dir intact.steady memory
  have wrote : Fat32.write v.driver memory ⟨frame.data_buf size,name,ext,cellNumber d,size⟩ = some (code,v'.driver) :=
    respond_driver responded
  unfold copyFile Shell.read Shell.write
  simp only [drive,ran,wrote,Option.map_some,Option.bind_eq_bind,Option.bind_some]
  refine ⟨_,code,v',rfl,?_,rfl,effect⟩
  by_cases failed : code ≠ 0
  · simp only [if_pos failed]; rfl
  · simp only [if_neg failed]

theorem copyFolder_effect {v : Volume} {st : Shell} {d : Cell} (frame : Frame) (size src_parent : Word)
    (src_name name : Name) (src_ext ext : Ext) (intact : Intact v) (dir : d ∈ v.dirs) (drive : st.driver = v.driver) :
    ∃ target_cluster_number st' memory code v',
      copyFolder frame st size src_name src_ext src_parent name ext (cellNumber d) =
        some (directoryCodec.decode ((st.read_directory ⟨frame.src_table,src_name,src_ext,src_parent,size⟩).2.memory.at
          frame.src_table),target_cluster_number,st') ∧
      st'.driver = v'.driver ∧ Effect v (.write memory ⟨frame.src_table,name,ext,cellNumber d,0⟩) code v' := by
  have parent : (⟨frame.src_table,name,ext,cellNumber d,0⟩ : FAT32DriverRequest).parent_cluster_number = cellNumber d :=
    rfl
  obtain ⟨code,v',responded,effect⟩ := write_effect parent dir intact.steady
    (st.read_directory ⟨frame.src_table,src_name,src_ext,src_parent,size⟩).2.memory
  have wrote : Fat32.write v.driver (st.read_directory ⟨frame.src_table,src_name,src_ext,src_parent,size⟩).2.memory
      ⟨frame.src_table,name,ext,cellNumber d,0⟩ = some (code,v'.driver) := respond_driver responded
  have drive' : (st.read_directory ⟨frame.src_table,src_name,src_ext,src_parent,size⟩).2.driver = v.driver := drive
  unfold copyFolder Shell.write
  simp only [drive',wrote,Option.map_some,Option.bind_eq_bind,Option.bind_some]
  exact ⟨_,_,_,code,v',rfl,rfl,effect⟩

theorem foldlM_still {α β : Type} {f : β → α → Option β} {l : List α} {b : β} (still : ∀ a ∈ l, f b a = some b) :
    l.foldlM f b = some b := by
  induction l with
  | nil => rfl
  | cons a rest ih =>
    rw [List.foldlM_cons,still a (by simp)]
    exact ih fun c member => still c (by simp [member])

section copy
variable {frames : Nat → Frame} {fuel : Nat} {st st₁ st₂ : Shell} {src_name target_name : Name} {src_ext target_ext : Ext}
  {src_parent target_parent : Word} {source : Source} {src_table : DirectoryTable} {target_cluster_number : Option Word}
  (cleared : clearTarget (frames fuel) st target_name target_ext target_parent = some st₁)
include cleared

theorem copy_missing (missing : findSource (st₁.driver.directory src_parent) src_name src_ext = none) :
    copy frames (fuel+1) st src_name src_ext src_parent target_name target_ext target_parent = none := by
  simp only [copy,cleared,missing,Option.bind_eq_bind,Option.bind_some,Option.bind_none]

variable (found : findSource (st₁.driver.directory src_parent) src_name src_ext = some source)
include found

theorem copy_file_eq (file : source.is_dir = false) :
    copy frames (fuel+1) st src_name src_ext src_parent target_name target_ext target_parent =
      copyFile (frames fuel) st₁ source.src_size src_name src_ext src_parent target_name target_ext target_parent := by
  simp [copy,cleared,found,file]

-- Taken for a folder whose table shows no entries, the source costs one request.
theorem copy_bare_eq (folder : source.is_dir = true)
    (entered : copyFolder (frames fuel) st₁ source.src_size src_name src_ext src_parent target_name target_ext target_parent =
      some (src_table,target_cluster_number,st₂))
    (bare : ∀ i, (src_table i).user_attribute ≠ UATTR_NOT_EMPTY) :
    copy frames (fuel+1) st src_name src_ext src_parent target_name target_ext target_parent =
      some {st₂ with copy_status := 0} := by
  have still : ((entries src_table).drop 1).foldlM (fun (st : Shell) e =>
      if e.user_attribute = UATTR_NOT_EMPTY then
        target_cluster_number.bind fun target => copy frames fuel st e.name e.ext source.src_cluster_number e.name e.ext target
      else some st) st₂ = some st₂ := by
    refine foldlM_still fun e member => if_neg ?_
    obtain ⟨i,_,rfl⟩ := List.mem_map.mp (List.mem_of_mem_drop member)
    exact bare i
  simp only [copy,cleared,found,folder,entered,still,if_true,Option.bind_eq_bind,Option.bind_some]
  rfl

end copy

-- A file of the name can be read after the write only if the deletes had cleared the
-- way and the write stored every byte in a slot that is not marked as a directory.
theorem readable_wrote {v v₁ v₂ : Volume} {d : Cell} {name : Name} {ext : Ext} {memory : Memory} {buf size : Word}
    {code : Int} {y : Place} {data : Bytes} (intact : Intact v) (named : ¬ (name = (fun _ => 0) ∧ ext = fun _ => 0))
    (vacated : Vacated v d name ext v₁) (effect : Effect v₁ (.write memory ⟨buf,name,ext,cellNumber d,size⟩) code v₂)
    (dir : d ∈ v.dirs) (here : y.dir = d) (low : 2 ≤ y.index.val) (same : (v₂.entry y).Named name ext)
    (contents : v₂.Contents y data) :
    findEntry (v₁.driver.table d) name ext = none ∧ size ≠ 0 ∧ ∃ c rest,
      Wrote v₁ v₂ memory ⟨buf,name,ext,cellNumber d,size⟩ d y.index c rest ∧
      (c :: rest).length = ceil size.toNat ∧ ceil size.toNat ≤ (freeCells v₁.driver.cluster_map).card ∧
      (v₁.driver.table d y.index).attr ≠ ATTR_SUBDIRECTORY ∧ data 0 = memory.at buf 0 := by
  subst here
  have entry : v₂.driver.table y.dir y.index = v₂.entry y := rfl
  cases effect with
  | refused =>
    exfalso
    rcases vacated.absent_or intact named with absent | ⟨rfl,i,found,folder,_⟩
    · exact findEntry_none.mp absent y.index low same
    · have live : v₁.Live y := intact.live_of_named ⟨dir,low⟩ fun unnamed =>
        named ⟨same.1.symm.trans unnamed.1,same.2.symm.trans unnamed.2⟩
      have at_ := intact.find_self live
      rw [same.1,same.2] at at_
      cases found.symm.trans at_
      refine contents.file ?_ folder
      rw [same.1,same.2]
      exact found
  | folder empty wrote =>
    exfalso
    obtain rfl := cellNumber_injective wrote.parent
    obtain rfl := wrote.only low same
    refine contents.file ?_ ?_
    · rw [same.1,same.2]
      exact wrote.found_after
    · rw [wrote.entry,addEntry_here]
      exact if_pos empty
  | file nonzero wrote _ length enough =>
    obtain rfl := cellNumber_injective wrote.parent
    obtain rfl := wrote.only low same
    obtain ⟨file,complete,first⟩ := wrote.contents_complete nonzero (Nat.le_of_eq length) contents
    have absent := wrote.writable.absent
    rw [parent_table rfl] at absent
    exact ⟨absent,nonzero,_,_,wrote,complete,enough,file,first⟩
  | short nonzero wrote _ length =>
    obtain rfl := cellNumber_injective wrote.parent
    obtain rfl := wrote.only low same
    obtain ⟨_,complete,_⟩ := wrote.contents_complete nonzero (Nat.le_of_lt length) contents
    exact absurd complete (Nat.ne_of_lt length)

-- The entry that a copy of `x` into `d` replaces.
abbrev target (v : Volume) (x : Place) (d : Cell) : Option (Fin DIRECTORY_ENTRY_COUNT) :=
  findEntry (v.driver.table d) (v.entry x).name (v.entry x).ext

-- `z` is the file that a copy of `x` into `d` replaces, or is.
def Twin (v w : Volume) (x : Place) (d : Cell) (z : Place) : Prop :=
  z.dir = d ∧ (w.entry z).Named (v.entry x).name (v.entry x).ext

structure ExactCopy (v v' : Volume) (x : Place) (d : Cell) : Prop where
  copied : ∃ y data, v'.Live y ∧ Twin v v' x d y ∧ ¬ v'.Folder y ∧ (v'.entry y).filesize = (v.entry x).filesize ∧
    v.Contents x data ∧ v'.Contents y data
  source : Undisturbed v v' x
  replaced : ∀ z, v.Live z → Twin v v x d z → ¬ v.Folder z
  others : ∀ z, v.Live z → ¬ Twin v v x d z → Undisturbed v v' z
  nothingElse : ∀ z, v'.Live z → Twin v v' x d z ∨ v.Live z ∧ ¬ Twin v v x d z

-- What the file `x` needs for its bytes to arrive in `d`: nothing else matches the search
-- for it, and what has its name in `d` can go and leaves a slot and room for the copy.
structure Movable (v : Volume) (x : Place) (d : Cell) : Prop where
  elsewhere : x.dir ≠ d
  readable : ∃ data, v.Contents x data
  found : ∃ src_cluster_number, findSource (v.driver.table x.dir) (v.entry x).name (v.entry x).ext =
    some ⟨(v.entry x).filesize,src_cluster_number,false⟩
  cleared : ∀ i, target v x d = some i → (v.entry ⟨d,i⟩).attr = ATTR_SUBDIRECTORY →
    isEmptyDir (v.driver.directory (v.entry ⟨d,i⟩).cluster) = true
  slot : ∃ i, vacancy (v.driver.table d) (target v x d) = some i ∧ (v.driver.table d i).attr ≠ ATTR_SUBDIRECTORY
  room : ∃ gone, v.Reclaims d (target v x d) gone ∧
    ceil (v.entry x).filesize.toNat ≤ (freeCells v.driver.cluster_map).card + gone.length

-- Besides, what goes must be a file.
structure Copyable (v : Volume) (x : Place) (d : Cell) : Prop extends Movable v x d where
  target : ∀ i, target v x d = some i → ¬ v.Folder ⟨d,i⟩

-- The deletes of a copy, then the write of every byte into slot `i`.
structure Arrives (v v₁ v₂ : Volume) (x : Place) (d : Cell) (i : Fin DIRECTORY_ENTRY_COUNT) : Prop where
  vacated : Vacated v d (v.entry x).name (v.entry x).ext v₁
  absent : findEntry (v₁.driver.table d) (v.entry x).name (v.entry x).ext = none
  slot : (v₁.driver.table d i).attr ≠ ATTR_SUBDIRECTORY
  kept : v₂.dirs = v₁.dirs
  intact : Intact v₂
  sized : Sized v₂
  wrote : ∃ memory buf c rest, Wrote v₁ v₂ memory ⟨buf,(v.entry x).name,(v.entry x).ext,cellNumber d,(v.entry x).filesize⟩
      d i c rest ∧ (c :: rest).length = ceil (v.entry x).filesize.toNat ∧
    ∀ data, v.Contents x data → ∀ k < (v.entry x).filesize.toNat, memory.at buf k = data k

section movable
variable {v v₁ : Volume} {x : Place} {d : Cell}

theorem Movable.absent (h : Movable v x d) (intact : Intact v) (live : v.Live x)
    (vacated : Vacated v d (v.entry x).name (v.entry x).ext v₁) :
    findEntry (v₁.driver.table d) (v.entry x).name (v.entry x).ext = none := by
  rcases vacated.absent_or intact (intact.named x live) with absent | ⟨_,i,found,folder,occupied⟩
  · exact absent
  · rw [h.cleared i found folder] at occupied
    cases occupied

theorem Movable.writable (h : Movable v x d) (intact : Intact v) (live : v.Live x) (dir : d ∈ v.dirs)
    (nonzero : (v.entry x).filesize ≠ 0) (vacated : Vacated v d (v.entry x).name (v.entry x).ext v₁) (buf : Word) :
    (∃ i c, Writable v₁.driver ⟨buf,(v.entry x).name,(v.entry x).ext,cellNumber d,(v.entry x).filesize⟩ i c ∧
      (v₁.driver.table d i).attr ≠ ATTR_SUBDIRECTORY) ∧
    ceil (v.entry x).filesize.toNat ≤ (freeCells v₁.driver.cluster_map).card := by
  have absent := h.absent intact live vacated
  obtain ⟨gone,reclaims,enough⟩ := h.room
  obtain ⟨gone',reclaims',free⟩ := vacated.reclaims intact absent
  cases reclaims.unique reclaims'
  rw [← free] at enough
  refine ⟨?_,enough⟩
  obtain ⟨i,vacant,file⟩ := h.slot
  rw [← vacated.vacant absent] at vacant
  have header := (vacated.intact intact).header d (vacated.dir_kept dir)
  cases room : findEmptySpace v₁.driver.cluster_map with
  | none =>
    have none : freeCells v₁.driver.cluster_map = ∅ := by
      ext b
      exact iff_of_false (fun free => findEmptySpace_none.mp room b (mem_freeCells.mp free)) (Finset.notMem_empty b)
    have positive : (v.entry x).filesize.toNat ≠ 0 := fun zero => nonzero (BitVec.eq_of_toNat_eq zero)
    rw [none,Finset.card_empty,ceil_eq] at enough
    omega
  | some c =>
    refine ⟨i,c,⟨?_,?_,?_,room⟩,by rw [vacated.attr]; exact file⟩
    · rw [parent_table rfl]; exact header
    · rw [parent_table rfl]; exact absent
    · rw [parent_table rfl]; exact vacant

theorem Movable.copies {st : Shell} (h : Movable v x d) (intact : Intact v) (sized : Sized v) (live : v.Live x)
    (file : ¬ v.Folder x) (dir : d ∈ v.dirs) (drive : st.driver = v.driver) (frames : Nat → Frame) (fuel : Nat) :
    ∃ st' v₁ v₂ i, copy frames (fuel+1) st (v.entry x).name (v.entry x).ext (cellNumber x.dir) (v.entry x).name
        (v.entry x).ext (cellNumber d) = some st' ∧
      st'.driver = v₂.driver ∧ st'.copy_status = 0 ∧ Arrives v v₁ v₂ x d i := by
  have nonzero : (v.entry x).filesize ≠ 0 := fun empty => file (sized x live empty)
  obtain ⟨st₁,v₁,cleared,drive₁,vacated,_⟩ := clearTarget_vacates intact dir (intact.named x live) drive (frames fuel)
  have intact₁ := vacated.intact intact
  have kept := vacated.undisturbed intact live fun here => absurd here h.elsewhere
  obtain ⟨src_cluster_number,found⟩ := h.found
  rw [← vacated.table_elsewhere intact kept.live.1.1 h.elsewhere,← DriverState.directory_cell,← drive₁] at found
  obtain ⟨data,contents⟩ := h.readable
  have contents₁ := kept.contents intact intact₁ live contents
  obtain ⟨memory,ran,filled⟩ := contents₁ ⟨(frames fuel).data_buf (v.entry x).filesize,(v.entry x).name,(v.entry x).ext,
    cellNumber x.dir,(v.entry x).filesize⟩ st₁.memory rfl (by rw [kept.entry]; exact ⟨rfl,rfl⟩)
    (by rw [kept.entry]; exact BitVec.le_refl _)
  rw [kept.entry] at filled
  obtain ⟨st',code,v₂,copied,drive₂,status,effect⟩ := copyFile_effect (v.entry x).name (v.entry x).ext intact₁
    (vacated.dir_kept dir) drive₁ ran
  obtain ⟨⟨i,c,writable,slot⟩,enough⟩ := h.writable intact live dir nonzero vacated
    ((frames fuel).data_buf (v.entry x).filesize)
  have after : Intact v₂ ∧ Sized v₂ := ⟨effect.intact intact₁,effect.sized intact₁ (vacated.sized intact sized)⟩
  have ran' := (copy_file_eq cleared found rfl).trans copied
  have absent := h.absent intact live vacated
  cases effect with
  | refused _ refused => exact absurd writable (refused i c)
  | folder empty => exact absurd empty nonzero
  | short _ _ _ _ few => exact absurd enough (Nat.not_le.mpr few)
  | @file _ _ _ d' i' c' rest _ wrote dirs length =>
    obtain rfl := cellNumber_injective wrote.parent
    obtain rfl : i = i' := Option.some.inj (writable.vacant.symm.trans wrote.writable.vacant)
    refine ⟨st',v₁,v₂,i,ran',drive₂,status,vacated,absent,slot,dirs,after.1,after.2,memory,_,c',rest,wrote,length,?_⟩
    exact fun data' contents' k inside => (filled k inside).trans (contents.unique contents' inside)

end movable

section arrives
variable {v v₁ v₂ : Volume} {x z : Place} {d b : Cell} {i : Fin DIRECTORY_ENTRY_COUNT} (h : Arrives v v₁ v₂ x d i)
include h

theorem Arrives.vacant : vacancy (v.driver.table d) (target v x d) = some i := by
  obtain ⟨_,_,_,_,wrote,_⟩ := h.wrote
  have vacant := wrote.writable.vacant
  rw [parent_table rfl,h.vacated.vacant h.absent] at vacant
  exact vacant

theorem Arrives.dirs : v₂.dirs = {b ∈ v.dirs | ∀ j, target v x d = some j → cellNumber b ≠ (v.entry ⟨d,j⟩).cluster} :=
  h.kept.trans (h.vacated.shrunk h.absent)

theorem Arrives.dirs_subset : v₂.dirs ⊆ v.dirs := by
  rw [h.dirs]
  exact Set.sep_subset _ _

theorem Arrives.nonzero : (v.entry x).filesize ≠ 0 := by
  obtain ⟨_,_,c,rest,_,length,_⟩ := h.wrote
  intro zero
  rw [zero,show ceil (0 : Word).toNat = 0 by decide] at length
  exact List.cons_ne_nil _ _ (List.length_eq_zero_iff.mp length)

variable (intact : Intact v)
include intact

theorem Arrives.free : ∃ gone, v.Reclaims d (target v x d) gone ∧ (freeCells v₂.driver.cluster_map).card +
    ceil (v.entry x).filesize.toNat = (freeCells v.driver.cluster_map).card + gone.length := by
  obtain ⟨_,_,c,rest,wrote,length,_⟩ := h.wrote
  obtain ⟨gone,reclaims,free⟩ := h.vacated.reclaims intact h.absent
  refine ⟨gone,reclaims,?_⟩
  rw [← length,wrote.free_card,free]

theorem Arrives.table (dir : b ∈ v₂.dirs) (other : b ≠ d) : v₂.driver.table b = v.driver.table b := by
  obtain ⟨_,_,_,_,wrote,_⟩ := h.wrote
  rw [h.kept] at dir
  rw [← h.vacated.table_elsewhere intact dir other]
  funext j
  exact wrote.inserted.dir_table (h.vacated.intact intact).steady dir fun same => other (congrArg Place.dir same)

omit intact in
theorem Arrives.slots (j : Fin DIRECTORY_ENTRY_COUNT) : (v₂.driver.table d j).attr = (v.driver.table d j).attr ∧
    ((v₂.driver.table d j).user_attribute = UATTR_NOT_EMPTY ↔
      j = i ∨ (v.driver.table d j).user_attribute = UATTR_NOT_EMPTY ∧ target v x d ≠ some j) := by
  obtain ⟨_,_,c,rest,wrote,length,_⟩ := h.wrote
  rw [← h.vacated.attr j,← h.vacated.used h.absent j]
  by_cases here : j = i
  · subst here
    have new : v₂.driver.table d j = addEntry (v₁.driver.table d) _ j (cellNumber c) j := wrote.entry
    rw [new,addEntry_here]
    exact ⟨if_neg h.nonzero,iff_of_true rfl (Or.inl rfl)⟩
  · rw [wrote.inserted.tableFrame j here]
    simp [here]

theorem Arrives.undisturbed (live : v.Live z) (other : ¬ Twin v v x d z) : Undisturbed v v₂ z := by
  obtain ⟨_,_,_,_,wrote,_⟩ := h.wrote
  have first := h.vacated.undisturbed intact live fun here named => other ⟨here,named⟩
  exact first.trans (wrote.inserted.undisturbed (h.vacated.intact intact) first.live)
    (h.vacated.shrunk h.absent ▸ fun _ member => member.1)

theorem Arrives.carried : Carried v v₂ x ⟨d,i⟩ := by
  obtain ⟨memory,buf,c,rest,wrote,length,filled⟩ := h.wrote
  have nonzero := h.nonzero
  refine ⟨wrote.inserted.live_new,wrote.not_folder (h.vacated.intact intact) h.kept,wrote.named_after,wrote.size_after,fun data contents => ?_⟩
  refine (wrote.contents nonzero length h.slot).congr ?_
  rw [wrote.size_after]
  exact filled data contents

theorem Arrives.nothingElse (live : v₂.Live z) : z = ⟨d,i⟩ ∨ v.Live z ∧ ¬ Twin v v x d z := by
  obtain ⟨_,_,_,_,wrote,_⟩ := h.wrote
  rcases wrote.inserted.live_cases (h.vacated.intact intact) live with here | ⟨_,old,_⟩
  · exact Or.inl here
  · exact Or.inr ⟨h.vacated.live_before intact old,h.vacated.gone intact h.absent old⟩

end arrives

-- Where what goes is a file, that is the copy and nothing else.
theorem Copyable.exact {v v₁ v₂ : Volume} {x : Place} {d : Cell} {i : Fin DIRECTORY_ENTRY_COUNT} (h : Copyable v x d)
    (intact : Intact v) (live : v.Live x) (arrives : Arrives v v₁ v₂ x d i) : v₂.dirs = v.dirs ∧ ExactCopy v v₂ x d := by
  obtain ⟨data,contents⟩ := h.readable
  have carried := arrives.carried intact
  refine ⟨?_,⟨⟨d,i⟩,data,carried.live,⟨rfl,carried.named⟩,carried.file,carried.size,contents,carried.bytes data contents⟩,
    arrives.undisturbed intact live fun twin => h.elsewhere twin.1,?_,fun z liveZ => arrives.undisturbed intact liveZ,?_⟩
  · rw [arrives.dirs]
    exact Set.sep_eq_self_iff_mem_true.mpr fun b dir j found same => h.target j found ⟨b,dir,same.symm⟩
  · rintro z liveZ ⟨rfl,named⟩
    have at_ := intact.find_self liveZ
    rw [named.1,named.2] at at_
    exact h.target z.index at_
  · intro z liveZ
    rcases arrives.nothingElse intact liveZ with rfl | old
    · exact Or.inl ⟨rfl,carried.named⟩
    · exact Or.inr old

end Sosis.Command
