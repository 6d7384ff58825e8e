import Sosis.CommandCopy

-- A copy to what is no directory: there is nothing to delete there, and every write is
-- refused.
namespace Sosis.Command
open ByteRecords Fat32

-- A table that is no directory, and holds no entry with a name of `v`.
def Quiet (v : Volume) (t : DirectoryTable) : Prop :=
  (t 0).attr ≠ ATTR_SUBDIRECTORY ∧ ∀ z, v.Live z → ∀ i, ¬ (t i).Named (v.entry z).name (v.entry z).ext

-- Nothing poses as what it is not: no live file is marked as a directory, and what is at
-- the end of the path is neither a directory nor the bytes of one.
structure Unforged (v : Volume) (dest : Word) : Prop where
  marked : ∀ z, v.Live z → (v.entry z).attr = ATTR_SUBDIRECTORY → v.Folder z
  apart : slot dest ≠ 1 ∧ ∀ d ∈ v.dirs, slot dest ≠ d.val
  quiet : Quiet v (v.driver.directory dest)

theorem foldlM_shadow {α β γ : Type} {f : β → α → Option β} {g : γ → α → Option γ} {l : List α} {b b' : β} {c : γ}
    (each : ∀ a ∈ l, ∀ b₁, f b a = some b₁ → b₁ = b ∧ g c a = some c) (ran : l.foldlM f b = some b') :
    b' = b ∧ l.foldlM g c = some c := by
  induction l with
  | nil =>
    cases ran
    exact ⟨rfl,rfl⟩
  | cons a rest ih =>
    rw [List.foldlM_cons] at ran
    obtain ⟨b₁,first,later⟩ := Option.bind_eq_some_iff.mp ran
    obtain ⟨rfl,same⟩ := each a List.mem_cons_self b₁ first
    obtain ⟨rfl,rest'⟩ := ih (fun a' member => each a' (List.mem_cons_of_mem _ member)) later
    refine ⟨rfl,?_⟩
    rw [List.foldlM_cons,same]
    exact rest'

theorem targetCluster_none {t : DirectoryTable} {name : Name} {ext : Ext} (unnamed : ∀ i, ¬ (t i).Named name ext) :
    targetCluster t name ext = none := by
  suffices none : ∀ l : List DirectoryEntry, (∀ e ∈ l, ¬ e.Named name ext) → l.foldl (fun found e =>
      if memcmp e.name name = 0 ∧ memcmp e.ext ext = 0 ∧ e.user_attribute = UATTR_NOT_EMPTY then some e.cluster
      else found) none = none by
    refine none _ fun e member => ?_
    obtain ⟨i,_,rfl⟩ := List.mem_map.mp member
    exact unnamed i
  intro l
  induction l with
  | nil => exact fun _ => rfl
  | cons e rest ih =>
    intro other
    have skipped : ¬ (memcmp e.name name = 0 ∧ memcmp e.ext ext = 0 ∧ e.user_attribute = UATTR_NOT_EMPTY) := fun all =>
      other e List.mem_cons_self ⟨(memcmp_eq_zero ..).mp all.1,(memcmp_eq_zero ..).mp all.2.1⟩
    rw [List.foldl_cons,if_neg skipped]
    exact ih fun e' member => other e' (List.mem_cons_of_mem _ member)

-- A copy to such a place changes nothing: there is nothing to delete and no directory to
-- write to. It comes to its end when what it takes for the source is a file.
section nowhere
variable {frames : Nat → Frame} {frame : Frame} {fuel : Nat} {st st' : Shell} {src_name name : Name} {src_ext ext : Ext}
  {src_parent dest : Word} {source : Source}
variable (header : (st.driver.directory dest 0).attr ≠ ATTR_SUBDIRECTORY)

include header in
theorem Shell.write_refused (memory : Memory) (buf size : Word) :
    ({st with memory := memory} : Shell).write ⟨buf,name,ext,dest,size⟩ = some (2,{st with memory := memory}) := by
  unfold Shell.write Fat32.write
  simp only [if_pos header]
  rfl

include header in
theorem copyFile_nowhere (src_size : Word) :
    copyFile frame st src_size src_name src_ext src_parent name ext dest =
      (Fat32.read st.driver st.memory ⟨frame.data_buf src_size,src_name,src_ext,src_parent,src_size⟩).map
        fun (_,memory) => {((({st with memory := memory} : Shell).puts "Error: " 0x04).puts "Error writing to file"
          0x07).puts_integer 2 with copy_status := 0} := by
  unfold copyFile Shell.read
  cases got : Fat32.read st.driver st.memory ⟨frame.data_buf src_size,src_name,src_ext,src_parent,src_size⟩ with
  | none => simp [got]
  | some answer =>
    simp only [got,Option.map_some,Option.bind_eq_bind,Option.bind_some,Shell.write_refused header]
    rfl

variable (unnamed : ∀ i, ¬ (st.driver.directory dest i).Named name ext)

include unnamed in
theorem clearTarget_nowhere (frame : Frame) : clearTarget frame st name ext dest = some st := by
  have absent : findEntry (st.driver.directory dest) name ext = none := findEntry_none.mpr fun j _ => unnamed j
  have asked : st.read_directory ⟨frame.cl,name,ext,dest,sizeofEntry⟩ = (2,st) := by
    unfold Shell.read_directory Fat32.read_directory
    simp only [absent]
  unfold clearTarget
  rw [asked]
  exact if_neg (not_not.mpr rfl)

include header unnamed

theorem copyFolder_nowhere (frame : Frame) (src_size : Word) (src_name : Name) (src_ext : Ext) (src_parent : Word) :
    copyFolder frame st src_size src_name src_ext src_parent name ext dest =
      some (directoryCodec.decode ((st.read_directory ⟨frame.src_table,src_name,src_ext,src_parent,src_size⟩).2.memory.at
        frame.src_table),none,(st.read_directory ⟨frame.src_table,src_name,src_ext,src_parent,src_size⟩).2) := by
  have refused : (st.read_directory ⟨frame.src_table,src_name,src_ext,src_parent,src_size⟩).2.write
      ⟨frame.src_table,name,ext,dest,0⟩ =
        some (2,(st.read_directory ⟨frame.src_table,src_name,src_ext,src_parent,src_size⟩).2) :=
    Shell.write_refused header _ _ _
  have unset : targetCluster ((st.read_directory ⟨frame.src_table,src_name,src_ext,src_parent,src_size⟩).2.driver.directory
      dest) name ext = none := targetCluster_none unnamed
  unfold copyFolder
  simp only [refused,unset,Option.bind_eq_bind,Option.bind_some]
  rfl

theorem copy_nowhere (ran : copy frames fuel st src_name src_ext src_parent name ext dest = some st') :
    st'.driver = st.driver := by
  cases fuel with
  | zero => cases ran
  | succ fuel =>
    have cleared := clearTarget_nowhere unnamed (frames fuel)
    cases found : findSource (st.driver.directory src_parent) src_name src_ext with
    | none =>
      rw [copy_missing cleared found] at ran
      cases ran
    | some source =>
      by_cases folder : source.is_dir = true
      · have entered := copyFolder_nowhere header unnamed (frames fuel) source.src_size src_name src_ext src_parent
        simp only [copy,cleared,found,folder,entered,if_true,Option.bind_eq_bind,Option.bind_some,Option.bind_none] at ran
        obtain ⟨st₃,folded,last⟩ := Option.bind_eq_some_iff.mp ran
        obtain ⟨rfl,_⟩ := foldlM_shadow (c := st) (g := fun (st : Shell) (e : DirectoryEntry) =>
          if e.user_attribute = UATTR_NOT_EMPTY then none else some st) (fun e _ st₄ turn => by
            split at turn
            · cases turn
            · rename_i unused
              cases turn
              exact ⟨rfl,if_neg unused⟩) folded
        cases last
        rfl
      · rw [copy_file_eq cleared found (Bool.eq_false_iff.mpr folder),copyFile_nowhere header] at ran
        obtain ⟨_,_,last⟩ := Option.map_eq_some_iff.mp ran
        cases last
        rfl

variable (found : findSource (st.driver.directory src_parent) src_name src_ext = some source)
include found

theorem copy_nowhere_file {retcode : Int} {memory : Memory} (file : source.is_dir = false)
    (read : Fat32.read st.driver st.memory ⟨(frames fuel).data_buf source.src_size,src_name,src_ext,src_parent,
      source.src_size⟩ = some (retcode,memory)) :
    ∃ st', copy frames (fuel+1) st src_name src_ext src_parent name ext dest = some st' ∧ st'.driver = st.driver ∧
      st'.copy_status = 0 := by
  have ran := copy_file_eq (clearTarget_nowhere unnamed (frames fuel)) found file
  rw [copyFile_nowhere header,read] at ran
  exact ⟨_,ran,rfl,rfl⟩

-- Taken for a folder whose table shows an entry in use, it reads the cluster of a folder
-- that was not made.
theorem copy_nowhere_folder (folder : source.is_dir = true)
    (crowded : ∀ i, (directoryCodec.decode ((st.read_directory ⟨(frames fuel).src_table,src_name,src_ext,src_parent,
      source.src_size⟩).2.memory.at (frames fuel).src_table) i).user_attribute = UATTR_NOT_EMPTY) :
    copy frames (fuel+1) st src_name src_ext src_parent name ext dest = none := by
  have cleared := clearTarget_nowhere unnamed (frames fuel)
  have entered := copyFolder_nowhere header unnamed (frames fuel) source.src_size src_name src_ext src_parent
  have slots : (List.finRange DIRECTORY_ENTRY_COUNT).drop 1 = 1 :: (List.finRange DIRECTORY_ENTRY_COUNT).drop 2 := by decide
  simp only [copy,cleared,found,folder,entered,if_true,Option.bind_eq_bind,Option.bind_some,Option.bind_none,entries,
    ← List.map_drop,slots,List.map_cons,List.foldlM_cons,crowded]

end nowhere

end Sosis.Command
