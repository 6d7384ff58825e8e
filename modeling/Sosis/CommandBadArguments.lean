import Sosis.CommandMoveKeeps
import Sosis.CommandRemove
import Sosis.PathWalk

-- cp and mv when the source or the destination is missing. Both go on after the message:
-- the only one of them that ends a command is that of a name which cannot be parsed.
namespace Sosis.Command
open ByteRecords Fat32 FirstFit TransitionRuns

def GoodArguments (v : Volume) (d : Cell) (source path : List Byte) : Prop :=
  (∃ x, NamesSource v d source x) ∧ ∃ e, Descends v d (path.splitOn slash) e

-- The command comes to its end with the drive as it was.
def LeavesDrive (s : DriverState) (run : Nat → Option Shell) : Prop := ∃ fuel st', run fuel = some st' ∧ st'.driver = s

def LeavesAlone (frames : Nat → Frame) (s : DriverState) (st : Shell) (command : List Byte) : Prop :=
  LeavesDrive s (fun fuel => copyPath frames fuel st command) ∧ LeavesDrive s (fun fuel => mvPath frames fuel st command)

-- The walk of traverseFolder where a file would be the end of it.
def visitsNone : Nat → DriverState → Word → DirectoryEntry → Option DriverState := fun _ _ _ _ => none

def NoFileBelow (s : DriverState) (cluster : Word) : Prop := ∃ fuel, walkFiles id visitsNone fuel s cluster = some s

-- The arguments fit their buffers, and either the name cannot be parsed or it is that of a
-- folder in which no file is found.
def Harmless (v : Volume) (d : Cell) (source path : List Byte) : Prop :=
  source.length ≤ 11 ∧ path.length ≤ 99 ∧ (parseFileName source = none ∨
    (∀ c ∈ path.splitOn slash, c.length ≤ 8) ∧ ∃ x, NamesSource v d source x ∧
      (v.entry x).attr = ATTR_SUBDIRECTORY ∧ NoFileBelow v.driver (v.entry x).cluster)

-- A walk that finds no file to visit does nothing.
theorem walk_still {σ : Type} {driver : σ → DriverState} {visit : Nat → σ → Word → DirectoryEntry → Option σ} {fuel : Nat}
    {s s' : DriverState} {cluster : Word} (ran : walkFiles id visitsNone fuel s cluster = some s') {st : σ}
    (at_ : driver st = s) : s' = s ∧ walkFiles driver visit fuel st cluster = some st := by
  induction fuel generalizing s s' cluster with
  | zero => cases ran
  | succ fuel ih =>
    unfold walkFiles at ran ⊢
    rw [at_]
    refine foldlM_shadow (fun e _ s₁ turn => ?_) ran
    split at turn
    · rename_i unused
      cases turn
      exact ⟨rfl,if_pos unused⟩
    · rename_i used
      rw [if_neg used]
      split at turn
      · rename_i folder
        rw [if_pos folder]
        exact ih turn at_
      · cases turn

section prompt
variable {v : Volume} {st : Shell} {d : Cell} {command source path : List Byte} {frames : Nat → Frame}
  {usage finished failed : String} {isDelete : Bool} {fuel : Nat}

theorem Harmless.leaves (harmless : Harmless v d source path) (intact : Intact v) (prompt : PromptIn v st d)
    (line : PathLine command source path) (frames : Nat → Frame) (usage finished failed : String) (isDelete : Bool) :
    LeavesDrive v.driver (fun fuel => pathCommand frames usage finished failed isDelete fuel st command) := by
  obtain ⟨fitsSource,fitsPath,nothing | ⟨short,x,⟨live,dir,parsed⟩,folder,enough,walked⟩⟩ := harmless
  · have drive : (((st.puts "Error: " 0x04).putBytes source 0x07).puts
        ": Invalid source file name or extension.\n" 0x07).driver = v.driver := prompt.drive
    refine ⟨0,_,(pathCommand_line line fitsSource fitsPath).trans ?_,drive⟩
    rw [nothing]
  · obtain ⟨dest,reached⟩ := Option.isSome_iff_exists.mp ((getLastCluster_isSome st).mpr short)
    have found := findFileFolder_live intact live
    have drive : (st.warn source dest).driver = v.driver := (Shell.warn_driver st source dest).trans prompt.drive
    have table : (st.warn source dest).cwd_table = v.driver.table x.dir := by
      rw [Shell.warn_cwd_table,prompt.loaded,dir]
    have still : traverseFolder frames enough (st.warn source dest) (v.entry x).cluster dest isDelete =
        some (st.warn source dest) := (walk_still walked drive).2
    refine ⟨enough,(st.warn source dest).conclude finished failed,(pathCommand_line line fitsSource fitsPath).trans ?_,
      (Shell.conclude_driver ..).trans drive⟩
    rw [parsed]
    simp only [reached,Option.bind_some,table,found]
    have attr : ¬ (v.driver.table x.dir x.index).attr ≠ ATTR_SUBDIRECTORY := not_not.mpr folder
    rw [if_neg attr]
    exact congrArg (Option.map _) still

end prompt

-- What a delete does to other clusters: it leaves them alone or clears them.
def Cleared (t : DirectoryTable) : Prop := ∀ i, (t i).attr = 0 ∧ (t i).Unnamed

section clears
variable {s s' : DriverState} {n : Nat}

theorem writeCluster_clears {t : DirectoryTable} (c : Word) (before : s.table n = t ∨ Cleared (s.table n)) :
    (s.writeCluster emptyCluster c).table n = t ∨ Cleared ((s.writeCluster emptyCluster c).table n) := by
  by_cases here : n = slot c
  · have empty : clip emptyCluster = fun _ => 0 := by
      funext k
      unfold clip
      split <;> rfl
    refine Or.inr fun i => ?_
    unfold DriverState.table
    rw [DriverState.writeCluster_cluster,if_pos here,empty]
    exact ⟨rfl,rfl,rfl⟩
  · rw [DriverState.table_congr (s.writeCluster_other here)]
    exact before

theorem deleteLoop_clears {t : DirectoryTable} {fuel : Nat} {c : Word} (before : s.table n = t ∨ Cleared (s.table n))
    (ran : deleteLoop fuel s c = some s') : s'.table n = t ∨ Cleared (s'.table n) := by
  induction fuel generalizing s c with
  | zero =>
    unfold deleteLoop at ran
    split at ran
    · split at ran
      · cases ran
        exact writeCluster_clears c before
      · cases ran
    · cases ran
  | succ fuel ih =>
    unfold deleteLoop at ran
    split at ran
    · split at ran
      · cases ran
        exact writeCluster_clears c before
      · rename_i within _
        exact ih (writeCluster_clears (s := s.setCell ⟨c.toNat,within⟩ 0) c before) ran
    · cases ran

theorem delete_clears {request : FAT32DriverRequest} {code : Int} (ran : delete s request = some (code,s'))
    (other : n ≠ slot request.parent_cluster_number) (notFat : n ≠ 1) : s'.table n = s.table n ∨ Cleared (s'.table n) := by
  have finish (s : DriverState) (t : DirectoryTable) :
      ((s.writeDirectory t request.parent_cluster_number).writeFat).table n = s.table n := by
    rw [DriverState.writeFat_table _ notFat,DriverState.writeDirectory_table,if_neg other]
  unfold delete at ran
  simp only at ran
  split at ran
  · cases ran
    exact Or.inl rfl
  · split at ran
    · split at ran
      · cases ran
        exact Or.inl rfl
      · split at ran
        · cases ran
          rw [finish,DriverState.setCell_table,DriverState.writeDirectory_table]
          split
          · exact Or.inr fun i => ⟨rfl,rfl,rfl⟩
          · exact Or.inl rfl
        · cases ran
    · obtain ⟨s₁,walked,same⟩ := Option.map_eq_some_iff.mp ran
      cases same
      rw [finish]
      exact deleteLoop_clears (Or.inl rfl) walked

end clears

theorem remove_clears {st st' : Shell} {name : Name} {ext : Ext} {parent_number buf : Word} {n : Nat}
    (ran : remove st name ext parent_number buf = some st') (other : n ≠ slot parent_number) (notFat : n ≠ 1) :
    st'.driver.table n = st.driver.table n ∨ Cleared (st'.driver.table n) := by
  unfold remove Shell.delete at ran
  simp only [Option.bind_eq_bind] at ran
  obtain ⟨first,deleted,later⟩ := Option.bind_eq_some_iff.mp ran
  obtain ⟨⟨code,s₁⟩,ran₁,rfl⟩ := Option.map_eq_some_iff.mp deleted
  obtain ⟨second,deleted',last⟩ := Option.bind_eq_some_iff.mp later
  obtain ⟨⟨code',s₂⟩,ran₂,rfl⟩ := Option.map_eq_some_iff.mp deleted'
  cases last
  rcases delete_clears ran₂ other notFat with same | cleared
  · rw [same]
    exact delete_clears ran₁ other notFat
  · exact Or.inr cleared

-- A volume that has lost files, or is still the same, and where `dest` is quiet.
structure Lessened (v : Volume) (dest : Word) (w : Volume) : Prop where
  dirs : w.dirs = v.dirs
  intact : Intact w
  kept : ∀ z, w.Live z → v.Live z ∧ w.entry z = v.entry z
  quiet : Quiet v (w.driver.directory dest)

section lessened
variable {v w w' : Volume} {st st' : Shell} {frames : Nat → Frame} {fuel : Nat} {dest : Word}

-- The removal of a file of `v`: afterwards it is gone.
theorem Lessened.remove {y : Place} (less : Lessened v dest w) (intact : Intact v)
    (apart : slot dest ≠ 1 ∧ ∀ d ∈ v.dirs, slot dest ≠ d.val) (live : v.Live y)
    (file : (v.entry y).attr ≠ ATTR_SUBDIRECTORY) (drive : st.driver = w.driver) (buf : Word) :
    ∃ w', Command.remove st (v.entry y).name (v.entry y).ext (cellNumber y.dir) buf = some {st with driver := w'.driver} ∧
      Lessened v dest w' ∧ ¬ w'.Live y := by
  have named := intact.named y live
  have dir : y.dir ∈ w.dirs := by
    rw [less.dirs]
    exact live.1.1
  obtain ⟨w',ran,vacated⟩ := remove_vacates less.intact dir named drive buf
  -- What has the name there is the file.
  have here (i : Fin DIRECTORY_ENTRY_COUNT) (found : findEntry (w.driver.table y.dir) (v.entry y).name (v.entry y).ext = some i) :
      (w.entry ⟨y.dir,i⟩).attr ≠ ATTR_SUBDIRECTORY ∧ w.Live ⟨y.dir,i⟩ := by
    obtain ⟨low,label,_⟩ := findEntry_some.mp found
    have liveW : w.Live ⟨y.dir,i⟩ := less.intact.live_of_named ⟨dir,low⟩ fun unnamed =>
      named ⟨label.1.symm.trans unnamed.1,label.2.symm.trans unnamed.2⟩
    obtain ⟨liveV,entry⟩ := less.kept _ liveW
    have labelV : (v.entry ⟨y.dir,i⟩).Named (v.entry y).name (v.entry y).ext := entry ▸ label
    have same := intact.unique _ y liveV live rfl labelV
    refine ⟨?_,liveW⟩
    rw [entry,same]
    exact file
  have absent : findEntry (w'.driver.table y.dir) (v.entry y).name (v.entry y).ext = none := by
    rcases vacated.absent_or less.intact named with absent | ⟨_,i,found,folder,_⟩
    · exact absent
    · exact absurd folder (here i found).1
  have dirs : w'.dirs = w.dirs := vacated.dirs_eq fun i found ⟨e,inside,cluster⟩ =>
    (here i found).1 (less.intact.folder _ (here i found).2 e inside cluster).1
  refine ⟨w',ran,⟨dirs.trans less.dirs,vacated.intact less.intact,fun z liveZ => ?_,?_⟩,fun stays => ?_⟩
  · have before := vacated.live_before less.intact liveZ
    obtain ⟨liveV,entry⟩ := less.kept z before
    refine ⟨liveV,(vacated.undisturbed less.intact before fun inDir label => ?_).entry.trans entry⟩
    exact vacated.gone less.intact absent liveZ ⟨inDir,label⟩
  · have beside : slot dest ≠ slot (cellNumber y.dir) := by
      rw [slot_cellNumber]
      exact apart.2 _ live.1.1
    have before : (st.driver.table (slot dest)) = w.driver.directory dest := by rw [DriverState.directory_eq,drive]
    rw [DriverState.directory_eq]
    rcases remove_clears ran beside apart.1 with same | cleared
    · exact (same.trans before) ▸ less.quiet
    · refine ⟨fun marked => ?_,fun z liveZ i label => ?_⟩
      · rw [(cleared 0).1] at marked
        exact absurd marked (by decide)
      · have unnamed := (cleared i).2
        exact intact.named z liveZ ⟨label.1.symm.trans unnamed.1,label.2.symm.trans unnamed.2⟩
  · refine vacated.gone less.intact absent stays ⟨rfl,?_⟩
    rw [(less.kept y (vacated.live_before less.intact stays)).2]
    exact ⟨rfl,rfl⟩

variable (intact : Intact v) (unforged : Unforged v dest)
include intact unforged

-- One move to `dest` that comes to an end.
theorem Lessened.transfer {y : Place} (less : Lessened v dest w) (live : v.Live y) (file : (v.entry y).attr ≠ ATTR_SUBDIRECTORY)
    (drive : st.driver = w.driver)
    (ran : Command.transfer frames fuel true st (v.entry y).name (v.entry y).ext (cellNumber y.dir) dest = some st') :
    ∃ w', st'.driver = w'.driver ∧ Lessened v dest w' ∧ ¬ w'.Live y := by
  unfold Command.transfer at ran
  obtain ⟨st₁,copied,removed⟩ := Option.bind_eq_some_iff.mp ran
  rw [if_pos rfl] at removed
  have quiet : Quiet v (st.driver.directory dest) := by
    rw [drive]
    exact less.quiet
  have drive₁ : st₁.driver = w.driver := (copy_nowhere quiet.1 (quiet.2 y live) copied).trans drive
  obtain ⟨w',ran',less',gone⟩ := less.remove intact unforged.apart live file drive₁ (frames fuel).remove_buf
  cases removed.symm.trans ran'
  exact ⟨w',rfl,less',gone⟩

-- Nothing of `v` is missing in `w`.
def Whole (v w : Volume) : Prop := ∀ z, v.Live z → w.Live z

-- The same turn of a walk that no file may meet.
def noneTurn (fuel : Nat) (s : DriverState) (e : DirectoryEntry) : Option DriverState :=
  if e.user_attribute ≠ UATTR_NOT_EMPTY then some s
  else if e.attr = ATTR_SUBDIRECTORY then walkFiles id visitsNone fuel s e.cluster
  else none

theorem Lessened.turns {b : Cell} {read : Volume} (snapshot : Lessened v dest read) (dir : b ∈ v.dirs)
    (below : ∀ {b : Cell} {w : Volume} {st st' : Shell}, Lessened v dest w → st.driver = w.driver → b ∈ v.dirs →
      traverseFolder frames fuel st (cellNumber b) dest true = some st' → ∃ w', st'.driver = w'.driver ∧ Lessened v dest w' ∧
        (Whole v w' → Whole v w ∧ walkFiles id visitsNone fuel v.driver (cellNumber b) = some v.driver))
    {l : List (Fin DIRECTORY_ENTRY_COUNT)} (low : ∀ i ∈ l, 2 ≤ i.val) (less : Lessened v dest w) (drive : st.driver = w.driver)
    (ran : (l.map (read.driver.table b)).foldlM (moveTurn frames dest fuel b) st = some st') :
    ∃ w', st'.driver = w'.driver ∧ Lessened v dest w' ∧ (Whole v w' → Whole v w ∧
      (Whole v read → (l.map (v.driver.table b)).foldlM (noneTurn fuel) v.driver = some v.driver)) := by
  induction l generalizing w st with
  | nil =>
    cases ran
    exact ⟨w,drive,less,fun whole => ⟨whole,fun _ => rfl⟩⟩
  | cons i rest ih =>
    rw [List.map_cons,List.foldlM_cons] at ran
    obtain ⟨st₁,turn,later⟩ := Option.bind_eq_some_iff.mp ran
    have lowRest : ∀ j ∈ rest, 2 ≤ j.val := fun j member => low j (List.mem_cons_of_mem _ member)
    have lowHere : 2 ≤ i.val := low i List.mem_cons_self
    unfold moveTurn at turn
    split at turn
    · rename_i unused
      cases turn
      obtain ⟨w',drive',less',rests⟩ := ih lowRest less drive later
      refine ⟨w',drive',less',fun whole => ⟨(rests whole).1,fun wholeRead => ?_⟩⟩
      have unusedV : (v.driver.table b i).user_attribute ≠ UATTR_NOT_EMPTY := fun used =>
        unused (wholeRead ⟨b,i⟩ ⟨⟨dir,lowHere⟩,used⟩).2
      rw [List.map_cons,List.foldlM_cons,noneTurn,if_pos unusedV]
      exact (rests whole).2 wholeRead
    · rename_i used
      have dirRead : b ∈ read.dirs := by
        rw [snapshot.dirs]
        exact dir
      obtain ⟨live,entry⟩ := snapshot.kept ⟨b,i⟩ ⟨⟨dirRead,lowHere⟩,not_not.mp used⟩
      have same : read.driver.table b i = v.driver.table b i := entry
      rw [same] at used turn
      split at turn
      · rename_i folder
        obtain ⟨b',dir',at_⟩ := unforged.marked ⟨b,i⟩ live folder
        have cluster : (v.driver.table b i).cluster = cellNumber b' := at_
        rw [cluster] at turn
        obtain ⟨w₁,drive₁,less₁,back⟩ := below less drive dir' turn
        obtain ⟨w',drive',less',rests⟩ := ih lowRest less₁ drive₁ later
        refine ⟨w',drive',less',fun whole => ?_⟩
        obtain ⟨whole₁,plain⟩ := back (rests whole).1
        refine ⟨whole₁,fun wholeRead => ?_⟩
        rw [List.map_cons,List.foldlM_cons,noneTurn,if_neg used,if_pos folder,cluster,plain]
        exact (rests whole).2 wholeRead
      · rename_i file
        obtain ⟨w₁,drive₁,less₁,gone⟩ := less.transfer intact unforged live file drive turn
        obtain ⟨w',drive',less',rests⟩ := ih lowRest less₁ drive₁ later
        exact ⟨w',drive',less',fun whole => absurd ((rests whole).1 ⟨b,i⟩ live) gone⟩

-- A walk that moves what it finds to `dest`: if nothing is missing then, it found nothing.
theorem Lessened.walk {b : Cell} (less : Lessened v dest w) (drive : st.driver = w.driver) (dir : b ∈ v.dirs)
    (ran : traverseFolder frames fuel st (cellNumber b) dest true = some st') :
    ∃ w', st'.driver = w'.driver ∧ Lessened v dest w' ∧
      (Whole v w' → Whole v w ∧ walkFiles id visitsNone fuel v.driver (cellNumber b) = some v.driver) := by
  induction fuel generalizing w st st' b with
  | zero => cases ran
  | succ fuel ih =>
    rw [traverseFolder_turns,drive] at ran
    obtain ⟨w',drive',less',back⟩ := Lessened.turns intact unforged less dir ih tableSlots_low less drive ran
    refine ⟨w',drive',less',fun whole => ⟨(back whole).1,?_⟩⟩
    have plain := (back whole).2 (back whole).1
    rw [← entries_slots] at plain
    exact plain

end lessened

section command
variable {v : Volume} {st : Shell} {d : Cell} {command source path : List Byte} {frames : Nat → Frame}
variable (intact : Intact v) (prompt : PromptIn v st d) (line : PathLine command source path)
include intact prompt line

-- A mv that comes to an end and leaves the drive as it was is harmless, unless what it
-- took for the destination is forged.
theorem mvPath_harmless (unforged : ∀ x dest, NamesSource v d source x → getLastCluster st path = some dest → Unforged v dest)
    (leaves : LeavesDrive v.driver fun fuel => mvPath frames fuel st command) : Harmless v d source path := by
  obtain ⟨fuel,st',ran,drive'⟩ := leaves
  obtain ⟨fitsSource,fitsPath⟩ := pathCommand_fits line (Option.isSome_iff_exists.mpr ⟨st',ran⟩)
  replace ran := (pathCommand_line line fitsSource fitsPath).symm.trans ran
  refine ⟨fitsSource,fitsPath,?_⟩
  cases parsed : parseFileName source with
  | none => exact Or.inl rfl
  | some label =>
    obtain ⟨name,ext⟩ := label
    rw [parsed] at ran
    obtain ⟨dest,reached,ran⟩ := Option.bind_eq_some_iff.mp ran
    obtain ⟨i,found,ran⟩ := Option.bind_eq_some_iff.mp ran
    obtain ⟨last,done,same⟩ := Option.map_eq_some_iff.mp ran
    have table : (st.warn source dest).cwd_table = v.driver.table d := (Shell.warn_cwd_table ..).trans prompt.loaded
    have drive : (st.warn source dest).driver = v.driver := (Shell.warn_driver ..).trans prompt.drive
    have lastDrive : last.driver = v.driver := by rw [← drive',← same,Shell.conclude_driver]
    rw [table] at found done
    rw [Shell.warn_cur_cluster,prompt.here] at done
    obtain ⟨live,label⟩ := findFileFolder_some prompt.dir found
    have names : NamesSource v d source ⟨d,i⟩ := ⟨live,rfl,by rw [parsed,label.1,label.2]⟩
    have honest := unforged _ dest names reached
    have start : Lessened v dest v := ⟨rfl,intact,fun z live => ⟨live,rfl⟩,honest.quiet⟩
    have ended {w : Volume} (less : Lessened v dest w) (drive : last.driver = w.driver) : w = v := by
      obtain ⟨driver,dirs⟩ := w
      cases less.dirs
      cases drive.symm.trans lastDrive
      rfl
    rw [← label.1,← label.2] at done
    refine Or.inr ⟨(getLastCluster_isSome st).mp (Option.isSome_iff_exists.mpr ⟨dest,reached⟩),_,names,?_⟩
    by_cases folder : (v.entry ⟨d,i⟩).attr = ATTR_SUBDIRECTORY
    · obtain ⟨b,dir,cluster⟩ := honest.marked _ live folder
      have walked : traverseFolder frames fuel (st.warn source dest) (cellNumber b) dest true = some last := by
        rw [← cluster]
        exact (if_neg (not_not.mpr folder)).symm.trans done
      obtain ⟨w',drive₁,less,back⟩ := start.walk intact honest drive dir walked
      have whole : Whole v w' := by
        rw [ended less drive₁]
        exact fun _ live => live
      exact ⟨folder,fuel,cluster ▸ (back whole).2⟩
    · have moved : transfer frames fuel true (st.warn source dest) (v.entry ⟨d,i⟩).name (v.entry ⟨d,i⟩).ext (cellNumber d) dest =
          some last := (if_pos folder).symm.trans done
      obtain ⟨w',drive₁,less,gone⟩ := start.transfer intact honest live folder drive moved
      rw [ended less drive₁] at gone
      exact absurd live gone

end command

-- What cp and mv do when the source or the destination is missing.
theorem bad_arguments_left_alone {s : DriverState} {history : List (Transition Volume FsAction)} {v : Volume} {st : Shell}
    {d : Cell} {command source path : List Byte} (run : Run Volume.ClearStep (formatted s) history v)
    (prompt : PromptIn v st d) (line : PathLine command source path) (frames : Nat → Frame) :
    (GoodArguments v d source path ∨ Harmless v d source path →
      ¬ GoodArguments v d source path → LeavesAlone frames v.driver st command) ∧
    ((¬ GoodArguments v d source path → ∀ x dest, NamesSource v d source x → getLastCluster st path = some dest →
        Unforged v dest) →
      ((¬ GoodArguments v d source path → LeavesAlone frames v.driver st command) ↔
        GoodArguments v d source path ∨ Harmless v d source path)) := by
  obtain ⟨intact,_⟩ := Run.sized run
  have enough : GoodArguments v d source path ∨ Harmless v d source path →
      ¬ GoodArguments v d source path → LeavesAlone frames v.driver st command := by
    intro either bad
    have harmless := either.resolve_left bad
    exact ⟨harmless.leaves intact prompt line frames _ _ _ _,harmless.leaves intact prompt line frames _ _ _ _⟩
  refine ⟨enough,fun unforged => ⟨fun leaves => ?_,enough⟩⟩
  by_cases good : GoodArguments v d source path
  · exact Or.inl good
  · exact Or.inr (mvPath_harmless intact prompt line (unforged good) (leaves good).2)

def folderAndFile : List FsAction := [.write blankMemory (rootEntry "d" 0),.write blankMemory (rootEntry "a" 1)]

theorem folderAndFile_named : ∀ a ∈ folderAndFile,
    a.request.parent_cluster_number = ROOT_CLUSTER_NUMBER ∧ a.request.Named := by
  intro a member
  simp only [folderAndFile,List.mem_cons,List.not_mem_nil,or_false] at member
  rcases member with rfl | rfl <;> exact ⟨rfl,rootEntry_named _ _ (by decide)⟩

-- The files of that run, and where its paths lead.
structure FolderAndFile (v : Volume) : Prop where
  lives : ∀ z, v.Live z → z = ⟨2,2⟩ ∨ z = ⟨2,3⟩
  unforged : Unforged v 9999
  prompt : PromptIn v (shellOn v.driver) 2
  file : v.Live ⟨2,3⟩ ∧ (v.entry ⟨2,3⟩).attr ≠ ATTR_SUBDIRECTORY
  names : (v.entry ⟨2,2⟩).name = padded 8 (chars "d") ∧ (v.entry ⟨2,3⟩).name = padded 8 (chars "a")
  nowhere : getLastCluster (shellOn v.driver) (chars "x") = some 9999

theorem folderAndFile_run : ∃ history v, Run Volume.ClearStep (formatted blankDrive) history v ∧
    history.map Transition.action = folderAndFile ∧ FolderAndFile v := by
  obtain ⟨history,v,run,actions,replayed⟩ := rootRun (formatted_intact blankDrive) folderAndFile folderAndFile_named
  have clear := run.mono fun _ _ _ => NamedStep.clear
  obtain ⟨intact,sized⟩ := Run.sized clear
  obtain ⟨_,linked⟩ := Run.linked clear
  have facts : (replay (create_fat32 blankDrive) folderAndFile).any (fun s =>
      ((∀ i : Fin DIRECTORY_ENTRY_COUNT, 2 ≤ i.val → (s.table 2 i).user_attribute = UATTR_NOT_EMPTY → i = 2 ∨ i = 3) ∧
        (s.table 2 2).user_attribute = UATTR_NOT_EMPTY ∧ (s.table 2 3).user_attribute = UATTR_NOT_EMPTY) ∧
      (∀ i : Fin DIRECTORY_ENTRY_COUNT, 2 ≤ i.val → (s.table 3 i).user_attribute ≠ UATTR_NOT_EMPTY) ∧
      ((s.table 2 2).cluster = cellNumber 3 ∧ (s.table 2 2).filesize = 0 ∧ (s.table 2 3).attr ≠ ATTR_SUBDIRECTORY ∧
        (s.table 2 3).filesize ≠ 0) ∧
      ((s.table 2 2).name = padded 8 (chars "d") ∧ (s.table 2 3).name = padded 8 (chars "a")) ∧
      ((s.directory 9999 0).attr ≠ ATTR_SUBDIRECTORY ∧ ∀ i : Fin DIRECTORY_ENTRY_COUNT, (s.directory 9999 i).name = fun _ => 0) ∧
      getLastCluster (shellOn s) (chars "x") = some 9999) = true := by decide +kernel
  rw [show replay (create_fat32 blankDrive) _ = some v.driver from replayed,Option.any_some,decide_eq_true_eq] at facts
  obtain ⟨⟨rootSlots,usedFolder,usedFile⟩,below,⟨cluster,empty,plain,size⟩,names,⟨header,blank⟩,nowhere⟩ := facts
  have dir := sized.dir (x := ⟨2,2⟩) ⟨⟨intact.root,by decide⟩,usedFolder⟩ empty cluster
  have dirs : ∀ d, InTree v.driver d → d = 2 ∨ d = 3 := by
    intro d tree
    induction tree with
    | root => exact Or.inl rfl
    | @under b d i _ low used none at_ ih =>
      rcases ih with rfl | rfl
      · rcases rootSlots i low used with rfl | rfl
        · exact Or.inr (cellNumber_injective (at_.symm.trans cluster))
        · exact absurd none size
      · exact absurd used (below i low)
  have lives : ∀ z, v.Live z → z = ⟨2,2⟩ ∨ z = ⟨2,3⟩ := by
    rintro ⟨e,i⟩ live
    have tree : e ∈ (treeOf v.driver).dirs := by
      rw [treeOf_eq intact sized linked]
      exact live.1.1
    rcases dirs e tree with rfl | rfl
    · rcases rootSlots i live.1.2 live.2 with rfl | rfl
      · exact Or.inl rfl
      · exact Or.inr rfl
    · exact absurd live.2 (below i live.1.2)
  refine ⟨history,v,clear,actions,lives,⟨fun z live marked => ?_,⟨by decide,fun d _ => ?_⟩,header,fun z live i named => ?_⟩,
    ⟨rfl,intact.root,rfl,DriverState.directory_cell v.driver 2⟩,⟨⟨⟨intact.root,by decide⟩,usedFile⟩,plain⟩,names,nowhere⟩
  · rcases lives z live with rfl | rfl
    · exact ⟨3,dir,cluster⟩
    · exact absurd marked plain
  · have bound : d.val < 512 := d.isLt
    have far : slot 9999 = 9999 := by decide
    omega
  · have nothing := (blank i).symm.trans named.1
    rcases lives z live with rfl | rfl
    · exact absurd (congrFun (nothing.trans names.1) 0) (by decide)
    · exact absurd (congrFun (nothing.trans names.2) 0) (by decide)

-- The folder holds no file: a mv of it to nowhere does no harm.
theorem empty_folder_left_alone : ∃ history v, Run Volume.ClearStep (formatted blankDrive) history v ∧
    history.map Transition.action = folderAndFile ∧
    ((¬ GoodArguments v 2 (chars "d") (chars "x") → LeavesAlone spread v.driver (shellOn v.driver) (chars "mv d x")) ↔
      GoodArguments v 2 (chars "d") (chars "x") ∨ Harmless v 2 (chars "d") (chars "x")) := by
  obtain ⟨history,v,run,actions,drive⟩ := folderAndFile_run
  have line : PathLine (chars "mv d x") (chars "d") (chars "x") := ⟨by decide +kernel,by decide +kernel,by decide +kernel⟩
  refine ⟨history,v,run,actions,(bad_arguments_left_alone run drive.prompt line spread).2 fun _ x dest _ reached => ?_⟩
  cases drive.nowhere.symm.trans reached
  exact drive.unforged

-- The file is removed though there is no x to move it to.
theorem missing_destination_loses : ∃ history v, Run Volume.ClearStep (formatted blankDrive) history v ∧
    history.map Transition.action = folderAndFile ∧ PromptIn v (shellOn v.driver) 2 ∧
    PathLine (chars "mv a x") (chars "a") (chars "x") ∧ ¬ GoodArguments v 2 (chars "a") (chars "x") ∧
    ¬ LeavesAlone spread v.driver (shellOn v.driver) (chars "mv a x") := by
  obtain ⟨history,v,run,actions,drive⟩ := folderAndFile_run
  obtain ⟨intact,_⟩ := Run.sized run
  have line : PathLine (chars "mv a x") (chars "a") (chars "x") := ⟨by decide +kernel,by decide +kernel,by decide +kernel⟩
  refine ⟨history,v,run,actions,drive.prompt,line,?_,fun leaves => ?_⟩
  · rintro ⟨_,e,descends⟩
    rw [show (chars "x").splitOn slash = [chars "x"] by decide] at descends
    cases descends with
    | @down _ _ _ _ x _ live _ _ _ _ name =>
      rcases drive.lives x live with rfl | rfl
      · exact absurd (congrFun (drive.names.1.symm.trans name) 0) (by decide)
      · exact absurd (congrFun (drive.names.2.symm.trans name) 0) (by decide)
  · obtain ⟨_,_,nothing | ⟨_,x,⟨live,_,parsed⟩,marked,_⟩⟩ := mvPath_harmless intact drive.prompt line
      (fun x dest _ reached => by
        cases drive.nowhere.symm.trans reached
        exact drive.unforged) leaves.2
    · exact absurd nothing (by decide)
    · rcases drive.lives x live with rfl | rfl
      · rw [drive.names.1] at parsed
        have read : (parseFileName (chars "a")).map (fun label => label.1 0) = some (padded 8 (chars "d") 0) :=
          congrArg (Option.map fun label => label.1 0) parsed
        exact absurd read (by decide)
      · exact drive.file.2 marked

end Sosis.Command
