import Sosis.CommandNowhere
import Sosis.CommandPrompt

-- cp of one file: what the state must be like for the copy to be exact, and that
-- nothing less is enough. A run that reads a variable before it is set, or copies what
-- the stack held, has no outcome the command could answer for.
namespace Sosis.Command
open ByteRecords Fat32 FirstFit LinkedCells TransitionRuns

-- A buffer of each kind, far enough from the others.
def spread : Nat → Frame := fun _ => ⟨0,4096,fun _ => 8192,0⟩

section converse
variable {v : Volume} {st : Shell} {x : Place} {d : Cell} {b : Byte}

theorem Vacated.lookup {v₁ : Volume} (vacated : Vacated v d (v.entry x).name (v.entry x).ext v₁) (intact : Intact v)
    (live : v.Live x) (file : (v.entry x).attr ≠ ATTR_SUBDIRECTORY) :
    x.dir ≠ d ∧ findEntry (v₁.driver.table x.dir) (v.entry x).name (v.entry x).ext = some x.index ∧ Undisturbed v v₁ x ∨
      x.dir = d ∧ findEntry (v₁.driver.table x.dir) (v.entry x).name (v.entry x).ext = none := by
  have before := intact.find_self live
  by_cases here : x.dir = d
  · refine Or.inr ⟨here,?_⟩
    subst here
    rcases vacated.absent_or intact (intact.named x live) with absent | ⟨_,i,found,folder,_⟩
    · exact absent
    · cases found.symm.trans before
      exact absurd folder file
  · have kept := vacated.undisturbed intact live fun same => absurd same here
    refine Or.inl ⟨here,?_,kept⟩
    rw [vacated.table_elsewhere intact kept.live.1.1 here]
    exact before

theorem Vacated.source_file {v₁ : Volume} (vacated : Vacated v d (v.entry x).name (v.entry x).ext v₁) (intact : Intact v)
    (live : v.Live x) (file : (v.entry x).attr ≠ ATTR_SUBDIRECTORY) {i : Fin DIRECTORY_ENTRY_COUNT}
    (found : findEntry (v₁.driver.table x.dir) (v.entry x).name (v.entry x).ext = some i) :
    (v₁.driver.table x.dir i).attr ≠ ATTR_SUBDIRECTORY := by
  rcases vacated.lookup intact live file with ⟨_,at_,kept⟩ | ⟨_,at_⟩
  · cases found.symm.trans at_
    rw [show v₁.driver.table x.dir x.index = v.entry x from kept.entry]
    exact file
  · cases found.symm.trans at_

theorem Vacated.read_source {v₁ : Volume} (vacated : Vacated v d (v.entry x).name (v.entry x).ext v₁) (intact : Intact v)
    (live : v.Live x) (file : (v.entry x).attr ≠ ATTR_SUBDIRECTORY) (buf size : Word) (reader : Memory) :
    ∃ retcode memory, Fat32.read v₁.driver reader ⟨buf,(v.entry x).name,(v.entry x).ext,cellNumber x.dir,size⟩ =
      some (retcode,memory) ∧ (x.dir = d → memory = reader) := by
  have intact₁ := vacated.intact intact
  rcases vacated.lookup intact live file with ⟨away,_,kept⟩ | ⟨_,at_⟩
  · obtain ⟨c,rest,_,chain,_⟩ := intact₁.chained x kept.live
    have ran := @Intact.read_live v₁ x ⟨buf,(v.entry x).name,(v.entry x).ext,cellNumber x.dir,size⟩ intact₁ kept.live rfl
      (by rw [kept.entry]; exact ⟨rfl,rfl⟩) _ chain reader
    exact ⟨_,_,ran,fun here => absurd here away⟩
  · refine ⟨3,reader,?_,fun _ => rfl⟩
    simp only [Fat32.read,DriverState.directory_cell,at_]

variable (intact : Intact v) (live : v.Live x) (file : (v.entry x).attr ≠ ATTR_SUBDIRECTORY) (dir : d ∈ v.dirs)
  (drive : st.driver = v.driver) (calm : b ≠ UATTR_NOT_EMPTY)
include intact live file dir drive calm

-- A run on a stack that holds the byte `b` everywhere comes down to the deletes and one
-- write; what it writes of a source that is gone is the stack.
theorem copy_wrote {fuel : Nat} {st' : Shell} (ran : copy spread (fuel+1) {st with memory := fun _ => b} (v.entry x).name
    (v.entry x).ext (cellNumber x.dir) (v.entry x).name (v.entry x).ext (cellNumber d) = some st') :
    ∃ v₁ v₂ source memory buf code, Vacated v d (v.entry x).name (v.entry x).ext v₁ ∧
      findSource (v₁.driver.table x.dir) (v.entry x).name (v.entry x).ext = some source ∧
      Effect v₁ (.write memory ⟨buf,(v.entry x).name,(v.entry x).ext,cellNumber d,
        if source.is_dir then 0 else source.src_size⟩) code v₂ ∧
      st'.driver = v₂.driver ∧ (x.dir = d → source.is_dir = false → memory.at buf 0 = b) := by
  have drive' : ({st with memory := fun _ => b} : Shell).driver = v.driver := drive
  obtain ⟨st₁,v₁,cleared,drive₁,vacated,still⟩ := clearTarget_vacates intact dir (intact.named x live) drive' (spread fuel)
  have intact₁ := vacated.intact intact
  have dir₁ := vacated.dir_kept dir
  have stack : ∀ k, 4096 ≤ k → k < 12288 → st₁.memory (BitVec.ofNat 32 k) = b := by
    intro k low high
    refine still (BitVec.ofNat 32 k) ?_
    show 2048 ≤ (BitVec.ofNat 32 k - 0#32).toNat
    rw [BitVec.sub_zero,BitVec.toNat_ofNat,Nat.mod_eq_of_lt (by omega)]
    omega
  cases found : findSource (st₁.driver.directory (cellNumber x.dir)) (v.entry x).name (v.entry x).ext with
  | none => cases (copy_missing cleared found).symm.trans ran
  | some source =>
    have found₁ := found
    rw [drive₁,DriverState.directory_cell] at found₁
    cases kind : source.is_dir with
    | true =>
      obtain ⟨target_cluster_number,st₂,memory,code,v₂,entered,drive₂,effect⟩ := copyFolder_effect (spread fuel)
        source.src_size (cellNumber x.dir) (v.entry x).name (v.entry x).name (v.entry x).ext (v.entry x).ext intact₁ dir₁ drive₁
      have unread : (st₁.read_directory ⟨(spread fuel).src_table,(v.entry x).name,(v.entry x).ext,cellNumber x.dir,
          source.src_size⟩).2.memory = st₁.memory := by
        refine Shell.read_directory_other ?_
        rw [drive₁,DriverState.directory_cell]
        exact fun i at_ => vacated.source_file intact live file at_
      rw [unread] at entered
      have bare : ∀ i, (directoryCodec.decode (st₁.memory.at (spread fuel).src_table) i).user_attribute ≠ UATTR_NOT_EMPTY := by
        intro i
        have inside : i.val < 64 := i.isLt
        have byte : (directoryCodec.decode (st₁.memory.at (spread fuel).src_table) i).user_attribute =
            st₁.memory (BitVec.ofNat 32 (4096 + (i.val*32+12))) := by
          rw [BitVec.ofNat_add]
          rfl
        rw [byte,stack _ (by omega) (by omega)]
        exact calm
      cases (copy_bare_eq cleared found kind entered bare).symm.trans ran
      exact ⟨v₁,v₂,source,memory,_,code,vacated,found₁,by rw [kind]; exact effect,drive₂,
        fun _ other => absurd (kind.symm.trans other) (by decide)⟩
    | false =>
      obtain ⟨retcode,memory,read,unread⟩ := vacated.read_source intact live file
        ((spread fuel).data_buf source.src_size) source.src_size st₁.memory
      obtain ⟨st₂,code,v₂,copied,drive₂,_,effect⟩ := copyFile_effect (v.entry x).name (v.entry x).ext intact₁ dir₁ drive₁ read
      cases ((copy_file_eq cleared found kind).trans copied).symm.trans ran
      refine ⟨v₁,v₂,source,memory,8192,code,vacated,found₁,by rw [kind]; exact effect,drive₂,fun here _ => ?_⟩
      rw [unread here]
      exact stack 8192 (by omega) (by omega)

end converse

-- The outcome of one file's copy, for every content of the stack and every place of
-- the buffers.
def Copies (fuel : Nat) (v : Volume) (st : Shell) (x : Place) (d : Cell) : Prop :=
  ∀ frames memory, ∃ st', copy frames (fuel+1) {st with memory := memory} (v.entry x).name (v.entry x).ext
      (cellNumber x.dir) (v.entry x).name (v.entry x).ext (cellNumber d) = some st' ∧
    ExactCopy v ⟨st'.driver,v.dirs⟩ x d

-- What a copy with every byte of its source tells of the state before it, and of the one
-- between the deletes and the write.
structure Told (v v₁ : Volume) (x : Place) (d : Cell) (source : Source) (i : Fin DIRECTORY_ENTRY_COUNT) : Prop where
  vacated : Vacated v d (v.entry x).name (v.entry x).ext v₁
  found : findSource (v₁.driver.table x.dir) (v.entry x).name (v.entry x).ext = some source
  file : source.is_dir = false
  size : source.src_size = (v.entry x).filesize
  absent : findEntry (v₁.driver.table d) (v.entry x).name (v.entry x).ext = none
  vacant : findIdxEmptyEntry (v₁.driver.table d) = some i
  slot : (v₁.driver.table d i).attr ≠ ATTR_SUBDIRECTORY
  enough : ceil (v.entry x).filesize.toNat ≤ (freeCells v₁.driver.cluster_map).card

section told
variable {v v₁ v₂ : Volume} {x y : Place} {d : Cell} {source : Source} {memory : Memory} {buf : Word} {code : Int}
  {data : Bytes} {i : Fin DIRECTORY_ENTRY_COUNT} (intact : Intact v) (live : v.Live x)
include intact live

theorem wrote_told (vacated : Vacated v d (v.entry x).name (v.entry x).ext v₁)
    (found : findSource (v₁.driver.table x.dir) (v.entry x).name (v.entry x).ext = some source)
    (effect : Effect v₁ (.write memory ⟨buf,(v.entry x).name,(v.entry x).ext,cellNumber d,
      if source.is_dir then 0 else source.src_size⟩) code v₂) (dir : d ∈ v.dirs) (low : 2 ≤ y.index.val)
    (twin : Twin v v₂ x d y) (size : (v₂.entry y).filesize = (v.entry x).filesize) (contents : v₂.Contents y data) :
    Told v v₁ x d source y.index ∧ data 0 = memory.at buf 0 := by
  obtain ⟨absent,nonzero,c,rest,wrote,length,enough,slot,first⟩ := readable_wrote intact (intact.named x live) vacated
    effect dir twin.1 low twin.2 contents
  have kind : source.is_dir = false := by
    by_contra folder
    exact nonzero (if_pos (by simpa using folder))
  have whole := wrote.size_after
  have vacant := wrote.writable.vacant
  rw [parent_table rfl] at vacant
  simp only [kind,Bool.false_eq_true,if_false] at whole enough
  have same_size : source.src_size = (v.entry x).filesize := by
    rw [← whole,← size]
    exact congrArg (fun z => (v₂.entry z).filesize) (by rw [← twin.1])
  exact ⟨⟨vacated,found,kind,same_size,absent,vacant,slot,by rw [← same_size]; exact enough⟩,first⟩

theorem Told.movable (told : Told v v₁ x d source i) (elsewhere : x.dir ≠ d) (readable : ∃ data, v.Contents x data) :
    Movable v x d := by
  have vacated := told.vacated
  have kept := vacated.undisturbed intact live fun here => absurd here elsewhere
  refine ⟨elsewhere,readable,?_,?_,?_,?_⟩
  · have found := told.found
    rw [vacated.table_elsewhere intact kept.live.1.1 elsewhere] at found
    refine ⟨source.src_cluster_number,found.trans ?_⟩
    rw [← told.size,← told.file]
  · intro j at_ folder
    cases vacated with
    | absent none => cases none.symm.trans at_
    | blocked present => cases told.absent.symm.trans present
    | deleted deleted =>
      cases deleted.found.symm.trans at_
      rw [deleted.cluster,DriverState.directory_cell]
      exact deleted.childless folder
  · have vacant := told.vacant
    rw [vacated.vacant told.absent] at vacant
    exact ⟨i,vacant,by rw [← vacated.attr]; exact told.slot⟩
  · obtain ⟨gone,reclaims,free⟩ := vacated.reclaims intact told.absent
    exact ⟨gone,reclaims,by rw [← free]; exact told.enough⟩

end told

section exact
variable {v : Volume} {st : Shell} {x : Place} {d : Cell} {fuel : Nat} (intact : Intact v) (live : v.Live x)
  (dir : d ∈ v.dirs) (drive : st.driver = v.driver)
include intact live dir drive

theorem Copies.told (copies : Copies fuel v st x d) {b : Byte} (calm : b ≠ UATTR_NOT_EMPTY) :
    (∃ v₁ source i, Told v v₁ x d source i) ∧ (∀ z, v.Live z → Twin v v x d z → ¬ v.Folder z) ∧
      ∃ data, v.Contents x data ∧ (x.dir = d → data 0 = b) := by
  obtain ⟨st',ran,exact⟩ := copies spread fun _ => b
  obtain ⟨y,data,liveY,twin,_,size,contents,copied⟩ := exact.copied
  have found := intact.find_self live
  obtain ⟨v₁,v₂,source,memory,buf,code,vacated,source_found,effect,same,stack⟩ :=
    copy_wrote intact live (contents.file found) dir drive calm ran
  rw [same] at size twin copied
  obtain ⟨told,first⟩ := wrote_told intact live vacated source_found effect dir liveY.1.2 twin size copied
  exact ⟨⟨v₁,source,y.index,told⟩,exact.replaced,data,contents,fun here => first.trans (stack here told.file)⟩

variable (sized : Sized v) (file : ¬ v.Folder x)
include sized file

theorem copies_iff : Copies fuel v st x d ↔ Copyable v x d := by
  constructor
  · intro copies
    have nonzero : (v.entry x).filesize ≠ 0 := fun empty => file (sized x live empty)
    obtain ⟨⟨v₁,source,i,told⟩,replaced,data,contents,stack⟩ := copies.told intact live dir drive (b := 0) (by decide)
    obtain ⟨_,_,data',contents',stack'⟩ := copies.told intact live dir drive (b := 1) (by decide)
    have elsewhere : x.dir ≠ d := by
      intro here
      have positive : 0 < (v.entry x).filesize.toNat :=
        Nat.pos_of_ne_zero fun zero => nonzero (BitVec.eq_of_toNat_eq zero)
      have equal := contents.unique contents' positive
      rw [stack here,stack' here] at equal
      exact absurd equal (by decide)
    refine ⟨told.movable intact live elsewhere ⟨data,contents⟩,fun j at_ => ?_⟩
    obtain ⟨low,named,_⟩ := findEntry_some.mp at_
    exact replaced ⟨d,j⟩ (intact.live_of_named ⟨dir,low⟩ fun unnamed => intact.named x live
      ⟨named.1.symm.trans unnamed.1,named.2.symm.trans unnamed.2⟩) ⟨rfl,named⟩
  · intro copyable frames memory
    have drive' : ({st with memory := memory} : Shell).driver = v.driver := drive
    obtain ⟨st',v₁,v',i,ran,drive₁,_,arrives⟩ := copyable.copies intact sized live file dir drive' frames fuel
    obtain ⟨dirs,exact⟩ := copyable.exact intact live arrives
    refine ⟨st',ran,?_⟩
    rw [drive₁,← dirs]
    exact exact

end exact

-- A copy is exact whatever was on the stack, and wherever the buffers are.
def CopiesExactly (fuel : Nat) (v : Volume) (st : Shell) (command : List Byte) (x : Place) (d : Cell) : Prop :=
  ∀ frames memory, ∃ st', copyPath frames (fuel+1) {st with memory := memory} command = some st' ∧
    st'.Announced "Copy successful.\n" ∧ ExactCopy v ⟨st'.driver,v.dirs⟩ x d

-- The destination has an exact copy as it is.
def Held (v : Volume) (x : Place) (d : Cell) : Prop := ∃ z data, v.Live z ∧ Twin v v x d z ∧ ¬ v.Folder z ∧
  (v.entry z).filesize = (v.entry x).filesize ∧ v.Contents x data ∧ v.Contents z data

-- An empty component is looked up like a name, and found in the first dead slot. Where that
-- leads nothing can be written, and the copy is that of before if there is one.
def CopyFits (v : Volume) (path : List Byte) (x : Place) (d : Cell) : Prop :=
  if ∀ c ∈ path.splitOn slash, c ≠ [] then Copyable v x d
  else Held v x d ∧ ∃ source, findSource (v.driver.table x.dir) (v.entry x).name (v.entry x).ext = some source ∧
    source.is_dir = false

theorem CopyFits.readable {v : Volume} {path : List Byte} {x : Place} {d : Cell} (fits : CopyFits v path x d) :
    ∃ data, v.Contents x data := by
  unfold CopyFits at fits
  split at fits
  · exact fits.readable
  · obtain ⟨⟨_,data,_,_,_,_,contents,_⟩,_⟩ := fits
    exact ⟨data,contents⟩

section command
variable {v : Volume} {st : Shell} {b d : Cell} {command source path : List Byte} {x : Place} {dest : Word} {fuel : Nat}

theorem held_iff (intact : Intact v) (live : v.Live x) : ExactCopy v v x d ↔ Held v x d := by
  constructor
  · intro exact
    obtain ⟨y,data,liveY,twin,file,size,contents,copied⟩ := exact.copied
    exact ⟨y,data,liveY,twin,file,size,contents,copied⟩
  · rintro ⟨y,data,liveY,twin,file,size,contents,copied⟩
    refine ⟨⟨y,data,liveY,twin,file,size,contents,copied⟩,.refl live,fun z liveZ here => ?_,fun z liveZ _ => .refl liveZ,
      fun z liveZ => (Classical.em (Twin v v x d z)).imp id fun other => ⟨liveZ,other⟩⟩
    have same : z = y := intact.unique z y liveZ liveY (here.1.trans twin.1.symm)
      ⟨here.2.1.trans twin.2.1.symm,here.2.2.trans twin.2.2.symm⟩
    rw [same]
    exact file

variable (intact : Intact v) (prompt : PromptIn v st b) (line : PathLine command source path)
  (names : NamesSource v b source x) (attr : (v.entry x).attr ≠ ATTR_SUBDIRECTORY)
include intact prompt line names attr

theorem copyPath_file (fitsSource : source.length ≤ 11) (fitsPath : path.length ≤ 99)
    (reached : getLastCluster st path = some dest) (frames : Nat → Frame) (fuel : Nat) (memory : Memory) :
    copyPath frames fuel {st with memory := memory} command =
      (copy frames fuel (({st with memory := memory} : Shell).warn source dest) (v.entry x).name (v.entry x).ext
        (cellNumber x.dir) (v.entry x).name (v.entry x).ext dest).map
        (Shell.conclude "Copy successful.\n" "Copy failed: unable to verify copy.\n") := by
  have prompt' : PromptIn v {st with memory := memory} b := ⟨prompt.drive,prompt.dir,prompt.here,prompt.loaded⟩
  have reached' : getLastCluster {st with memory := memory} path = some dest := reached
  unfold copyPath
  rw [pathCommand_source intact prompt' line names fitsSource fitsPath reached',if_pos attr]
  congr 1
  simp [transfer]

-- With no empty component the command is the copy of the file.
theorem copyPath_named (sized : Sized v) (file : ¬ v.Folder x) (leads : Descends v b (path.splitOn slash) d)
    (named : ∀ c ∈ path.splitOn slash, c ≠ []) (fitsSource : source.length ≤ 11) (fitsPath : path.length ≤ 99) :
    CopiesExactly fuel v st command x d ↔ Copyable v x d := by
  have reached := prompt.reaches intact leads named
  have dir := leads.dir prompt.dir
  have live := names.1
  have ran := copyPath_file intact prompt line names attr fitsSource fitsPath reached
  simp only [Shell.warn_cell] at ran
  rw [← copies_iff intact live dir prompt.drive sized file]
  constructor
  · intro exactly frames memory
    obtain ⟨st',came,_,exact⟩ := exactly frames memory
    rw [ran] at came
    obtain ⟨st'',copied,same⟩ := Option.map_eq_some_iff.mp came
    refine ⟨st'',copied,?_⟩
    rw [← same,Shell.conclude_driver] at exact
    exact exact
  · intro copies frames memory
    have copyable := (copies_iff intact live dir prompt.drive sized file).mp copies
    have drive' : ({st with memory := memory} : Shell).driver = v.driver := prompt.drive
    obtain ⟨st',v₁,v',i,copied,drive,status,arrives⟩ := copyable.copies intact sized live file dir drive' frames fuel
    obtain ⟨dirs,exact⟩ := copyable.exact intact live arrives
    refine ⟨_,(ran frames (fuel+1) memory).trans (congrArg _ copied),Shell.conclude_announced status,?_⟩
    rw [Shell.conclude_driver,drive,← dirs]
    exact exact

-- With one, the drive stays as it is.
theorem copyPath_unnamed (reached : getLastCluster st path = some dest) (quiet : Quiet v (v.driver.directory dest))
    (fitsSource : source.length ≤ 11) (fitsPath : path.length ≤ 99) :
    CopiesExactly fuel v st command x d ↔ Held v x d ∧ ∃ source,
      findSource (v.driver.table x.dir) (v.entry x).name (v.entry x).ext = some source ∧ source.is_dir = false := by
  have live := names.1
  have ran := copyPath_file intact prompt line names attr fitsSource fitsPath reached
  have drive : ∀ memory, (({st with memory := memory} : Shell).warn source dest).driver = v.driver :=
    fun memory => (Shell.warn_driver ..).trans prompt.drive
  have header : ∀ memory, ((({st with memory := memory} : Shell).warn source dest).driver.directory dest 0).attr ≠
      ATTR_SUBDIRECTORY := fun memory => by rw [drive]; exact quiet.1
  have unnamed : ∀ memory i, ¬ ((({st with memory := memory} : Shell).warn source dest).driver.directory dest i).Named
      (v.entry x).name (v.entry x).ext := fun memory => by rw [drive]; exact quiet.2 x live
  have table : ∀ memory, (({st with memory := memory} : Shell).warn source dest).driver.directory (cellNumber x.dir) =
      v.driver.table x.dir := fun memory => by rw [drive,DriverState.directory_cell]
  constructor
  · intro exactly
    obtain ⟨st',came,_,exact⟩ := exactly spread fun _ => UATTR_NOT_EMPTY
    rw [ran] at came
    obtain ⟨st'',copied,same⟩ := Option.map_eq_some_iff.mp came
    have still := copy_nowhere (header _) (unnamed _) copied
    rw [← same,Shell.conclude_driver,still,drive,held_iff intact live] at exact
    refine ⟨exact,?_⟩
    cases found : findSource (v.driver.table x.dir) (v.entry x).name (v.entry x).ext with
    | none =>
      rw [← table fun _ => UATTR_NOT_EMPTY] at found
      cases (copy_missing (clearTarget_nowhere (unnamed _) _) found).symm.trans copied
    | some source' =>
      refine ⟨source',rfl,?_⟩
      by_contra folder
      rw [← table fun _ => UATTR_NOT_EMPTY] at found
      refine absurd (copied.symm.trans (copy_nowhere_folder (header _) (unnamed _) found (by simpa using folder) fun i => ?_))
        (by simp)
      rw [Shell.read_directory_other,Shell.warn_memory]
      · rfl
      · intro i at_
        rw [table] at at_ ⊢
        cases (intact.find_self live).symm.trans at_
        exact attr
  · rintro ⟨held,source',found,plain⟩ frames memory
    obtain ⟨c,rest,_,chain,_⟩ := intact.chained x live
    have read := @Intact.read_live v x ⟨(frames fuel).data_buf source'.src_size,(v.entry x).name,(v.entry x).ext,
      cellNumber x.dir,source'.src_size⟩ intact live rfl ⟨rfl,rfl⟩ _ chain
    rw [← table memory] at found
    obtain ⟨st',copied,still,status⟩ := copy_nowhere_file (header memory) (unnamed memory) found plain
      ((congrArg (fun s => Fat32.read s _ _) (drive memory)).trans (read _))
    refine ⟨_,(ran frames (fuel+1) memory).trans (congrArg _ copied),Shell.conclude_announced status,?_⟩
    rw [Shell.conclude_driver,still,drive,held_iff intact live]
    exact held

end command

theorem copyPath_exact_iff {s : DriverState} {history : List (Transition Volume FsAction)} {v : Volume} {st : Shell}
    {command source path : List Byte} {b d : Cell} {x : Place} (run : Run Volume.ClearStep (formatted s) history v)
    (prompt : PromptIn v st b) (line : PathLine command source path) (names : NamesSource v b source x)
    (file : ¬ v.Folder x) (leads : Descends v b (path.splitOn slash) d)
    (quiet : ¬ (∀ c ∈ path.splitOn slash, c ≠ []) → ∀ dest, getLastCluster st path = some dest →
      Quiet v (v.driver.directory dest)) (fuel : Nat) :
    CopiesExactly fuel v st command x d ↔ source.length ≤ 11 ∧ path.length ≤ 99 ∧ CopyFits v path x d := by
  obtain ⟨intact,sized⟩ := Run.sized run
  have found := intact.find_self names.1
  suffices fits : (v.entry x).attr ≠ ATTR_SUBDIRECTORY → source.length ≤ 11 → path.length ≤ 99 →
      (CopiesExactly fuel v st command x d ↔ CopyFits v path x d) by
    constructor
    · intro exactly
      obtain ⟨st',ran,_,exact⟩ := exactly spread blankMemory
      obtain ⟨_,data,_,_,_,_,contents,_⟩ := exact.copied
      obtain ⟨fitsSource,fitsPath⟩ := pathCommand_fits line (Option.isSome_of_mem ran)
      exact ⟨fitsSource,fitsPath,(fits (contents.file found) fitsSource fitsPath).mp exactly⟩
    · rintro ⟨fitsSource,fitsPath,copyFits⟩
      obtain ⟨data,contents⟩ := copyFits.readable
      exact (fits (contents.file found) fitsSource fitsPath).mpr copyFits
  intro attr fitsSource fitsPath
  unfold CopyFits
  split
  · rename_i named
    exact copyPath_named intact prompt line names attr sized file leads named fitsSource fitsPath
  · rename_i unnamed
    obtain ⟨dest,reached⟩ := Option.isSome_iff_exists.mp ((getLastCluster_isSome st).mpr leads.short)
    exact copyPath_unnamed intact prompt line names attr reached (quiet unnamed dest reached) fitsSource fitsPath

-- The inputs of the concrete runs: a shell in the root directory, and a request there.
def shellOn (s : DriverState) : Shell := ⟨s,blankMemory,ROOT_CLUSTER_NUMBER,s.directory ROOT_CLUSTER_NUMBER,0,[]⟩

def rootEntry (name : String) (buffer_size : Word) : FAT32DriverRequest :=
  ⟨0,padded 8 (chars name),padded 3 [],ROOT_CLUSTER_NUMBER,buffer_size⟩

theorem rootEntry_named (name : String) (buffer_size : Word) (visible : padded 8 (chars name) ⟨0,by decide⟩ ≠ 0) :
    (rootEntry name buffer_size).Named := fun unnamed => visible (congrFun unnamed.1 _)

-- Two files whose names begin with the same four bytes, and a folder to copy into.
def siblings : List FsAction :=
  [.write blankMemory (rootEntry "d" 0),.write blankMemory (rootEntry "abcd1" 1),.write blankMemory (rootEntry "abcd2" 2)]

def copySibling : List Byte := chars "cp abcd1 d"

theorem siblings_named : ∀ a ∈ siblings, a.request.parent_cluster_number = ROOT_CLUSTER_NUMBER ∧ a.request.Named := by
  intro a member
  simp only [siblings,List.mem_cons,List.not_mem_nil,or_false] at member
  rcases member with rfl | rfl | rfl <;> exact ⟨rfl,rootEntry_named _ _ (by decide)⟩

-- A shell in the root directory after requests there, and the file they left in slot `i`.
theorem rootRun_prompt (actions : List FsAction) (source : List Byte) (i : Fin DIRECTORY_ENTRY_COUNT)
    (inRoot : ∀ a ∈ actions, a.request.parent_cluster_number = ROOT_CLUSTER_NUMBER ∧ a.request.Named) (low : 2 ≤ i.val)
    (facts : (replay (create_fat32 blankDrive) actions).any (fun s =>
      (s.table 2 i).user_attribute = UATTR_NOT_EMPTY ∧ (s.table 2 i).filesize ≠ 0 ∧
      parseFileName source = some ((s.table 2 i).name,(s.table 2 i).ext)) = true) :
    ∃ history v, Run Volume.NamedStep (formatted blankDrive) history v ∧ history.map Transition.action = actions ∧
      replay (create_fat32 blankDrive) actions = some v.driver ∧ PromptIn v (shellOn v.driver) 2 ∧
      NamesSource v 2 source ⟨2,i⟩ ∧ ¬ v.Folder ⟨2,i⟩ := by
  obtain ⟨history,v,run,actions,replayed⟩ := rootRun (formatted_intact blankDrive) actions inRoot
  have intact := Run.intact (run.mono fun _ _ _ => NamedStep.clear)
  rw [show replay (create_fat32 blankDrive) _ = some v.driver from replayed,Option.any_some,decide_eq_true_eq] at facts
  obtain ⟨used,size,parsed⟩ := facts
  have live : v.Live ⟨2,i⟩ := ⟨⟨intact.root,low⟩,used⟩
  refine ⟨history,v,run,actions,replayed,⟨rfl,intact.root,rfl,DriverState.directory_cell v.driver 2⟩,⟨live,rfl,parsed⟩,
    fun folder => ?_⟩
  obtain ⟨d,dir,at_⟩ := folder
  exact size (intact.folder _ live d dir at_).2

-- A folder of the root, by its name.
theorem descends_folder {v : Volume} (intact : Intact v) (sized : Sized v) {i : Fin DIRECTORY_ENTRY_COUNT} {d : Cell}
    {c : List Byte} (low : 2 ≤ i.val) (used : (v.driver.table 2 i).user_attribute = UATTR_NOT_EMPTY)
    (empty : (v.driver.table 2 i).filesize = 0) (cluster : (v.driver.table 2 i).cluster = cellNumber d) (nonempty : c ≠ [])
    (short : c.length ≤ 8) (name : (v.driver.table 2 i).name = padded 8 c) (ext : (v.driver.table 2 i).ext = fun _ => 0) :
    d ∈ v.dirs ∧ Descends v 2 [c] d := by
  have live : v.Live ⟨2,i⟩ := ⟨⟨intact.root,low⟩,used⟩
  have dir : d ∈ v.dirs := sized.dir live empty cluster
  have attr := (intact.folder _ live d dir cluster).1
  exact ⟨dir,.down live rfl attr nonempty short name ext dir cluster .here⟩

theorem siblings_prompt : ∃ history v, Run Volume.NamedStep (formatted blankDrive) history v ∧
    history.map Transition.action = siblings ∧ replay (create_fat32 blankDrive) siblings = some v.driver ∧
    PromptIn v (shellOn v.driver) 2 ∧ NamesSource v 2 (chars "abcd1") ⟨2,3⟩ ∧ ¬ v.Folder ⟨2,3⟩ ∧
    Descends v 2 ((chars "d").splitOn slash) 3 := by
  obtain ⟨history,v,run,actions,replayed,prompt,names,file⟩ := rootRun_prompt siblings (chars "abcd1") 3 siblings_named
    (by decide) (by decide +kernel)
  obtain ⟨intact,sized⟩ := Run.sized (run.mono fun _ _ _ => NamedStep.clear)
  have folder : (replay (create_fat32 blankDrive) siblings).any (fun s => (s.table 2 2).user_attribute = UATTR_NOT_EMPTY ∧
      (s.table 2 2).filesize = 0 ∧ (s.table 2 2).cluster = cellNumber 3 ∧ (s.table 2 2).name = padded 8 (chars "d") ∧
      (s.table 2 2).ext = fun _ => 0) = true := by decide +kernel
  rw [replayed,Option.any_some,decide_eq_true_eq] at folder
  obtain ⟨used,empty,cluster,name,ext⟩ := folder
  obtain ⟨_,descends⟩ := descends_folder intact sized (by decide) used empty cluster (by decide) (by decide) name ext
  exact ⟨history,v,run,actions,replayed,prompt,names,file,descends⟩

theorem copySibling_line : PathLine copySibling (chars "abcd1") (chars "d") :=
  ⟨by decide +kernel,by decide +kernel,by decide +kernel⟩

theorem copyPath_exact_iff_sibling : ∃ history v, Run Volume.ClearStep (formatted blankDrive) history v ∧
    history.map Transition.action = siblings ∧ PromptIn v (shellOn v.driver) 2 ∧
    NamesSource v 2 (chars "abcd1") ⟨2,3⟩ ∧ Descends v 2 ((chars "d").splitOn slash) 3 ∧
    (CopiesExactly 0 v (shellOn v.driver) copySibling ⟨2,3⟩ 3 ↔
      (chars "abcd1").length ≤ 11 ∧ (chars "d").length ≤ 99 ∧ CopyFits v (chars "d") ⟨2,3⟩ 3) := by
  obtain ⟨history,v,run,actions,_,prompt,names,file,leads⟩ := siblings_prompt
  have clear := run.mono fun _ _ _ => NamedStep.clear
  have named : ∀ c ∈ (chars "d").splitOn slash, c ≠ [] := by decide
  exact ⟨history,v,clear,actions,prompt,names,leads,copyPath_exact_iff clear prompt copySibling_line names file leads
    (fun unnamed => absurd named unnamed) 0⟩

-- The copy of abcd1 has the size of abcd2.
theorem sibling_size_copied : ∃ history v st', Run Volume.NamedStep (formatted blankDrive) history v ∧
    history.map Transition.action = siblings ∧ PromptIn v (shellOn v.driver) 2 ∧
    PathLine copySibling (chars "abcd1") (chars "d") ∧ NamesSource v 2 (chars "abcd1") ⟨2,3⟩ ∧ ¬ v.Folder ⟨2,3⟩ ∧
    Descends v 2 ((chars "d").splitOn slash) 3 ∧ copyPath spread 1 (shellOn v.driver) copySibling = some st' ∧
    st'.Announced "Copy successful.\n" ∧ ¬ ExactCopy v ⟨st'.driver,v.dirs⟩ ⟨2,3⟩ 3 := by
  obtain ⟨history,v,run,actions,replayed,prompt,names,file,leads⟩ := siblings_prompt
  have sizes : (replay (create_fat32 blankDrive) siblings).any (fun s =>
      (copyPath spread 1 (shellOn s) copySibling).any fun st' => st'.Announced "Copy successful.\n" ∧
        ∀ i, (st'.driver.table 3 i).Named (s.table 2 3).name (s.table 2 3).ext →
          (st'.driver.table 3 i).filesize ≠ (s.table 2 3).filesize) = true := by decide +kernel
  rw [replayed,Option.any_some] at sizes
  obtain ⟨st',ran,sizes⟩ := (Option.any_eq_true _ _).mp sizes
  obtain ⟨announced,sizes⟩ := of_decide_eq_true sizes
  refine ⟨history,v,st',run,actions,prompt,copySibling_line,names,file,leads,ran,announced,fun exact => ?_⟩
  obtain ⟨⟨b,i⟩,_,_,⟨here,named⟩,_,size,_⟩ := exact.copied
  cases here
  exact sizes i named size

end Sosis.Command
