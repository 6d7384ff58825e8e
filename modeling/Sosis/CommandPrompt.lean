import Sosis.CommandCopy
import Sosis.StringWords

-- The line at the prompt of cp and mv: the words it is made of, the entry that its first
-- argument names, and the directory that its second leads to.
namespace Sosis.Command
open ByteRecords Fat32 FirstFit

-- Down from a directory through live folders of the components' names; an empty component
-- stays where it is.
inductive Descends (v : Volume) : Cell → List (List Byte) → Cell → Prop where
  | here : Descends v d [] d
  | skip : Descends v d rest e → Descends v d ([] :: rest) e
  | down {x : Place} {below : Cell} : v.Live x → x.dir = d → (v.entry x).attr = ATTR_SUBDIRECTORY → c ≠ [] → c.length ≤ 8 →
      (v.entry x).name = padded 8 c → (v.entry x).ext = (fun _ => 0) → below ∈ v.dirs →
      (v.entry x).cluster = cellNumber below → Descends v below rest e → Descends v d (c :: rest) e

theorem Descends.dir {v : Volume} {d e : Cell} {comps : List (List Byte)} (descends : Descends v d comps e) (dir : d ∈ v.dirs) :
    e ∈ v.dirs := by
  induction descends with
  | here => exact dir
  | skip _ ih => exact ih dir
  | down _ _ _ _ _ _ _ inDirs _ _ ih => exact ih inDirs

theorem Descends.short {v : Volume} {d e : Cell} {comps : List (List Byte)} (descends : Descends v d comps e) :
    ∀ c ∈ comps, c.length ≤ 8 := by
  induction descends with
  | here => exact List.forall_mem_nil _
  | skip _ ih => exact List.forall_mem_cons.mpr ⟨Nat.zero_le _,ih⟩
  | down _ _ _ _ short _ _ _ _ _ ih => exact List.forall_mem_cons.mpr ⟨short,ih⟩

-- The line at the prompt, and its two arguments.
structure PathLine (command source path : List Byte) : Prop where
  words : countWords command = 3
  source : getWord command 1 (wordLen command 1 + 1) = some source
  path : getWord command 2 (wordLen command 2 + 1) = some path

structure PromptIn (v : Volume) (st : Shell) (d : Cell) : Prop where
  drive : st.driver = v.driver
  dir : d ∈ v.dirs
  here : st.cur_cluster = cellNumber d
  loaded : st.cwd_table = v.driver.table d

def NamesSource (v : Volume) (d : Cell) (source : List Byte) (x : Place) : Prop :=
  v.Live x ∧ x.dir = d ∧ parseFileName source = some ((v.entry x).name,(v.entry x).ext)

theorem getWord_found {str word : List Byte} {idx size : Nat} (got : getWord str idx size = some word) :
    ∃ start, (wordStarts str)[idx]? = some start ∧ word = (str.drop start).take (wordLen str idx) := by
  unfold getWord at got
  cases found : (wordStarts str)[idx]? with
  | none =>
    rw [found] at got
    cases got
  | some start =>
    rw [found] at got
    simp only at got
    split at got
    · exact ⟨start,rfl,(Option.some.inj got).symm⟩
    · cases got

-- The same word, wherever it goes.
theorem getWord_resized {str word : List Byte} {idx size : Nat} (got : getWord str idx size = some word) (size' : Nat) :
    getWord str idx size' = if word.length < size' then some word else none := by
  obtain ⟨start,found,rfl⟩ := getWord_found got
  have length : ((str.drop start).take (wordLen str idx)).length = wordLen str idx := StringLoops.length_wordBytes found
  rw [getWord,found,length]

theorem getWord_fits {str word : List Byte} {idx size most : Nat} (got : getWord str idx size = some word)
    (fits : word.length ≤ most) : getWord str idx (most+1) = some word :=
  (getWord_resized got (most+1)).trans (if_pos (Nat.lt_succ_of_le fits))

theorem getWord_spills {str word : List Byte} {idx size most : Nat} (got : getWord str idx size = some word)
    (long : ¬ word.length ≤ most) : getWord str idx (most+1) = none :=
  (getWord_resized got (most+1)).trans (if_neg fun inside => long (Nat.le_of_lt_succ inside))

section paths
variable {s : DriverState} {path : List Byte}

theorem takeWhile_component {c rest : List Byte} (plain : slash ∉ c) :
    (c ++ rest).takeWhile (· != slash) = c ++ rest.takeWhile (· != slash) := by
  refine List.takeWhile_append_of_pos fun b member => ?_
  rw [bne_iff_ne]
  rintro rfl
  exact plain member

-- The first component, and where the others begin.
theorem first_component {c : List Byte} {rest : List (List Byte)} {idx : Nat} (split : (path.drop idx).splitOn slash = c :: rest) :
    (path.drop idx).takeWhile (· != slash) = c ∧ (rest = [] ∧ c = path.drop idx ∨
      (path.drop (idx+c.length+1)).splitOn slash = rest ∧ idx + c.length + 1 ≤ path.length) := by
  by_cases more : slash ∈ path.drop idx
  · obtain ⟨front,after,parts,plain⟩ := List.eq_append_cons_of_mem more
    rw [parts,List.splitOn_append_cons_self_of_not_mem plain] at split
    cases split
    have onward : path.drop (idx+c.length+1) = after := by
      rw [Nat.add_assoc,← List.drop_drop,parts,List.drop_append]
      simp
    have length := congrArg List.length parts
    rw [List.length_drop,List.length_append,List.length_cons] at length
    refine ⟨?_,Or.inr ⟨by rw [onward],by omega⟩⟩
    rw [parts,takeWhile_component plain]
    simp
  · rw [List.splitOn_eq_singleton more] at split
    cases split
    exact ⟨by simpa using @takeWhile_component (path.drop idx) [] more,Or.inl ⟨rfl,rfl⟩⟩

theorem length_splitOn (path : List Byte) : (path.splitOn slash).length = countPath path := by
  induction path with
  | nil => rfl
  | cons b rest ih =>
    unfold countPath at ih ⊢
    rw [List.splitOn_cons_eq_if_modifyHead,List.count_cons]
    by_cases here : b == slash
    · rw [if_pos here,if_pos here,List.length_cons,ih]
    · rw [if_neg here,if_neg here,List.length_modifyHead,ih]

-- What one component of a path asks of the drive.
def findIn (s : DriverState) (c : List Byte) (last_cluster : Word) : Word :=
  findCluster s ⟨0,padded 8 c,fun _ => 0,last_cluster,0⟩

theorem followPath_turn {c : List Byte} {idx : Nat} (first : (path.drop idx).takeWhile (· != slash) = c) (turns : Nat)
    (w : Word) : followPath s path (turns+1) w idx =
      if c.length ≤ 8 then followPath s path turns (findIn s c w) (idx+c.length+1) else none := by
  rw [followPath,getDir,first]
  by_cases short : c.length ≤ 8
  · simp only [if_pos short]
    rfl
  · simp only [if_neg short]
    rfl

-- One look-up a component.
def lookUp (s : DriverState) (w : Word) (c : List Byte) : Option Word := if c.length ≤ 8 then some (findIn s c w) else none

theorem followPath_eq {comps : List (List Byte)} {idx : Nat} {w : Word} (split : (path.drop idx).splitOn slash = comps) :
    followPath s path comps.length w idx = comps.foldlM (lookUp s) w := by
  induction comps generalizing idx w with
  | nil => exact absurd split (List.splitOn_ne_nil _ _)
  | cons c rest ih =>
    obtain ⟨first,others⟩ := first_component split
    rw [List.length_cons,followPath_turn first,List.foldlM_cons,lookUp]
    by_cases short : c.length ≤ 8
    · rw [if_pos short,if_pos short]
      rcases others with ⟨rfl,_⟩ | ⟨onward,_⟩
      · rfl
      · exact ih onward
    · rw [if_neg short,if_neg short]
      rfl

theorem getLastCluster_eq (st : Shell) :
    getLastCluster st path = (path.splitOn slash).foldlM (lookUp st.driver) st.cur_cluster := by
  unfold getLastCluster
  rw [← length_splitOn]
  exact followPath_eq (by rw [List.drop_zero])

theorem lookUp_isSome {comps : List (List Byte)} {w : Word} :
    (comps.foldlM (lookUp s) w).isSome ↔ ∀ c ∈ comps, c.length ≤ 8 := by
  induction comps generalizing w with
  | nil => simp
  | cons c rest ih =>
    rw [List.foldlM_cons,lookUp,List.forall_mem_cons]
    by_cases short : c.length ≤ 8
    · rw [if_pos short,and_iff_right short]
      exact ih
    · rw [if_neg short]
      exact iff_of_false Bool.false_ne_true fun both => short both.1

theorem getLastCluster_isSome (st : Shell) : (getLastCluster st path).isSome ↔ ∀ c ∈ path.splitOn slash, c.length ≤ 8 := by
  rw [getLastCluster_eq]
  exact lookUp_isSome

-- Where there is a way down through named folders, that is where the look-ups lead.
theorem lookUp_descends {v : Volume} (intact : Intact v) {d e : Cell} {comps : List (List Byte)}
    (descends : Descends v d comps e)
    (named : ∀ c ∈ comps, c ≠ []) : comps.foldlM (lookUp v.driver) (cellNumber d) = some (cellNumber e) := by
  induction descends with
  | here => rfl
  | skip => exact absurd rfl (named [] List.mem_cons_self)
  | @down b c _ _ x below live dir _ _ short name ext _ cluster _ ih =>
    have found := intact.find_self live
    rw [name,ext,dir] at found
    have step : findIn v.driver c (cellNumber b) = cellNumber below := by
      have at_ : (v.entry ⟨b,x.index⟩).cluster = cellNumber below := by
        rw [← dir]
        exact cluster
      have answer : findIn v.driver c (cellNumber b) = (v.entry ⟨b,x.index⟩).cluster := findCluster_found rfl found
      exact answer.trans at_
    rw [List.foldlM_cons,lookUp,if_pos short,step]
    exact ih fun c' member => named c' (List.mem_cons_of_mem _ member)

end paths

def Shell.Announced (st : Shell) (text : String) : Prop := st.reports.head? = some ⟨chars text,0x07⟩

instance (st : Shell) (text : String) : Decidable (st.Announced text) := inferInstanceAs (Decidable (_ = _))

@[simp] theorem Shell.conclude_driver (finished failed : String) (st : Shell) :
    (st.conclude finished failed).driver = st.driver := by
  unfold Shell.conclude
  split <;> rfl

@[simp] theorem Shell.warn_driver (st : Shell) (filename : List Byte) (dest : Word) :
    (st.warn filename dest).driver = st.driver := by
  unfold Shell.warn
  split <;> rfl

@[simp] theorem Shell.warn_cur_cluster (st : Shell) (filename : List Byte) (dest : Word) :
    (st.warn filename dest).cur_cluster = st.cur_cluster := by
  unfold Shell.warn
  split <;> rfl

@[simp] theorem Shell.warn_cwd_table (st : Shell) (filename : List Byte) (dest : Word) :
    (st.warn filename dest).cwd_table = st.cwd_table := by
  unfold Shell.warn
  split <;> rfl

@[simp] theorem Shell.warn_memory (st : Shell) (filename : List Byte) (dest : Word) :
    (st.warn filename dest).memory = st.memory := by
  unfold Shell.warn
  split <;> rfl

theorem Shell.warn_cell (st : Shell) (filename : List Byte) (d : Cell) : st.warn filename (cellNumber d) = st := by
  refine if_neg fun same => ?_
  have number := congrArg BitVec.toNat same
  rw [cellNumber_toNat] at number
  have bound : d.val < 512 := d.isLt
  have far : (9999 : Word).toNat = 9999 := rfl
  omega

theorem Shell.conclude_announced {finished failed : String} {st : Shell} (fine : st.copy_status = 0) :
    (st.conclude finished failed).Announced finished := by
  unfold Shell.conclude
  rw [if_pos fine]
  rfl

section lookup
variable {v : Volume} {d : Cell} {x : Place}

theorem findFileFolder_live (intact : Intact v) (live : v.Live x) :
    findFileFolder (v.driver.table x.dir) (v.entry x).name (v.entry x).ext = some x.index := by
  refine firstFit_some.mpr ⟨live.1.2,?_,fun j low before => ?_⟩
  · have used : (v.driver.table x.dir x.index).user_attribute = UATTR_NOT_EMPTY := live.2
    simp [used,memcmp_eq_zero,Volume.entry]
  · by_contra matched
    simp only [Bool.not_eq_false,Bool.and_eq_true,beq_iff_eq,memcmp_eq_zero] at matched
    obtain ⟨⟨used,name⟩,ext⟩ := matched
    have same := intact.unique ⟨x.dir,j⟩ x ⟨⟨live.1.1,low⟩,used⟩ live rfl ⟨name,ext⟩
    exact absurd (congrArg Place.index same) (Fin.ne_of_lt before)

theorem findFileFolder_some {name : Name} {ext : Ext} {i : Fin DIRECTORY_ENTRY_COUNT} (dir : d ∈ v.dirs)
    (found : findFileFolder (v.driver.table d) name ext = some i) : v.Live ⟨d,i⟩ ∧ (v.entry ⟨d,i⟩).Named name ext := by
  obtain ⟨low,matched,_⟩ := firstFit_some.mp found
  simp only [Bool.and_eq_true,beq_iff_eq,memcmp_eq_zero] at matched
  exact ⟨⟨⟨dir,low⟩,matched.1.1⟩,matched.1.2,matched.2⟩

end lookup

section prompt
variable {v : Volume} {st : Shell} {d : Cell} {command source path : List Byte} {frames : Nat → Frame}
  {usage finished failed : String} {isDelete : Bool} {fuel : Nat}

-- What is left of pathCommand once its line is known.
theorem pathCommand_line (line : PathLine command source path) (fitsSource : source.length ≤ 11) (fitsPath : path.length ≤ 99) :
    pathCommand frames usage finished failed isDelete fuel st command =
      match parseFileName source with
      | none => some (((st.puts "Error: " 0x04).putBytes source 0x07).puts ": Invalid source file name or extension.\n" 0x07)
      | some (name,ext) => (getLastCluster st path).bind fun dest =>
        (findFileFolder (st.warn source dest).cwd_table name ext).bind fun idx =>
          (if ((st.warn source dest).cwd_table idx).attr ≠ ATTR_SUBDIRECTORY then
              transfer frames fuel isDelete (st.warn source dest) name ext (st.warn source dest).cur_cluster dest
            else traverseFolder frames fuel (st.warn source dest) ((st.warn source dest).cwd_table idx).cluster dest
              isDelete).map (Shell.conclude finished failed) := by
  have words : ¬ countWords command ≠ 3 := not_not.mpr line.words
  have first : getWord command 1 12 = some source := getWord_fits line.source fitsSource
  have second : getWord command 2 100 = some path := getWord_fits line.path fitsPath
  unfold pathCommand
  rw [if_neg words,first,second]
  simp only [Option.bind_eq_bind,Option.bind_some]
  cases parseFileName source with
  | none => rfl
  | some parsed =>
    obtain ⟨name,ext⟩ := parsed
    simp only
    refine congrArg _ (funext fun dest => congrArg _ (funext fun idx => ?_))
    split <;> exact Option.map_eq_bind.symm

-- What it takes to get past the first checks.
theorem pathCommand_fits (line : PathLine command source path)
    (ran : (pathCommand frames usage finished failed isDelete fuel st command).isSome) :
    source.length ≤ 11 ∧ path.length ≤ 99 := by
  have words : ¬ countWords command ≠ 3 := not_not.mpr line.words
  unfold pathCommand at ran
  rw [if_neg words] at ran
  by_cases fitsSource : source.length ≤ 11
  · by_cases fitsPath : path.length ≤ 99
    · exact ⟨fitsSource,fitsPath⟩
    · rw [getWord_spills line.path fitsPath] at ran
      simp at ran
  · rw [getWord_spills line.source fitsSource] at ran
    simp at ran

-- And once its source is known.
theorem pathCommand_source {x : Place} {dest : Word} (intact : Intact v) (prompt : PromptIn v st d)
    (line : PathLine command source path) (names : NamesSource v d source x) (fitsSource : source.length ≤ 11)
    (fitsPath : path.length ≤ 99) (reached : getLastCluster st path = some dest) :
    pathCommand frames usage finished failed isDelete fuel st command =
      (if (v.entry x).attr ≠ ATTR_SUBDIRECTORY then
          transfer frames fuel isDelete (st.warn source dest) (v.entry x).name (v.entry x).ext (cellNumber x.dir) dest
        else traverseFolder frames fuel (st.warn source dest) (v.entry x).cluster dest isDelete).map
        (Shell.conclude finished failed) := by
  obtain ⟨live,rfl,parsed⟩ := names
  have found := findFileFolder_live intact live
  have entry : v.driver.table x.dir x.index = v.entry x := rfl
  rw [pathCommand_line line fitsSource fitsPath,parsed,reached]
  simp only [Shell.warn_cur_cluster,Shell.warn_cwd_table,prompt.here,prompt.loaded,found,entry,Option.bind_some]

theorem PromptIn.reaches (prompt : PromptIn v st d) (intact : Intact v) {e : Cell} (descends : Descends v d (path.splitOn slash) e)
    (named : ∀ c ∈ path.splitOn slash, c ≠ []) : getLastCluster st path = some (cellNumber e) := by
  rw [getLastCluster_eq,prompt.drive,prompt.here]
  exact lookUp_descends intact descends named

end prompt

end Sosis.Command
