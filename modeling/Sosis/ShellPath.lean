import Sosis.CommandCopyPath
import Sosis.Fat32Tree

-- shell_state of fat32.c, and cd of command-shell.c, which moves it. The cluster and
-- the text on display are set by separate code. A result `none` is an index outside
-- cur_dir, or a component too long for getDir's buffer.
namespace Sosis.Command
open ByteRecords Fat32 TransitionRuns

abbrev pathSize : Nat := 100

structure ShellState where
  cur_dir : Fin pathSize → Byte
  idx : Nat
  cur_cluster : Word

def rootDir : List Byte := chars "Root/"

def ShellState.initial : ShellState := ⟨padded pathSize rootDir,5,ROOT_CLUSTER_NUMBER⟩

-- shell_state.cur_dir[shell_state.idx] = c; shell_state.idx++;
def ShellState.put (st : ShellState) (c : Byte) : Option ShellState :=
  if bound : st.idx < pathSize then
    some {st with cur_dir := Function.update st.cur_dir ⟨st.idx,bound⟩ c, idx := st.idx+1}
  else none

-- `new_add` is what lies at the pointer up to the first NUL.
def addPath (st : ShellState) (new_add : List Byte) : Option ShellState :=
  (new_add.foldlM ShellState.put st).bind fun st => st.put slash

-- idx--; cur_dir[idx] = '\0';
def ShellState.drop (st : ShellState) : Option ShellState :=
  match st.idx with
  | 0 => none
  | idx+1 => if bound : idx < pathSize then
      some {st with cur_dir := Function.update st.cur_dir ⟨idx,bound⟩ 0, idx := idx}
    else none

-- shell_state.cur_dir[shell_state.idx-1]
def ShellState.last (st : ShellState) : Option Byte :=
  match st.idx with
  | 0 => none
  | idx+1 => if bound : idx < pathSize then some (st.cur_dir ⟨idx,bound⟩) else none

-- while(shell_state.cur_dir[shell_state.idx-1]!='/'), where each turn lowers idx.
def dropName : Nat → ShellState → Option ShellState
  | turns,st => match st.last with
    | none => none
    | some c => if c = slash then some st
      else match turns with
      | 0 => none
      | turns+1 => st.drop.bind (dropName turns)

def removePath (st : ShellState) : Option ShellState := st.drop.bind fun st => dropName st.idx st

def copy_dir (st : ShellState) : Fin pathSize → Byte := fun i => if i.val < st.idx then st.cur_dir i else 0

-- The kernel's side of the prompt, and what the shell has put on the screen.
structure PathShell where
  shell_state : ShellState
  cwd_table : DirectoryTable
  reports : List Report -- newest first

def PathShell.puts (p : PathShell) (text : String) (color : Word) : PathShell := {p with reports := ⟨chars text,color⟩ :: p.reports}
def PathShell.error (p : PathShell) (text : String) : PathShell := (p.puts "Error: " 0x04).puts text 0x07

def update_shell_dir (s : DriverState) (p : PathShell) (cluster : Word) (path : List Byte) (addDir : Bool) : Option PathShell :=
  let p := {p with
    cwd_table := s.directory cluster
    shell_state := {p.shell_state with cur_cluster := cluster}}
  if addDir then
    if path = [] then some p
    else (addPath p.shell_state path).map fun st => {p with shell_state := st}
  else (removePath p.shell_state).map fun st => {p with shell_state := st}

-- What addPath reads at `dir`: the name, and with eight characters in it also what
-- lies `behind` the buffer up to the next NUL.
def textAt (dir : Name) (behind : List Byte) : List Byte :=
  let name := (List.ofFn dir).takeWhile (· != 0)
  if name.length < 8 then name else name ++ behind

-- if(isUpdate==1 && last_cluster!=9999){ syscall(18,...); }
def updateFound (s : DriverState) (p : PathShell) (last_cluster : Word) (dir : Name) (behind : List Byte) :
    Option PathShell :=
  if last_cluster ≠ 9999 then update_shell_dir s p last_cluster (textAt dir behind) true else some p

-- The turns of getLastCluster(path, true) still to come, from turn i. The getDir behind
-- the last component finds the zeros that fill the buffer, if one is left to look at.
def updatePath (s : DriverState) (path : List Byte) (behind : Nat → List Byte) :
    Nat → Nat → Word → Nat → PathShell → Option (Word × PathShell)
  | 0,_,last_cluster,lastIdx,p => if lastIdx < pathSize then some (last_cluster,p) else none
  | turns+1,i,last_cluster,lastIdx,p => do
    let (dir,lastIdx) ← getDir path slash lastIdx
    let last_cluster := findCluster s ⟨0,dir,fun _ => 0,last_cluster,0⟩
    let p ← updateFound s p last_cluster dir (behind i)
    updatePath s path behind turns (i+1) last_cluster lastIdx p

-- A line for cd: a C string whose second word fits `char path[100]`, and what is on the
-- stack behind `char dir[8]` when its components are added.
structure CdLine where
  command : List Byte
  behind : Nat → List Byte
  terminated : ∀ c ∈ command, c ≠ 0
  fits : countWords command = 2 → (getWord command 1 pathSize).isSome

def cd (s : DriverState) (p : PathShell) (line : CdLine) : Option PathShell :=
  if countWords line.command ≠ 2 then some (p.error "Invalid syntax\ncd <dir_name>\n")
  else do
    let path ← getWord line.command 1 pathSize
    if path = [] then some (p.error "Missing argument")
    else if path = chars ".." then
      if p.shell_state.cur_cluster = ROOT_CLUSTER_NUMBER then some (p.error "Current Directory is Already in Root\n")
      else update_shell_dir s p (p.cwd_table 1).cluster [] false
    else
      let (idx,p) ← updatePath s path line.behind (countPath path) 0 p.shell_state.cur_cluster 0 p
      return if idx = 9999 then p.error "Path not valid" else p

-- Between two commands main loads the table of the current directory once more.
def refresh (s : DriverState) (p : PathShell) : Option PathShell :=
  update_shell_dir s p p.shell_state.cur_cluster [] true

def CdStep (s : DriverState) (p : PathShell) (line : CdLine) (p' : PathShell) : Prop :=
  (cd s p line).bind (refresh s) = some p'

-- main's first call of update_shell_dir.
def boot (s : DriverState) : PathShell := ⟨.initial,s.directory ROOT_CLUSTER_NUMBER,[]⟩

-- What the screen shows between two commands.
def displayed (st : ShellState) : List Byte := (List.ofFn (copy_dir st)).takeWhile (· != 0)

def nameText (name : Name) : List Byte := (List.ofFn name).takeWhile (· != 0)
def pathText (names : List Name) : List Byte := rootDir ++ names.flatMap fun name => nameText name ++ [slash]

-- The folders on the way from the root to a directory.
inductive Route (v : Volume) : Cell → List Name → Prop where
  | root : Route v 2 []
  | down {x d names} : Route v x.dir names → v.Live x → d ∈ v.dirs → (v.entry x).cluster = cellNumber d →
      Route v d (names ++ [(v.entry x).name])

-- The path on display is the one of the current directory.
def Follows (v : Volume) (st : ShellState) : Prop :=
  ∃ d ∈ v.dirs, st.cur_cluster = cellNumber d ∧ ∃ names, Route v d names ∧ displayed st = pathText names

-- A component that findCluster has an answer for is looked up in a directory, names a
-- folder, ends within its buffer or at a NUL behind it, and leaves room for its text.
structure Enters (v : Volume) (behind c : List Byte) (last_cluster cluster : Word) (idx : Nat) : Prop where
  fromDir : last_cluster ≠ 9999
  named : c ≠ []
  folder : ∃ d ∈ v.dirs, cluster = cellNumber d
  ended : c.length = 8 → behind = []
  room : idx + c.length + 1 ≤ pathSize

def WalkFits (v : Volume) (behind : Nat → List Byte) : List (List Byte) → Nat → Word → Nat → Prop
  | [],_,_,_ => True
  | c :: rest,i,last_cluster,idx =>
    let cluster := findIn v.driver c last_cluster
    c.length ≤ 8 ∧ (cluster = 9999 → WalkFits v behind rest (i+1) 9999 idx) ∧
      (cluster ≠ 9999 → Enters v (behind i) c last_cluster cluster idx ∧
        WalkFits v behind rest (i+1) cluster (idx+c.length+1))

def CdFits (v : Volume) (p : PathShell) (line : CdLine) : Prop :=
  countWords line.command = 2 → ∀ path, getWord line.command 1 pathSize = some path → path ≠ chars ".." →
    path.length + 1 < pathSize ∧
      WalkFits v line.behind (path.splitOn slash) 0 p.shell_state.cur_cluster p.shell_state.idx

theorem Route.unique {v : Volume} (intact : Intact v) (linked : Linked v) {d : Cell} {names names' : List Name}
    (left : Route v d names) (right : Route v d names') : names = names' := by
  induction left generalizing names' with
  | root =>
    generalize at_ : (2 : Cell) = d at right
    cases right with
    | root => rfl
    | down _ live dir start => exact absurd at_.symm (linked.link intact live dir start).1
  | @down x d names _ live dir start ih =>
    generalize at_ : d = e at right
    cases right with
    | root => exact absurd at_ (linked.link intact live dir start).1
    | @down y _ names' above live' dir' start' =>
      rw [← at_] at start'
      cases intact.entry_unique live live' dir start start'
      rw [ih above]

-- cur_dir holds this text, and nothing is on display behind it.
structure Holds (st : ShellState) (text : List Byte) : Prop where
  idx : st.idx = text.length
  room : text.length ≤ pathSize
  cells : ∀ i : Fin pathSize, ∀ inside : i.val < text.length, st.cur_dir i = text[i.val]

section text
variable {st : ShellState} {text word : List Byte} {c : Byte}

theorem initial_holds : Holds .initial rootDir := by
  refine ⟨rfl,by decide,?_⟩
  decide

theorem Holds.displayed (holds : Holds st text) (visible : ∀ c ∈ text, c ≠ 0) : displayed st = text := by
  have cells : List.ofFn (copy_dir st) = text ++ List.replicate (pathSize - text.length) 0 := by
    have room := holds.room
    have lengths : (List.ofFn (copy_dir st)).length = (text ++ List.replicate (pathSize - text.length) 0).length := by
      rw [List.length_ofFn,List.length_append,List.length_replicate]
      omega
    refine List.ext_getElem lengths fun i left right => ?_
    rw [List.getElem_ofFn,List.getElem_append]
    unfold copy_dir
    rw [holds.idx]
    split
    · rename_i inside
      exact holds.cells _ inside
    · rw [List.getElem_replicate]
  rw [Command.displayed,cells,List.takeWhile_append_of_pos (by simpa using visible),List.takeWhile_replicate]
  simp

theorem Holds.put (holds : Holds st text) (room : text.length < pathSize) :
    ∃ st', st.put c = some st' ∧ st'.cur_cluster = st.cur_cluster ∧ Holds st' (text ++ [c]) := by
  have bound : st.idx < pathSize := holds.idx ▸ room
  refine ⟨_,dif_pos bound,rfl,?_,?_,?_⟩
  · simp [holds.idx]
  · rw [List.length_append]
    exact room
  · intro i inside
    rw [List.getElem_append]
    split
    · rename_i old
      rw [← holds.cells i old]
      refine Function.update_of_ne ?_ _ _
      rintro rfl
      exact absurd old (by simp [holds.idx])
    · rename_i new
      have here : i = ⟨st.idx,bound⟩ := by
        refine Fin.ext ?_
        simp only [List.length_append,List.length_singleton] at inside
        simp only [holds.idx]
        omega
      subst here
      simp

theorem Holds.putAll (holds : Holds st text) (room : text.length + word.length ≤ pathSize) :
    ∃ st', word.foldlM ShellState.put st = some st' ∧ st'.cur_cluster = st.cur_cluster ∧ Holds st' (text ++ word) := by
  induction word generalizing st text with
  | nil => exact ⟨st,rfl,rfl,by simpa using holds⟩
  | cons c rest ih =>
    rw [List.length_cons] at room
    obtain ⟨st₁,put,same,holds₁⟩ := @Holds.put st text c holds (by omega)
    obtain ⟨st₂,rests,same₂,holds₂⟩ := ih holds₁ (by simp; omega)
    refine ⟨st₂,?_,same₂.trans same,by simpa using holds₂⟩
    rw [List.foldlM_cons,put]
    exact rests

theorem Holds.addPath (holds : Holds st text) (room : text.length + word.length + 1 ≤ pathSize) :
    ∃ st', addPath st word = some st' ∧ st'.cur_cluster = st.cur_cluster ∧ Holds st' (text ++ (word ++ [slash])) := by
  obtain ⟨st₁,added,same,holds₁⟩ := @Holds.putAll st text word holds (by omega)
  obtain ⟨st₂,put,same₂,holds₂⟩ := @Holds.put st₁ (text ++ word) slash holds₁ (by simp; omega)
  refine ⟨st₂,?_,same₂.trans same,by simpa using holds₂⟩
  unfold Command.addPath
  rw [added]
  exact put

theorem Holds.drop (holds : Holds st (text ++ [c])) :
    ∃ st', st.drop = some st' ∧ st'.cur_cluster = st.cur_cluster ∧ Holds st' text := by
  have length := holds.idx
  have room := holds.room
  rw [List.length_append,List.length_singleton] at length room
  have bound : text.length < pathSize := by omega
  refine ⟨{st with cur_dir := Function.update st.cur_dir ⟨text.length,bound⟩ 0,idx := text.length},?_,rfl,rfl,by omega,?_⟩
  · unfold ShellState.drop
    rw [length]
    exact dif_pos bound
  · intro i inside
    have other : i ≠ ⟨text.length,bound⟩ := by
      rintro rfl
      exact absurd inside (Nat.lt_irrefl _)
    refine (Function.update_of_ne other _ _).trans ?_
    rw [holds.cells i (by simp; omega),List.getElem_append_left inside]

theorem Holds.last (holds : Holds st (text ++ [c])) : st.last = some c := by
  have length := holds.idx
  have room := holds.room
  rw [List.length_append,List.length_singleton] at length room
  unfold ShellState.last
  rw [length]
  refine (dif_pos (show text.length < pathSize by omega)).trans ?_
  rw [holds.cells ⟨text.length,by omega⟩ (by simp)]
  simp

-- The last name goes, up to the slash in front of it.
theorem Holds.dropName {turns : Nat} (holds : Holds st (text ++ [slash] ++ word)) (plain : slash ∉ word)
    (enough : word.length ≤ turns) :
    ∃ st', dropName turns st = some st' ∧ st'.cur_cluster = st.cur_cluster ∧ Holds st' (text ++ [slash]) := by
  induction word using List.reverseRecOn generalizing st turns with
  | nil =>
    rw [List.append_nil] at holds
    refine ⟨st,?_,rfl,holds⟩
    unfold Command.dropName
    rw [holds.last]
    exact if_pos rfl
  | append_singleton front c ih =>
    rw [← List.append_assoc] at holds
    rw [List.length_append,List.length_singleton] at enough
    obtain ⟨turns,rfl⟩ := Nat.exists_eq_succ_of_ne_zero (show turns ≠ 0 by omega)
    obtain ⟨st₁,dropped,same,holds₁⟩ := holds.drop
    obtain ⟨st₂,rests,same₂,holds₂⟩ := @ih st₁ turns holds₁ (fun member => plain (List.mem_append_left _ member)) (by omega)
    refine ⟨st₂,?_,same₂.trans same,holds₂⟩
    have other : c ≠ slash := by
      rintro rfl
      exact plain (by simp)
    unfold Command.dropName
    rw [holds.last]
    refine (if_neg other).trans ?_
    rw [dropped]
    exact rests

theorem Holds.removePath (holds : Holds st (text ++ [slash] ++ (word ++ [slash]))) (plain : slash ∉ word) :
    ∃ st', removePath st = some st' ∧ st'.cur_cluster = st.cur_cluster ∧ Holds st' (text ++ [slash]) := by
  rw [← List.append_assoc] at holds
  obtain ⟨st₁,dropped,same,holds₁⟩ := holds.drop
  obtain ⟨st₂,rests,same₂,holds₂⟩ := @Holds.dropName st₁ text word st₁.idx holds₁ plain (by
    rw [holds₁.idx,List.length_append]
    omega)
  refine ⟨st₂,?_,same₂.trans same,holds₂⟩
  unfold Command.removePath
  rw [dropped]
  exact rests

end text

section components
variable {s : DriverState} {path : List Byte} {behind : Nat → List Byte}

-- The turns of updatePath over the components themselves.
def followComponents (s : DriverState) (behind : Nat → List Byte) :
    List (List Byte) → Nat → Word → PathShell → Option (Word × PathShell)
  | [],_,last_cluster,p => some (last_cluster,p)
  | c :: rest,i,last_cluster,p =>
    if c.length ≤ 8 then
      (updateFound s p (findIn s c last_cluster) (padded 8 c) (behind i)).bind
        (followComponents s behind rest (i+1) (findIn s c last_cluster))
    else none

theorem updatePath_turn {c : List Byte} {idx : Nat} (first : (path.drop idx).takeWhile (· != slash) = c)
    (turns i : Nat) (w : Word) (p : PathShell) : updatePath s path behind (turns+1) i w idx p =
      if c.length ≤ 8 then
        (updateFound s p (findIn s c w) (padded 8 c) (behind i)).bind
          (updatePath s path behind turns (i+1) (findIn s c w) (idx+c.length+1))
      else none := by
  rw [updatePath,getDir,first]
  by_cases short : c.length ≤ 8
  · simp only [if_pos short]
    rfl
  · simp only [if_neg short]
    rfl

theorem updatePath_eq {comps : List (List Byte)} {idx i : Nat} {w : Word} {p : PathShell}
    (split : (path.drop idx).splitOn slash = comps) (inside : idx ≤ path.length) (short : path.length + 1 < pathSize) :
    updatePath s path behind comps.length i w idx p = followComponents s behind comps i w p := by
  induction comps generalizing idx i w p with
  | nil => exact absurd split (List.splitOn_ne_nil _ _)
  | cons c rest ih =>
    obtain ⟨first,⟨rfl,whole⟩ | ⟨onward,within⟩⟩ := first_component split
    · have last : idx + c.length + 1 < pathSize := by
        rw [whole,List.length_drop]
        omega
      rw [List.length_singleton,updatePath_turn first,followComponents]
      simp only [updatePath,followComponents,if_pos last]
    · rw [List.length_cons,updatePath_turn first,followComponents]
      have next := fun w p => @ih (idx+c.length+1) (i+1) w p onward within
      simp only [next]

theorem mem_component {c : List Byte} (member : c ∈ path.splitOn slash) : slash ∉ c ∧ ∀ b ∈ c, b ∈ path := by
  induction path generalizing c with
  | nil =>
    cases List.mem_singleton.mp member
    simp
  | cons b rest ih =>
    rw [List.splitOn_cons_eq_if_modifyHead] at member
    by_cases here : (b == slash) = true
    · rw [if_pos here] at member
      rcases List.mem_cons.mp member with rfl | later
      · simp
      · exact ⟨(ih later).1,fun a inC => List.mem_cons_of_mem _ ((ih later).2 a inC)⟩
    · rw [if_neg here] at member
      cases parts : rest.splitOn slash with
      | nil => exact absurd parts (List.splitOn_ne_nil _ _)
      | cons front others =>
        rw [parts,List.modifyHead_cons] at member
        rw [parts] at ih
        rcases List.mem_cons.mp member with rfl | later
        · obtain ⟨plain,inside⟩ := ih (List.mem_cons_self ..)
          refine ⟨fun inside => ?_,fun a inC => ?_⟩
          · rcases List.mem_cons.mp inside with same | old
            · exact here (by rw [same]; simp)
            · exact plain old
          · rcases List.mem_cons.mp inC with rfl | old
            · simp
            · exact List.mem_cons_of_mem _ (inside a old)
        · obtain ⟨plain,inside⟩ := ih (List.mem_cons_of_mem _ later)
          exact ⟨plain,fun a inC => List.mem_cons_of_mem _ (inside a inC)⟩

end components

-- A component that comes out of getDir as it went in.
structure Plain (c : List Byte) : Prop where
  short : c.length ≤ 8
  noSlash : slash ∉ c
  visible : ∀ b ∈ c, b ≠ 0

-- The way down to a directory by names that a path can spell.
inductive Trail (v : Volume) : Cell → List (List Byte) → Prop where
  | root : Trail v 2 []
  | down {x d c comps} : Trail v x.dir comps → v.Live x → Plain c → (v.entry x).name = padded 8 c → d ∈ v.dirs →
      (v.entry x).cluster = cellNumber d → Trail v d (comps ++ [c])

def trailText (comps : List (List Byte)) : List Byte := rootDir ++ comps.flatMap fun c => c ++ [slash]

-- What every cd keeps.
structure Consistent (v : Volume) (p : PathShell) (d : Cell) (comps : List (List Byte)) : Prop where
  dir : d ∈ v.dirs
  trail : Trail v d comps
  cluster : p.shell_state.cur_cluster = cellNumber d
  table : p.cwd_table = v.driver.directory (cellNumber d)
  text : Holds p.shell_state (trailText comps)

section consistent
variable {v : Volume} {p : PathShell} {d : Cell} {comps : List (List Byte)} {c behind : List Byte}

theorem ofFn_padded (short : c.length ≤ 8) : List.ofFn (padded 8 c) = c ++ List.replicate (8 - c.length) 0 := by
  refine List.ext_getElem (by simp; omega) fun i left right => ?_
  rw [List.getElem_ofFn,List.getElem_append]
  unfold padded
  split
  · rename_i inside
    rw [List.getD_eq_getElem?_getD,List.getElem?_eq_getElem inside]
    rfl
  · rename_i outside
    rw [List.getElem_replicate,List.getD_eq_getElem?_getD,List.getElem?_eq_none (by simpa using outside)]
    rfl

theorem Plain.nameText (plain : Plain c) : nameText (padded 8 c) = c := by
  rw [Command.nameText,ofFn_padded plain.short,List.takeWhile_append_of_pos (by simpa using plain.visible),
    List.takeWhile_replicate]
  simp

theorem Plain.textAt (plain : Plain c) (ended : c.length = 8 → behind = []) : textAt (padded 8 c) behind = c := by
  have name := plain.nameText
  unfold Command.nameText at name
  unfold Command.textAt
  simp only [name]
  split
  · rfl
  · rename_i long
    rw [ended (by have := plain.short; omega),List.append_nil]

theorem Trail.route (trail : Trail v d comps) : Route v d (comps.map (padded 8)) := by
  induction trail with
  | root => exact .root
  | @down x d c comps _ live _ named dir start ih =>
    rw [List.map_append,List.map_singleton,← named]
    exact .down ih live dir start

theorem Trail.plain (trail : Trail v d comps) : ∀ c ∈ comps, Plain c := by
  induction trail with
  | root => simp
  | down _ _ plain _ _ _ ih =>
    intro c member
    rcases List.mem_append.mp member with old | new
    · exact ih c old
    · cases List.mem_singleton.mp new
      exact plain

theorem trailText_names (plain : ∀ c ∈ comps, Plain c) : trailText comps = pathText (comps.map (padded 8)) := by
  unfold trailText pathText
  rw [List.flatMap_map]
  congr 1
  induction comps with
  | nil => rfl
  | cons c rest ih =>
    rw [List.flatMap_cons,List.flatMap_cons,(plain c (by simp)).nameText,ih fun e member => plain e (by simp [member])]

theorem trailText_visible (plain : ∀ c ∈ comps, Plain c) : ∀ b ∈ trailText comps, b ≠ 0 := by
  have root : ∀ b ∈ rootDir, b ≠ 0 := by decide
  intro b member
  rcases List.mem_append.mp member with inRoot | names
  · exact root b inRoot
  · obtain ⟨c,inside,atC⟩ := List.mem_flatMap.mp names
    rcases List.mem_append.mp atC with inName | isSlash
    · exact (plain c inside).visible b inName
    · rw [List.mem_singleton.mp isSlash]
      decide

theorem trailText_snoc : trailText (comps ++ [c]) = trailText comps ++ (c ++ [slash]) := by
  simp [trailText]

theorem trailText_slash (comps : List (List Byte)) : ∃ text, trailText comps = text ++ [slash] := by
  induction comps using List.reverseRecOn with
  | nil => exact ⟨chars "Root",by decide⟩
  | append_singleton front c _ => exact ⟨trailText front ++ c,by rw [trailText_snoc,List.append_assoc]⟩

theorem Consistent.follows (consistent : Consistent v p d comps) : Follows v p.shell_state := by
  have plain := consistent.trail.plain
  refine ⟨d,consistent.dir,consistent.cluster,_,consistent.trail.route,?_⟩
  rw [consistent.text.displayed (trailText_visible plain),trailText_names plain]

theorem Consistent.refresh (consistent : Consistent v p d comps) :
    ∃ p', refresh v.driver p = some p' ∧ Consistent v p' d comps := by
  refine ⟨_,rfl,consistent.dir,consistent.trail,consistent.cluster,?_,consistent.text⟩
  exact congrArg v.driver.directory consistent.cluster

theorem Consistent.error (consistent : Consistent v p d comps) (text : String) : Consistent v (p.error text) d comps :=
  ⟨consistent.dir,consistent.trail,consistent.cluster,consistent.table,consistent.text⟩

theorem boot_consistent (intact : Intact v) : Consistent v (boot v.driver) 2 [] :=
  ⟨intact.root,.root,rfl,rfl,initial_holds⟩

-- A step down: what findCluster answers is the cluster of a live entry.
theorem Consistent.enter (consistent : Consistent v p d comps) (intact : Intact v) (plain : Plain c)
    (enters : Enters v behind c (cellNumber d) (findIn v.driver c (cellNumber d)) p.shell_state.idx) :
    ∃ p' e, update_shell_dir v.driver p (findIn v.driver c (cellNumber d)) (textAt (padded 8 c) behind) true = some p' ∧
      findIn v.driver c (cellNumber d) = cellNumber e ∧ Consistent v p' e (comps ++ [c]) := by
  obtain ⟨e,dirE,at_⟩ := enters.folder
  have found : ∃ i, findEntry (v.driver.table d) (padded 8 c) (fun _ => 0) = some i ∧
      (v.driver.table d i).cluster = cellNumber e := by
    rw [← at_,findIn,findCluster]
    simp only [DriverState.directory_cell]
    cases hit : findEntry (v.driver.table d) (padded 8 c) (fun _ => 0) with
    | some i => exact ⟨i,rfl,rfl⟩
    | none =>
      rw [findIn,findCluster] at at_
      simp only [DriverState.directory_cell,hit] at at_
      have number := congrArg BitVec.toNat at_
      rw [cellNumber_toNat] at number
      have bound : e.val < 512 := e.isLt
      exact absurd number (by rw [show (9999 : Word).toNat = 9999 from rfl]; omega)
  obtain ⟨i,hit,start⟩ := found
  obtain ⟨low,named,_⟩ := findEntry_some.mp hit
  have live : v.Live ⟨d,i⟩ := by
    by_contra notLive
    have dead := intact.dead ⟨d,i⟩ ⟨consistent.dir,low⟩ notLive
    obtain ⟨b,rest,list⟩ := List.exists_cons_of_ne_nil enters.named
    have zero := congrFun (named.1.symm.trans dead.1) 0
    rw [list] at zero
    exact plain.visible b (by simp [list]) zero
  obtain ⟨st',added,same,shown⟩ := @Holds.addPath {p.shell_state with cur_cluster := cellNumber e} (trailText comps) c
    ⟨consistent.text.idx,consistent.text.room,consistent.text.cells⟩ (consistent.text.idx ▸ enters.room)
  refine ⟨⟨st',v.driver.directory (cellNumber e),p.reports⟩,e,?_,at_,dirE,
    .down consistent.trail live plain named.1 dirE start,same,rfl,trailText_snoc ▸ shown⟩
  rw [at_,plain.textAt enters.ended]
  simp only [update_shell_dir,if_true,if_neg enters.named,added,Option.map_some]

-- A step up.
theorem Consistent.leave (consistent : Consistent v p d comps) (intact : Intact v) (linked : Linked v)
    (below : p.shell_state.cur_cluster ≠ ROOT_CLUSTER_NUMBER) :
    ∃ p' e comps', update_shell_dir v.driver p (p.cwd_table 1).cluster [] false = some p' ∧
      Consistent v p' e comps' := by
  obtain ⟨dir,trail,cluster,table,text⟩ := consistent
  cases trail with
  | root => exact absurd cluster below
  | @down x _ c comps above live plain named _ start =>
    have parent : (p.cwd_table 1).cluster = cellNumber x.dir := by
      rw [table]
      exact (linked.link intact live dir start).2
    obtain ⟨front,ends⟩ := trailText_slash comps
    rw [trailText_snoc,ends] at text
    obtain ⟨st',removed,same,shown⟩ := @Holds.removePath {p.shell_state with cur_cluster := cellNumber x.dir} front c
      ⟨text.idx,text.room,text.cells⟩ plain.noSlash
    refine ⟨⟨st',v.driver.directory (cellNumber x.dir),p.reports⟩,x.dir,comps,?_,live.1.1,above,same,rfl,ends ▸ shown⟩
    rw [parent]
    simp only [update_shell_dir,Bool.false_eq_true,if_false,removed,Option.map_some]

-- A path, component by component. After one that is not found the cluster is 9999, and
-- nothing is entered any more.
theorem Consistent.follow {behind : Nat → List Byte} {i : Nat} {w : Word} {rest : List (List Byte)}
    (consistent : Consistent v p d comps) (intact : Intact v) (plain : ∀ c ∈ rest, slash ∉ c ∧ ∀ b ∈ c, b ≠ 0)
    (place : w = cellNumber d ∨ w = 9999) (fits : WalkFits v behind rest i w p.shell_state.idx) :
    ∃ w' p' d' comps', followComponents v.driver behind rest i w p = some (w',p') ∧ Consistent v p' d' comps' := by
  induction rest generalizing i w p d comps with
  | nil => exact ⟨w,p,d,comps,rfl,consistent⟩
  | cons c rest ih =>
    obtain ⟨short,lost,found⟩ := fits
    have later : ∀ c ∈ rest, slash ∉ c ∧ ∀ b ∈ c, b ≠ 0 := fun c member => plain c (List.mem_cons_of_mem _ member)
    have plainC : Plain c := ⟨short,(plain c (by simp)).1,(plain c (by simp)).2⟩
    rw [followComponents,if_pos short,updateFound]
    by_cases missing : findIn v.driver c w = 9999
    · rw [missing,if_neg (by simp)]
      exact ih consistent later (Or.inr rfl) (lost missing)
    · obtain ⟨enters,onward⟩ := found missing
      have here : w = cellNumber d := place.resolve_right enters.fromDir
      subst here
      obtain ⟨p',e,updated,at_,consistent'⟩ := consistent.enter intact plainC enters
      rw [if_pos missing,updated,Option.bind_some]
      refine ih consistent' later (Or.inl at_) ?_
      have idx : p'.shell_state.idx = p.shell_state.idx + c.length + 1 := by
        rw [consistent'.text.idx,consistent.text.idx,trailText_snoc]
        simp [Nat.add_assoc]
      rw [idx]
      exact onward

theorem getWord_mem {str word : List Byte} {idx size : Nat} (got : getWord str idx size = some word) :
    ∀ b ∈ word, b ∈ str := by
  unfold getWord at got
  split at got
  · cases got
  · split at got
    · cases got
      intro b member
      exact List.mem_of_mem_drop (List.mem_of_mem_take member)
    · cases got

theorem Consistent.cd (consistent : Consistent v p d comps) (intact : Intact v) (linked : Linked v) {line : CdLine}
    (fits : CdFits v p line) : ∃ p' d' comps', cd v.driver p line = some p' ∧ Consistent v p' d' comps' := by
  unfold Command.cd
  by_cases words : countWords line.command = 2
  · rw [if_neg (not_not.mpr words)]
    obtain ⟨path,got⟩ := Option.isSome_iff_exists.mp (line.fits words)
    rw [got]
    simp only [Option.bind_eq_bind,Option.bind_some]
    by_cases empty : path = []
    · rw [if_pos empty]
      exact ⟨_,d,comps,rfl,consistent.error _⟩
    rw [if_neg empty]
    by_cases up : path = chars ".."
    · rw [if_pos up]
      by_cases atRoot : p.shell_state.cur_cluster = ROOT_CLUSTER_NUMBER
      · rw [if_pos atRoot]
        exact ⟨_,d,comps,rfl,consistent.error _⟩
      · rw [if_neg atRoot]
        exact consistent.leave intact linked atRoot
    · rw [if_neg up]
      obtain ⟨short,walk⟩ := fits words path got up
      have plain : ∀ c ∈ path.splitOn slash, slash ∉ c ∧ ∀ b ∈ c, b ≠ 0 := by
        intro c member
        obtain ⟨noSlash,inside⟩ := mem_component member
        exact ⟨noSlash,fun b inC => line.terminated b (getWord_mem got b (inside b inC))⟩
      obtain ⟨w,p',d',comps',followed,consistent'⟩ := consistent.follow intact plain (Or.inl consistent.cluster) walk
      rw [← length_splitOn,updatePath_eq (by rw [List.drop_zero]) (Nat.zero_le _) short,followed]
      simp only [Option.bind_some]
      split
      · exact ⟨_,d',comps',rfl,consistent'.error _⟩
      · exact ⟨_,d',comps',rfl,consistent'⟩
  · rw [if_pos words]
    exact ⟨_,d,comps,rfl,consistent.error _⟩

end consistent

theorem CdStep.consistent {v : Volume} {p : PathShell} {line : CdLine} (intact : Intact v) (linked : Linked v)
    (consistent : ∃ d comps, Consistent v p d comps) (fits : CdFits v p line) :
    (∃ p', CdStep v.driver p line p') ∧ ∀ p', CdStep v.driver p line p' → ∃ d comps, Consistent v p' d comps := by
  obtain ⟨d,comps,here⟩ := consistent
  obtain ⟨p₁,d',comps',done,consistent₁⟩ := here.cd intact linked fits
  obtain ⟨p₂,refreshed,consistent₂⟩ := consistent₁.refresh
  have step : CdStep v.driver p line p₂ := by
    unfold CdStep
    rw [done]
    exact refreshed
  refine ⟨⟨p₂,step⟩,fun p' other => ?_⟩
  cases step.symm.trans other
  exact ⟨d',comps',consistent₂⟩

-- In a session whose commands all meet the condition the path on display stays the one
-- of the current directory, and the next such command is carried out.
theorem cd_follows {s : DriverState} {history : List (Transition Volume FsAction)} {v : Volume}
    (run : Run Volume.ClearStep (formatted s) history v) {lines : List (Transition PathShell CdLine)} {p : PathShell}
    (session : Run (CdStep v.driver) (boot v.driver) lines p) (fits : ∀ t ∈ lines, CdFits v t.before t.action) :
    Follows v p.shell_state ∧ ∀ line, CdFits v p line → ∃ p', CdStep v.driver p line p' := by
  obtain ⟨intact,linked⟩ := Run.linked run
  have kept : ∀ (p : PathShell) (line : CdLine) (p' : PathShell), (∃ d comps, Consistent v p d comps) → CdFits v p line →
      CdStep v.driver p line p' → ∃ d comps, Consistent v p' d comps :=
    fun p line p' consistent fits => (CdStep.consistent intact linked consistent fits).2 p'
  have last := Run.invariant_of ⟨2,[],boot_consistent intact⟩ kept session fits
  refine ⟨?_,fun line fits => (CdStep.consistent intact linked last fits).1⟩
  obtain ⟨d,comps,consistent⟩ := last
  exact consistent.follows

def folderLine : CdLine := ⟨chars "cd d",fun _ => [],by decide,by decide +kernel⟩
def fileLine : CdLine := ⟨chars "cd abcd1",fun _ => [],by decide,by decide +kernel⟩

theorem folderLine_fits {v : Volume} (dir : 3 ∈ v.dirs)
    (found : findIn v.driver (chars "d") ROOT_CLUSTER_NUMBER = cellNumber 3) :
    CdFits v (boot v.driver) folderLine := by
  intro _ path got _
  rw [show getWord folderLine.command 1 pathSize = some (chars "d") by decide +kernel] at got
  cases got
  refine ⟨by decide,?_⟩
  rw [show (chars "d").splitOn slash = [chars "d"] by decide]
  refine ⟨by decide,fun missing => absurd (found.symm.trans missing) (by decide),fun _ => ⟨?_,trivial⟩⟩
  exact ⟨show ROOT_CLUSTER_NUMBER ≠ 9999 by decide,by decide,⟨3,dir,found⟩,fun _ => rfl,
    show 5 + (chars "d").length + 1 ≤ pathSize by decide⟩

theorem cd_follows_folder : ∃ history v p, Run Volume.ClearStep (formatted blankDrive) history v ∧
    history.map Transition.action = siblings ∧
    Run (CdStep v.driver) (boot v.driver) [⟨boot v.driver,folderLine,p⟩] p ∧
    Follows v p.shell_state ∧ ∀ line, CdFits v p line → ∃ p', CdStep v.driver p line p' := by
  obtain ⟨history,v,run,actions,replayed,prompt,_,_,leads⟩ := siblings_prompt
  have clear := run.mono fun _ _ _ => NamedStep.clear
  have found : (replay (create_fat32 blankDrive) siblings).any (fun s =>
      findIn s (chars "d") ROOT_CLUSTER_NUMBER = cellNumber 3) = true := by decide +kernel
  rw [replayed,Option.any_some,decide_eq_true_eq] at found
  have fits := folderLine_fits (leads.dir prompt.dir) found
  obtain ⟨p,step⟩ := (cd_follows clear .nil (by simp)).2 folderLine fits
  refine ⟨history,v,p,clear,actions,.single step,cd_follows clear (.single step) fun t member => ?_⟩
  cases List.mem_singleton.mp member
  exact fits

-- cd does not look at the attribute: a file becomes the current directory.
theorem fileLine_entered : ∃ history v p, Run Volume.ClearStep (formatted blankDrive) history v ∧
    history.map Transition.action = siblings ∧
    Run (CdStep v.driver) (boot v.driver) [⟨boot v.driver,fileLine,p⟩] p ∧
    displayed p.shell_state = chars "Root/abcd1/" ∧ ¬ Follows v p.shell_state := by
  obtain ⟨history,v,run,actions,replayed,_,_,file,_⟩ := siblings_prompt
  have entered : (replay (create_fat32 blankDrive) siblings).any (fun s =>
      ((cd s (boot s) fileLine).bind (refresh s)).any fun p => displayed p.shell_state = chars "Root/abcd1/" ∧
        p.shell_state.cur_cluster = (s.table 2 3).cluster) = true := by decide +kernel
  rw [replayed,Option.any_some] at entered
  obtain ⟨p,step,facts⟩ := (Option.any_eq_true _ _).mp entered
  obtain ⟨shown,cluster⟩ := of_decide_eq_true facts
  refine ⟨history,v,p,run.mono fun _ _ _ => NamedStep.clear,actions,.single step,shown,?_⟩
  rintro ⟨d,dir,at_,_⟩
  exact file ⟨d,dir,cluster.symm.trans at_⟩

end Sosis.Command
