import Sosis.CommandMovePlan

-- mv: when every file of its source is kept, for a file and for all that lies in a
-- folder.
namespace Sosis.Command
open ByteRecords Fat32 FirstFit LinkedCells TransitionRuns

-- The directories to be found in the tables below the root: an entry with no data is
-- that of a folder.
inductive InTree (s : DriverState) : Cell → Prop where
  | root : InTree s 2
  | under {b d i} : InTree s b → 2 ≤ i.val → (s.table b i).user_attribute = UATTR_NOT_EMPTY →
      (s.table b i).filesize = 0 → (s.table b i).cluster = cellNumber d → InTree s d

-- The volume that a drive shows by itself.
def treeOf (s : DriverState) : Volume := ⟨s,{d | InTree s d}⟩

-- The directories at and below `top`.
inductive Within (v : Volume) (top : Cell) : Cell → Prop where
  | self : Within v top top
  | inside {y d} : Within v top y.dir → v.Live y → d ∈ v.dirs → (v.entry y).cluster = cellNumber d → Within v top d

-- The files that mv of `x` is about: `x` itself, or what lies in it.
def Moving (v : Volume) (x z : Place) : Prop :=
  v.Live z ∧ ¬ v.Folder z ∧ (z = x ∨ ∃ top ∈ v.dirs, (v.entry x).cluster = cellNumber top ∧ Within v top z.dir)

-- Each of them has its bytes in a file of its own, at its old place or below the
-- directory that the components lead to from `b`.
def Keeps (v v' : Volume) (b : Cell) (comps : List (List Byte)) (x : Place) : Prop :=
  ∃ κ : Place → Place, (∀ z, Moving v x z → ∀ z', Moving v x z' → κ z = κ z' → z = z') ∧ ∀ z, Moving v x z →
    v'.Live (κ z) ∧ ¬ v'.Folder (κ z) ∧ (v'.entry (κ z)).filesize = (v.entry z).filesize ∧
    (∃ data, v.Contents z data ∧ v'.Contents (κ z) data) ∧
    (κ z = z ∨ ∃ d, Descends v b comps d ∧ Within v' d (κ z).dir)

-- Whatever was on the stack, and wherever the buffers are.
def MoveKeeps (fuel : Nat) (v : Volume) (st : Shell) (b : Cell) (command path : List Byte) (x : Place) : Prop :=
  ∀ frames memory, ∃ st', mvPath frames fuel {st with memory := memory} command = some st' ∧
    Keeps v (treeOf st'.driver) b (path.splitOn slash) x

-- Every move into `d` finds what it needs: that of the file `x`, or those of the walk
-- over the folder `x`.
def Planned (v : Volume) (x : Place) (d : Cell) : Prop :=
  ¬ v.Folder x ∧ (∃ i gone xs, (Plan.start v d).Fits v d x i gone xs) ∨
    ∃ top q, top ∈ v.dirs ∧ (v.entry x).cluster = cellNumber top ∧ Plan.Walks v d (Plan.start v d) top tableSlots q

-- The path has no empty component and leads to a directory.
def Resolves (v : Volume) (b : Cell) (path : List Byte) (d : Cell) : Prop :=
  (∀ c ∈ path.splitOn slash, c ≠ []) ∧ Descends v b (path.splitOn slash) d

-- The arguments fit their buffers, and there is no file to move, or every move finds what
-- it needs.
def MoveFits (v : Volume) (b : Cell) (source path : List Byte) (x : Place) : Prop :=
  source.length ≤ 11 ∧ path.length ≤ 99 ∧
    ((∀ z, ¬ Moving v x z) ∧ (∀ c ∈ path.splitOn slash, c.length ≤ 8) ∨ ∃ d, Resolves v b path d ∧ Planned v x d)

theorem InTree.dir {v : Volume} {d : Cell} (tree : InTree v.driver d) (intact : Intact v) (sized : Sized v) : d ∈ v.dirs := by
  induction tree with
  | root => exact intact.root
  | @under b d i _ low used empty cluster dir => exact sized.dir (x := ⟨b,i⟩) ⟨⟨dir,low⟩,used⟩ empty cluster

theorem treeOf_eq {v : Volume} (intact : Intact v) (sized : Sized v) (linked : Linked v) : treeOf v.driver = v := by
  obtain ⟨rank,bound,bounded,falls⟩ := linked.ranked intact
  have below : ∀ n d, rank d < n → d ∈ v.dirs → InTree v.driver d := by
    intro n
    induction n with
    | zero => exact fun d none => absurd none (Nat.not_lt_zero _)
    | succ n ih =>
      intro d less dir
      by_cases root : d = 2
      · rw [root]
        exact .root
      · obtain ⟨x,live,at_,_⟩ := linked.held d dir root
        have higher := falls x d live dir at_
        exact .under (ih x.dir (by omega) live.1.1) live.1.2 live.2 (intact.folder x live d dir at_).2 at_
  have dirs : {d | InTree v.driver d} = v.dirs := Set.Subset.antisymm (fun d member => member.dir intact sized)
    fun d dir => below (rank d + 1) d (Nat.lt_succ_self _) dir
  unfold treeOf
  rw [dirs]

section planned
variable {p q : Plan} {v w : Volume} {d b e : Cell} {x z : Place} {l : List (Fin DIRECTORY_ENTRY_COUNT)}

theorem mem_tableSlots {i : Fin DIRECTORY_ENTRY_COUNT} : 2 ≤ i.val → i ∈ tableSlots := by
  revert i
  decide

-- A file in a slot of the walk is moved.
theorem Plan.Walks.visits (walks : Plan.Walks v d p b l q) (files : p.Files v) {i : Fin DIRECTORY_ENTRY_COUNT} (member : i ∈ l)
    (live : v.Live ⟨b,i⟩) (file : ¬ v.Folder ⟨b,i⟩) :
    ∃ (p : Plan) (j : Fin DIRECTORY_ENTRY_COUNT) (gone xs : List Cell), p.Fits v d ⟨b,i⟩ j gone xs := by
  induction walks with
  | done => cases member
  | dead dead _ ih =>
    rcases List.mem_cons.mp member with rfl | later
    · exact absurd live dead
    · exact ih files later live file
  | file liveHere fileHere fits _ ih =>
    rcases List.mem_cons.mp member with rfl | later
    · exact ⟨_,_,_,_,fits⟩
    · exact ih (files.move liveHere fileHere _ _ _) later live file
  | folder _ cluster dir _ walks _ _ ih =>
    rcases List.mem_cons.mp member with rfl | later
    · exact absurd ⟨_,files.2 dir,cluster⟩ file
    · exact ih (walks.grows files).1 later live file

-- And a folder in one is walked over.
theorem Plan.Walks.enters (walks : Plan.Walks v d p b l q) (files : p.Files v) {i : Fin DIRECTORY_ENTRY_COUNT} (member : i ∈ l)
    (live : v.Live ⟨b,i⟩) (dir : e ∈ v.dirs) (at_ : (v.entry ⟨b,i⟩).cluster = cellNumber e) :
    ∃ p q : Plan, p.Files v ∧ Plan.Walks v d p e tableSlots q := by
  induction walks with
  | done => cases member
  | dead dead _ ih =>
    rcases List.mem_cons.mp member with rfl | later
    · exact absurd live dead
    · exact ih files later live at_
  | file liveHere fileHere _ _ ih =>
    rcases List.mem_cons.mp member with rfl | later
    · exact absurd ⟨e,dir,at_⟩ fileHere
    · exact ih (files.move liveHere fileHere _ _ _) later live at_
  | folder _ cluster _ _ walks _ _ ih =>
    rcases List.mem_cons.mp member with rfl | later
    · cases cellNumber_injective (at_.symm.trans cluster)
      exact ⟨_,_,files,walks⟩
    · exact ih (walks.grows files).1 later live at_

theorem Plan.start_files (v : Volume) (d : Cell) : (Plan.start v d).Files v := ⟨List.forall_mem_nil _,fun _ => id⟩

theorem Plan.Walks.within (walks : Plan.Walks v d p b tableSlots q) (files : p.Files v) (inside : Within v b e) :
    ∃ p q : Plan, p.Files v ∧ Plan.Walks v d p e tableSlots q := by
  induction inside with
  | self => exact ⟨p,q,files,walks⟩
  | inside _ live dir at_ ih =>
    obtain ⟨p',q',files',walks'⟩ := ih
    exact walks'.enters files' (mem_tableSlots live.1.2) live dir at_

theorem Planned.fits (planned : Planned v x d) (moving : Moving v x z) :
    ∃ (p : Plan) (j : Fin DIRECTORY_ENTRY_COUNT) (gone xs : List Cell), p.Fits v d z j gone xs := by
  obtain ⟨live,file,here⟩ := moving
  rcases planned with ⟨fileX,i,gone,xs,fits⟩ | ⟨top,q,dir,at_,walks⟩
  · rcases here with rfl | ⟨top,dir,at_,_⟩
    · exact ⟨_,i,gone,xs,fits⟩
    · exact absurd ⟨top,dir,at_⟩ fileX
  · rcases here with rfl | ⟨top',_,at',inside⟩
    · exact absurd ⟨top,dir,at_⟩ file
    · cases cellNumber_injective (at_.symm.trans at')
      obtain ⟨p',q',files',walks'⟩ := walks.within (Plan.start_files v d) inside
      exact walks'.visits files' (mem_tableSlots live.1.2) live file

-- Where every file to move has had its turn, they are all kept.
theorem Plan.Reached.keeps {comps : List (List Byte)} (reached : q.Reached v d w) (intact : Intact v)
    (leads : Descends v b comps d)
    (each : ∀ z, Moving v x z → ∃ (p : Plan) (j : Fin DIRECTORY_ENTRY_COUNT) (gone xs : List Cell), p.Fits v d z j gone xs) :
    Keeps v w b comps x := by
  classical
  have away : ∀ z, Moving v x z → z.dir ≠ d := by
    intro z moving
    obtain ⟨_,_,_,_,fits⟩ := each z moving
    exact fits.elsewhere
  have place : ∀ z, ∃ c : Place, if z ∈ q.moved then c.dir = d ∧ Carried v w z c else c = z := by
    intro z
    split
    · rename_i member
      exact reached.arrived z member
    · exact ⟨z,rfl⟩
  choose κ place using place
  have carried : ∀ z, Moving v x z → Carried v w z (κ z) := by
    intro z moving
    have at_ := place z
    split at at_
    · exact at_.2
    · rename_i left
      rw [at_]
      exact (reached.others z moving.1 ⟨left,fun _ _ twin => away z moving twin.1⟩).carried intact reached.intact
        (reached.dirs ▸ reached.shrunk) moving.1 moving.2.1
  refine ⟨κ,fun z moving z' moving' same => ?_,fun z moving => ?_⟩
  · have here := place z
    have here' := place z'
    split at here <;> split at here'
    · rename_i member member'
      have named := here.2.named
      rw [same] at named
      exact reached.names z member z' member' ⟨named.1.symm.trans here'.2.named.1,named.2.symm.trans here'.2.named.2⟩
    · exact absurd (by rw [← here',← same]; exact here.1) (away z' moving')
    · exact absurd (by rw [← here,same]; exact here'.1) (away z moving)
    · rw [← here,← here',same]
  · obtain ⟨_,_,_,_,fits⟩ := each z moving
    obtain ⟨data,contents⟩ := fits.readable
    have carried := carried z moving
    refine ⟨carried.live,carried.file,carried.size,⟨data,contents,carried.bytes data contents⟩,?_⟩
    have at_ := place z
    split at at_
    · refine Or.inr ⟨d,leads,?_⟩
      rw [at_.1]
      exact .self
    · exact Or.inl at_

end planned

section fits
variable {v : Volume} {st : Shell} {command source path : List Byte} {b d : Cell} {x : Place} {dest : Word} {fuel : Nat}
  {rank : Cell → Nat} {bound : Nat} {frames : Nat → Frame}
variable (intact : Intact v) (bounded : ∀ b, rank b ≤ bound)
  (falls : ∀ y e, v.Live y → e ∈ v.dirs → (v.entry y).cluster = cellNumber e → rank y.dir < rank e)

variable (prompt : PromptIn v st b) (line : PathLine command source path) (names : NamesSource v b source x)
  (fitsSource : source.length ≤ 11) (fitsPath : path.length ≤ 99)

include intact prompt line names fitsSource fitsPath in
theorem mvPath_eq (reached : getLastCluster st path = some dest) (frames : Nat → Frame) (fuel : Nat) (memory : Memory) :
    mvPath frames fuel {st with memory := memory} command =
      (if (v.entry x).attr ≠ ATTR_SUBDIRECTORY then
          transfer frames fuel true (({st with memory := memory} : Shell).warn source dest) (v.entry x).name (v.entry x).ext
            (cellNumber x.dir) dest
        else traverseFolder frames fuel (({st with memory := memory} : Shell).warn source dest) (v.entry x).cluster dest true).map
        (Shell.conclude "Move successful.\n" "Move failed: unable to verify copy.\n") := by
  have prompt' : PromptIn v {st with memory := memory} b := ⟨prompt.drive,prompt.dir,prompt.here,prompt.loaded⟩
  have reached' : getLastCluster {st with memory := memory} path = some dest := reached
  exact pathCommand_source intact prompt' line names fitsSource fitsPath reached'

include intact bounded falls prompt line names fitsSource fitsPath in
theorem Planned.keeps (sized : Sized v) (linked : Linked v) (resolves : Resolves v b path d) (planned : Planned v x d)
    (deep : bound + 2 ≤ fuel) : MoveKeeps fuel v st b command path x := by
  intro frames memory
  have live := names.1
  have dir := resolves.2.dir prompt.dir
  have start := Plan.start_reached intact sized linked dir
  have drive : ({st with memory := memory} : Shell).driver = v.driver := prompt.drive
  have ran := mvPath_eq intact prompt line names fitsSource fitsPath (prompt.reaches intact resolves.2 resolves.1) frames fuel memory
  rw [Shell.warn_cell] at ran
  suffices moved : ∃ st' w' q, (if (v.entry x).attr ≠ ATTR_SUBDIRECTORY then
      transfer frames fuel true {st with memory := memory} (v.entry x).name (v.entry x).ext (cellNumber x.dir) (cellNumber d)
      else traverseFolder frames fuel {st with memory := memory} (v.entry x).cluster (cellNumber d) true) = some st' ∧
        st'.driver = w'.driver ∧ Plan.Reached q v d w' by
    obtain ⟨st',w',q,moved,drive',reached⟩ := moved
    rw [moved] at ran
    refine ⟨_,ran,?_⟩
    rw [Shell.conclude_driver,drive',treeOf_eq reached.intact reached.sized reached.linked]
    exact reached.keeps intact resolves.2 fun z moving => planned.fits moving
  obtain ⟨fuel,rfl⟩ := Nat.exists_eq_succ_of_ne_zero (show fuel ≠ 0 by omega)
  rcases planned with ⟨file,i,gone,xs,fits⟩ | ⟨top,q,dirTop,at_,walks⟩
  · obtain ⟨_,readable⟩ := fits.readable
    obtain ⟨st',w',c,moved,drive',move⟩ := (start.movable fits intact linked live).moves intact sized live file dir drive frames fuel
    rw [if_pos (readable.file (intact.find_self live))]
    exact ⟨st',w',_,moved,drive',start.move fits intact live move file⟩
  · have marked := (intact.folder x live top dirTop at_).1
    have snapshot : ∀ i ∈ tableSlots, 2 ≤ i.val ∧ ({st with memory := memory} : Shell).driver.table top i = v.driver.table top i :=
      fun i member => ⟨tableSlots_low i member,by rw [drive]⟩
    have deeper : bound + 1 ≤ fuel + rank top := by omega
    obtain ⟨st',w',walked,drive',reached⟩ := walks.run intact linked bounded falls start drive dirTop snapshot deeper
    rw [if_neg (not_not.mpr marked),at_,traverseFolder_turns]
    exact ⟨st',w',q,walked,drive',reached⟩

end fits

-- Nothing else on the drive has the size and the bytes of `x`.
def Sole (v : Volume) (x : Place) : Prop := ∀ z, v.Live z → (v.entry z).filesize = (v.entry x).filesize →
  (∃ data, v.Contents x data ∧ v.Contents z data) → z = x

section before
variable {v v' : Volume} {d : Cell} {name : Name} {ext : Ext} {y : Place} {data : Bytes} {memory : Memory} {buf size : Word}
  {code : Int}

-- What can be read past the deletes of a name is another file, and was there before.
theorem Vacated.before (vacated : Vacated v d name ext v') (intact : Intact v) (named : ¬ (name = (fun _ => 0) ∧ ext = fun _ => 0))
    (live : v'.Live y) (contents : v'.Contents y data) :
    ¬ (y.dir = d ∧ (v.entry y).Named name ext) ∧ v.Live y ∧ Undisturbed v v' y ∧ v.Contents y data := by
  have old := vacated.live_before intact live
  have other : ¬ (y.dir = d ∧ (v.entry y).Named name ext) := by
    rcases vacated.absent_or intact named with absent | ⟨rfl,i,found,folder,_⟩
    · exact vacated.gone intact absent live
    · rintro ⟨rfl,same⟩
      have at_ := intact.find_self live
      refine contents.file at_ ?_
      rw [same.1,same.2] at at_
      cases found.symm.trans at_
      exact folder
  have still := vacated.undisturbed intact old fun here same => other ⟨here,same⟩
  exact ⟨other,old,still,still.contents_before intact (vacated.intact intact) old contents⟩

theorem write_before (effect : Effect v (.write memory ⟨buf,name,ext,cellNumber d,size⟩) code v') (intact : Intact v)
    (live : v'.Live y) (other : ¬ (y.dir = d ∧ (v'.entry y).Named name ext)) : v.Live y ∧ Undisturbed v v' y := by
  have inserted : ∀ {b i c rest}, Wrote v v' memory ⟨buf,name,ext,cellNumber d,size⟩ b i c rest →
      v.Live y ∧ Undisturbed v v' y := by
    intro b i c rest wrote
    obtain rfl := cellNumber_injective wrote.parent
    rcases wrote.inserted.live_cases intact live with rfl | ⟨_,old,_⟩
    · exact absurd ⟨rfl,wrote.named_after⟩ other
    · exact ⟨old,wrote.inserted.undisturbed intact old⟩
  cases effect with
  | refused => exact ⟨live,.refl live⟩
  | folder _ wrote => exact inserted wrote
  | file _ wrote => exact inserted wrote
  | short _ wrote => exact inserted wrote

theorem write_dirs {request : FAT32DriverRequest} (effect : Effect v (.write memory request) code v') : v.dirs ⊆ v'.dirs := by
  cases effect with
  | refused => exact fun _ => id
  | folder _ _ grown => exact fun b member => grown ▸ Set.mem_insert_of_mem _ member
  | file _ _ kept => exact fun b member => kept ▸ member
  | short _ _ kept => exact fun b member => kept ▸ member

end before

section converse
variable {v : Volume} {st st' : Shell} {x y : Place} {d : Cell} {dest : Word} {fuel : Nat} {data : Bytes} (intact : Intact v)
  (sized : Sized v) (live : v.Live x) (alone : Sole v x) (readable : v.Contents x data) (drive : st.driver = v.driver)
  (liveY : (treeOf st'.driver).Live y) (size : ((treeOf st'.driver).entry y).filesize = (v.entry x).filesize)
  (contents : (treeOf st'.driver).Contents y data)
include intact sized live alone readable drive liveY size contents

-- A file with the bytes of `x` past the move can only be the copy.
theorem Movable.of_transfer (dir : d ∈ v.dirs)
    (ran : transfer spread (fuel+1) true {st with memory := fun _ => 0} (v.entry x).name (v.entry x).ext (cellNumber x.dir)
      (cellNumber d) = some st') : Movable v x d := by
  have attr := readable.file (intact.find_self live)
  obtain ⟨st₁,copied,removed⟩ := Option.bind_eq_some_iff.mp ran
  obtain ⟨v₁,v₂,source,memory,buf,code,vacated,found,effect,drive₂,_⟩ :=
    copy_wrote intact live attr dir drive (b := 0) (by decide) copied
  have intact₁ := vacated.intact intact
  have intact₂ := effect.intact intact₁
  have sized₂ := effect.sized intact₁ (vacated.sized intact sized)
  have dir₁ : x.dir ∈ v₁.dirs := by
    rcases vacated.lookup intact live attr with ⟨_,_,kept⟩ | ⟨here,_⟩
    · exact kept.live.1.1
    · rw [here]
      exact vacated.dir_kept dir
  obtain ⟨w,removed',vacated'⟩ := remove_vacates intact₂ (write_dirs effect dir₁) (intact.named x live) drive₂
    (spread (fuel+1)).remove_buf
  cases removed.symm.trans removed'
  have liveW : w.Live y := ⟨⟨liveY.1.1.dir (vacated'.intact intact₂) (vacated'.sized intact₂ sized₂),liveY.1.2⟩,liveY.2⟩
  have contentsW : w.Contents y data := contents
  have sizeW : (w.entry y).filesize = (v.entry x).filesize := size
  obtain ⟨other,live₂,still₂,contents₂⟩ := vacated'.before intact₂ (intact.named x live) liveW contentsW
  rw [still₂.entry] at sizeW
  by_cases twin : Twin v v₂ x d y
  · obtain ⟨told,_⟩ := wrote_told intact live vacated found effect dir live₂.1.2 twin sizeW contents₂
    exact told.movable intact live (fun same => other ⟨twin.1.trans same.symm,twin.2⟩) ⟨data,readable⟩
  · obtain ⟨live₁,still₁⟩ := write_before effect intact₁ live₂ twin
    have contents₁ := still₁.contents_before intact₁ intact₂ live₁ contents₂
    obtain ⟨_,before,still,contentsV⟩ := vacated.before intact (intact.named x live) live₁ contents₁
    rw [still₁.entry,still.entry] at sizeW other
    obtain rfl := alone y before sizeW ⟨data,readable,contentsV⟩
    exact absurd ⟨rfl,rfl,rfl⟩ other

-- Where nothing can be written, none is left.
theorem transfer_loses (quiet : Quiet v (v.driver.directory dest))
    (ran : transfer spread (fuel+1) true st (v.entry x).name (v.entry x).ext (cellNumber x.dir) dest = some st') : False := by
  obtain ⟨st₁,copied,removed⟩ := Option.bind_eq_some_iff.mp ran
  have drive₁ : st₁.driver = v.driver := (copy_nowhere (by rw [drive]; exact quiet.1)
    (by rw [drive]; exact quiet.2 x live) copied).trans drive
  obtain ⟨w,removed',vacated⟩ := remove_vacates intact live.1.1 (intact.named x live) drive₁ (spread (fuel+1)).remove_buf
  cases removed.symm.trans removed'
  have liveW : w.Live y := ⟨⟨liveY.1.1.dir (vacated.intact intact) (vacated.sized intact sized),liveY.1.2⟩,liveY.2⟩
  have contentsW : w.Contents y data := contents
  obtain ⟨other,before,still,contentsV⟩ := vacated.before intact (intact.named x live) liveW contentsW
  have sizeW : (w.entry y).filesize = (v.entry x).filesize := size
  rw [still.entry] at sizeW
  obtain rfl := alone y before sizeW ⟨data,readable,contentsV⟩
  exact other ⟨rfl,rfl,rfl⟩

end converse

section command
variable {v : Volume} {st : Shell} {command source path : List Byte} {b d : Cell} {x : Place} {fuel : Nat}

theorem Movable.planned (movable : Movable v x d) (intact : Intact v) (live : v.Live x) (file : ¬ v.Folder x) :
    Planned v x d := by
  obtain ⟨i,vacant,slot⟩ := movable.slot
  obtain ⟨gone,reclaims,room⟩ := movable.room
  obtain ⟨c,rest,_,chain,_⟩ := intact.chained x live
  refine Or.inl ⟨file,i,gone,c :: rest,movable.elsewhere,movable.readable,List.forall_mem_nil _,?_,?_,vacant,slot,reclaims,chain,?_⟩
  · have found := movable.found
    rw [← without_nil] at found
    exact found
  · intro j c at_ folder cluster
    have empty := movable.cleared j at_ folder
    rw [cluster,DriverState.directory_cell,← without_nil] at empty
    exact empty
  · simp only [Plan.start]
    exact room

-- A file that is nowhere else is kept only if its move finds what it needs.
theorem MoveKeeps.fits (keeps : MoveKeeps (fuel+1) v st b command path x) (intact : Intact v) (sized : Sized v)
    (prompt : PromptIn v st b) (line : PathLine command source path) (names : NamesSource v b source x) (file : ¬ v.Folder x)
    (alone : Sole v x) (quiet : (∀ d, ¬ Resolves v b path d) → ∀ dest, getLastCluster st path = some dest →
      Quiet v (v.driver.directory dest)) : MoveFits v b source path x := by
  have live := names.1
  obtain ⟨st',ran,κ,_,each⟩ := keeps spread fun _ => 0
  obtain ⟨liveY,_,size,⟨data,readable,contents⟩,_⟩ := each x ⟨live,file,Or.inl rfl⟩
  obtain ⟨fitsSource,fitsPath⟩ := pathCommand_fits line (Option.isSome_of_mem ran)
  have attr := readable.file (intact.find_self live)
  obtain ⟨dest,reached⟩ : ∃ dest, getLastCluster st path = some dest := by
    unfold mvPath at ran
    rw [pathCommand_line line fitsSource fitsPath,names.2.2] at ran
    obtain ⟨dest,reached,_⟩ := Option.bind_eq_some_iff.mp ran
    exact ⟨dest,reached⟩
  have came := mvPath_eq intact prompt line names fitsSource fitsPath reached spread (fuel+1) fun _ => 0
  rw [ran,if_pos attr] at came
  obtain ⟨st₁,moved,same⟩ := Option.map_eq_some_iff.mp came.symm
  rw [← same,Shell.conclude_driver] at liveY size contents
  refine ⟨fitsSource,fitsPath,Or.inr ?_⟩
  by_cases leads : ∃ d, Resolves v b path d
  · obtain ⟨d,resolves⟩ := leads
    cases reached.symm.trans (prompt.reaches intact resolves.2 resolves.1)
    rw [Shell.warn_cell] at moved
    exact ⟨d,resolves,(Movable.of_transfer intact sized live alone readable prompt.drive liveY size contents
      (resolves.2.dir prompt.dir) moved).planned intact live file⟩
  · exfalso
    have drive : (({st with memory := fun _ => 0} : Shell).warn source dest).driver = v.driver :=
      (Shell.warn_driver ..).trans prompt.drive
    exact transfer_loses intact sized live alone readable drive liveY size contents
      (quiet (fun d resolves => leads ⟨d,resolves⟩) dest reached) moved

end command

section forest
variable {v : Volume} {d b : Cell}

theorem Plan.Walks.dead_rest {p : Plan} {l : List (Fin DIRECTORY_ENTRY_COUNT)} (dead : ∀ i ∈ l, ¬ v.Live ⟨b,i⟩) :
    Plan.Walks v d p b l p := by
  induction l with
  | nil => exact .done
  | cons i rest ih =>
    obtain ⟨here,others⟩ := List.forall_mem_cons.mp dead
    exact .dead here (ih others)

-- A file of at most a cluster in slot 2, which copy finds; the destination has nothing of
-- its name.
structure SmallFile (v : Volume) (b d : Cell) : Prop where
  live : v.Live ⟨b,2⟩
  plain : (v.entry ⟨b,2⟩).attr ≠ ATTR_SUBDIRECTORY
  small : ceil (v.entry ⟨b,2⟩).filesize.toNat = 1
  found : findSource (v.driver.table b) (v.entry ⟨b,2⟩).name (v.entry ⟨b,2⟩).ext =
    some ⟨(v.entry ⟨b,2⟩).filesize,(v.entry ⟨b,2⟩).cluster,false⟩
  absent : target v ⟨b,2⟩ d = none

theorem SmallFile.file (small : SmallFile v b d) (intact : Intact v) : ¬ v.Folder ⟨b,2⟩ := fun ⟨c,dir,at_⟩ =>
  small.plain (intact.folder _ small.live c dir at_).1

theorem SmallFile.fits {p : Plan} {i : Fin DIRECTORY_ENTRY_COUNT} (small : SmallFile v b d) (intact : Intact v)
    (elsewhere : b ≠ d) (fresh : ∀ y ∈ p.moved, ¬ (v.entry y).Named (v.entry ⟨b,2⟩).name (v.entry ⟨b,2⟩).ext)
    (others : ∀ y ∈ p.moved, y.dir ≠ b) (low : 2 ≤ i.val) (unused : p.used i = false)
    (before : ∀ j : Fin DIRECTORY_ENTRY_COUNT, 2 ≤ j.val → j < i → p.used j = true)
    (slot : (v.driver.table d i).attr ≠ ATTR_SUBDIRECTORY) (room : 1 ≤ p.free) :
    ∃ xs : List Cell, p.Fits v d ⟨b,2⟩ i [] xs ∧ 1 ≤ (p.move v d ⟨b,2⟩ i [] xs).free := by
  obtain ⟨c,rest,_,chain,_⟩ := intact.chained _ small.live
  refine ⟨c :: rest,⟨elsewhere,?_,fresh,⟨(v.entry ⟨b,2⟩).cluster,?_⟩,?_,?_,slot,?_,chain,?_⟩,?_⟩
  · refine intact.readable small.live small.plain chain ?_
    have enough := small.small
    rw [ceil_eq] at enough
    simp only [CLUSTER_SIZE,List.length_cons]
    omega
  · have same : without v p.moved b = v.driver.table b := by
      funext j
      exact without_other fun member => others _ member rfl
    rw [same]
    exact small.found
  · intro j _ at_
    cases small.absent.symm.trans at_
  · rw [small.absent]
    exact firstFit_some.mpr ⟨low,by simp [unused],fun j lowJ less => by simp [before j lowJ less]⟩
  · rw [small.absent]
    rfl
  · rw [small.small]
    exact room
  · simp only [Plan.move,small.small,List.length_nil,List.length_cons]
    omega

end forest

def entryIn (b : Cell) (name : String) (buffer_size : Word) : FsAction :=
  .write blankMemory {rootEntry name buffer_size with parent_cluster_number := cellNumber b}

-- A folder to move to, and one with a file and a folder in it, which has a file too.
def outer : List FsAction := [entryIn 2 "d" 0,entryIn 2 "f" 0]
def middle : List FsAction := [entryIn 4 "a" 1,entryIn 4 "g" 0]
def inner : List FsAction := [entryIn 6 "b" 2]

structure Forest (v : Volume) : Prop where
  dirs : (4 : Cell) ∈ v.dirs ∧ (6 : Cell) ∈ v.dirs
  prompt : PromptIn v (shellOn v.driver) 2
  leads : Descends v 2 ((chars "d").splitOn slash) 3
  names : NamesSource v 2 (chars "f") ⟨2,3⟩ ∧ (v.entry ⟨2,3⟩).cluster = cellNumber 4
  files : SmallFile v 4 3 ∧ SmallFile v 6 3
  apart : (v.entry ⟨4,2⟩).name ≠ (v.entry ⟨6,2⟩).name
  nested : v.Live ⟨4,3⟩ ∧ (v.entry ⟨4,3⟩).cluster = cellNumber 6
  rest : (∀ i : Fin DIRECTORY_ENTRY_COUNT, 4 ≤ i.val → ¬ v.Live ⟨4,i⟩) ∧ ∀ i : Fin DIRECTORY_ENTRY_COUNT, 3 ≤ i.val → ¬ v.Live ⟨6,i⟩
  unused : ∀ i : Fin DIRECTORY_ENTRY_COUNT, 2 ≤ i.val → (v.driver.table (3 : Cell) i).user_attribute ≠ UATTR_NOT_EMPTY
  slots : (v.driver.table (3 : Cell) 2).attr ≠ ATTR_SUBDIRECTORY ∧ (v.driver.table (3 : Cell) 3).attr ≠ ATTR_SUBDIRECTORY
  room : 1 ≤ (freeCells v.driver.cluster_map).card

-- The file a goes to slot 2 of d, and b, out of the folder in f, to slot 3.
theorem Forest.planned {v : Volume} (forest : Forest v) (intact : Intact v) : Planned v ⟨2,3⟩ 3 := by
  obtain ⟨small4,small6⟩ := forest.files
  have start : ∀ i : Fin DIRECTORY_ENTRY_COUNT, 2 ≤ i.val → (Plan.start v 3).used i = false := fun i low =>
    beq_eq_false_iff_ne.mpr (forest.unused i low)
  have room : 1 ≤ (Plan.start v 3).free := by
    simp only [Plan.start]
    exact forest.room
  obtain ⟨xs,fits4,room4⟩ := small4.fits (p := Plan.start v 3) (i := 2) intact (by decide) (List.forall_mem_nil _)
    (List.forall_mem_nil _) (by decide) (start 2 (by decide)) (fun j low less => absurd less (Nat.not_lt.mpr low))
    forest.slots.1 room
  obtain ⟨ys,fits6,_⟩ := small6.fits (p := (Plan.start v 3).move v 3 ⟨4,2⟩ 2 [] xs) (i := 3) intact (by decide)
    (fun y member named => forest.apart (by cases List.mem_singleton.mp member; exact named.1))
    (fun y member => by cases List.mem_singleton.mp member; decide) (by decide)
    (by simp [Plan.move,start 3 (by decide)])
    (fun j low less => by
      obtain rfl : j = 2 := Fin.ext (Nat.le_antisymm (Nat.le_of_lt_succ less) low)
      rfl) forest.slots.2 room4
  have slots6 : ∀ i ∈ (List.finRange DIRECTORY_ENTRY_COUNT).drop 3, 3 ≤ i.val := by decide
  have slots4 : ∀ i ∈ (List.finRange DIRECTORY_ENTRY_COUNT).drop 4, 4 ≤ i.val := by decide
  have inside : (6 : Cell) ∈ ((Plan.start v 3).move v 3 ⟨4,2⟩ 2 [] xs).dirs := by
    refine ⟨forest.dirs.2,fun j at_ => ?_⟩
    cases small4.absent.symm.trans at_
  have walks6 : Plan.Walks v 3 ((Plan.start v 3).move v 3 ⟨4,2⟩ 2 [] xs) 6 tableSlots _ :=
    .file small6.live (small6.file intact) fits6 (.dead_rest fun i member => forest.rest.2 i (slots6 i member))
  have walks4 : Plan.Walks v 3 (Plan.start v 3) 4 tableSlots _ :=
    .file small4.live (small4.file intact) fits4 (.folder forest.nested.1 forest.nested.2 inside
      (fun same => absurd same (by decide)) walks6 (.dead_rest fun i member => forest.rest.1 i (slots4 i member)))
  exact Or.inr ⟨4,_,forest.dirs.1,forest.names.2,walks4⟩

end Sosis.Command
