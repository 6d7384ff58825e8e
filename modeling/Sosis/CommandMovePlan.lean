import Sosis.CommandMove

-- mv of a folder moves the files below it one after the other, each in what the moves
-- before it have left. All of that is told here from the state before the first move.
namespace Sosis.Command
open ByteRecords Fat32 FirstFit LinkedCells

-- The table of a directory when some files are gone from it.
def without (v : Volume) (moved : List Place) (b : Cell) : DirectoryTable := fun i =>
  if (⟨b,i⟩ : Place) ∈ moved then deleteEntry (v.driver.table b) i i else v.driver.table b i

-- The files moved so far, the directories that are left, the slots of the destination
-- in use, and the number of free cells.
structure Plan where
  moved : List Place
  dirs : Set Cell
  used : Fin DIRECTORY_ENTRY_COUNT → Bool
  free : Nat

def Plan.start (v : Volume) (d : Cell) : Plan :=
  ⟨[],v.dirs,fun i => (v.driver.table d i).user_attribute == UATTR_NOT_EMPTY,(freeCells v.driver.cluster_map).card⟩

-- What the move of the file `z` to `i` needs: that its copy is whole, replaces no file
-- that came before it, and finds a slot and room. `gone` and `xs` are the cells that
-- come free for it and after it.
structure Plan.Fits (p : Plan) (v : Volume) (d : Cell) (z : Place) (i : Fin DIRECTORY_ENTRY_COUNT) (gone xs : List Cell) :
    Prop where
  elsewhere : z.dir ≠ d
  readable : ∃ data, v.Contents z data
  fresh : ∀ y ∈ p.moved, ¬ (v.entry y).Named (v.entry z).name (v.entry z).ext
  found : ∃ src_cluster_number, findSource (without v p.moved z.dir) (v.entry z).name (v.entry z).ext =
    some ⟨(v.entry z).filesize,src_cluster_number,false⟩
  cleared : ∀ j c, target v z d = some j → (v.entry ⟨d,j⟩).attr = ATTR_SUBDIRECTORY →
    (v.entry ⟨d,j⟩).cluster = cellNumber c → isEmptyDir (without v p.moved c) = true
  vacant : firstFit (fun j => !p.used j || some j == target v z d) 2 = some i
  slot : (v.driver.table d i).attr ≠ ATTR_SUBDIRECTORY
  reclaims : v.Reclaims d (target v z d) gone
  chain : v.Chained z xs
  room : ceil (v.entry z).filesize.toNat ≤ p.free + gone.length

def Plan.move (p : Plan) (v : Volume) (d : Cell) (z : Place) (i : Fin DIRECTORY_ENTRY_COUNT) (gone xs : List Cell) : Plan where
  moved := p.moved ++ [z]
  dirs := {b ∈ p.dirs | ∀ j, target v z d = some j → cellNumber b ≠ (v.entry ⟨d,j⟩).cluster}
  used j := j == i || p.used j && target v z d != some j
  free := p.free + gone.length + xs.length - ceil (v.entry z).filesize.toNat

def tableSlots : List (Fin DIRECTORY_ENTRY_COUNT) := (List.finRange DIRECTORY_ENTRY_COUNT).drop 2

-- The walk over the slots of a directory. It goes into no folder that a copy has
-- replaced, and into the destination only before anything has come there.
inductive Plan.Walks (v : Volume) (d : Cell) : Plan → Cell → List (Fin DIRECTORY_ENTRY_COUNT) → Plan → Prop where
  | done {p b} : Walks v d p b [] p
  | dead {p q b i rest} : ¬ v.Live ⟨b,i⟩ → Walks v d p b rest q → Walks v d p b (i :: rest) q
  | file {p q b i rest j gone xs} : v.Live ⟨b,i⟩ → ¬ v.Folder ⟨b,i⟩ → p.Fits v d ⟨b,i⟩ j gone xs →
      Walks v d (p.move v d ⟨b,i⟩ j gone xs) b rest q → Walks v d p b (i :: rest) q
  | folder {p m q b i rest below} : v.Live ⟨b,i⟩ → (v.entry ⟨b,i⟩).cluster = cellNumber below → below ∈ p.dirs →
      (below = d → p.moved = []) → Walks v d p below tableSlots m → Walks v d m b rest q → Walks v d p b (i :: rest) q

section tables
variable {v : Volume} {moved : List Place} {b : Cell} {z : Place}

theorem without_nil : without v [] b = v.driver.table b := by
  funext i
  exact if_neg List.not_mem_nil

theorem without_other {i : Fin DIRECTORY_ENTRY_COUNT} (other : (⟨b,i⟩ : Place) ∉ moved) :
    without v moved b i = v.driver.table b i := if_neg other

theorem without_last (fresh : z ∉ moved) : without v (moved ++ [z]) b =
    if b = z.dir then deleteEntry (without v moved b) z.index else without v moved b := by
  funext i
  by_cases here : (⟨b,i⟩ : Place) = z
  · subst here
    rw [if_pos rfl]
    unfold without
    rw [if_pos (by simp)]
    unfold deleteEntry
    simp [fresh]
  · have same : without v (moved ++ [z]) b i = without v moved b i := by simp [without,here]
    rw [same]
    split
    · rename_i at_
      rw [deleteEntry_other]
      rintro rfl
      exact here (by rw [at_])
    · rfl

end tables

-- A file that the moves before leave where it is.
def Plan.Leaves (p : Plan) (v : Volume) (d : Cell) (z : Place) : Prop := z ∉ p.moved ∧ ∀ y ∈ p.moved, ¬ Twin v v y d z

-- The volume is what the plan says it is.
structure Plan.Reached (p : Plan) (v : Volume) (d : Cell) (w : Volume) : Prop where
  intact : Intact w
  sized : Sized w
  linked : Linked w
  dirs : w.dirs = p.dirs
  shrunk : p.dirs ⊆ v.dirs
  dir : d ∈ p.dirs
  moved : ∀ y ∈ p.moved, v.Live y ∧ ¬ v.Folder y ∧ y.dir ≠ d
  names : ∀ y ∈ p.moved, ∀ y' ∈ p.moved, (v.entry y).Named (v.entry y').name (v.entry y').ext → y = y'
  arrived : ∀ y ∈ p.moved, ∃ c, c.dir = d ∧ Carried v w y c
  others : ∀ z, v.Live z → p.Leaves v d z → Undisturbed v w z
  nothingElse : ∀ z, w.Live z → (∃ y ∈ p.moved, Twin v w y d z) ∨ v.Live z ∧ p.Leaves v d z
  tables : ∀ b ∈ p.dirs, (b = d → p.moved = []) → w.driver.table b = without v p.moved b
  attr : ∀ j, (w.driver.table d j).attr = (v.driver.table d j).attr
  used : ∀ j, (w.driver.table d j).user_attribute = UATTR_NOT_EMPTY ↔ p.used j = true
  free : (freeCells w.driver.cluster_map).card = p.free

theorem Plan.start_reached {v : Volume} {d : Cell} (intact : Intact v) (sized : Sized v) (linked : Linked v) (dir : d ∈ v.dirs) :
    (Plan.start v d).Reached v d v where
  intact := intact
  sized := sized
  linked := linked
  dirs := rfl
  shrunk := fun _ => id
  dir := dir
  moved := List.forall_mem_nil _
  names := List.forall_mem_nil _
  arrived := List.forall_mem_nil _
  others := fun _ live _ => .refl live
  nothingElse := fun _ live => Or.inr ⟨live,List.not_mem_nil,List.forall_mem_nil _⟩
  tables := fun _ _ _ => without_nil.symm
  attr := fun _ => rfl
  used := fun j => by simp only [Plan.start,beq_iff_eq]
  free := by simp only [Plan.start]

section step
variable {p : Plan} {v w : Volume} {d : Cell} {z : Place} {i : Fin DIRECTORY_ENTRY_COUNT} {gone xs : List Cell}

theorem Plan.Fits.leaves (fits : p.Fits v d z i gone xs) : p.Leaves v d z :=
  ⟨fun member => fits.fresh z member ⟨rfl,rfl⟩,fun _ _ twin => fits.elsewhere twin.1⟩

-- What has the name of a file still to come has it from the start.
theorem Plan.Reached.replaced (reached : p.Reached v d w) (intact : Intact v) (live : v.Live z)
    (fresh : ∀ y ∈ p.moved, ¬ (v.entry y).Named (v.entry z).name (v.entry z).ext) {j : Fin DIRECTORY_ENTRY_COUNT}
    (at_ : target v z d = some j) : v.Live ⟨d,j⟩ ∧ Undisturbed v w ⟨d,j⟩ := by
  obtain ⟨low,named,_⟩ := findEntry_some.mp at_
  have liveJ : v.Live ⟨d,j⟩ := intact.live_of_named ⟨reached.shrunk reached.dir,low⟩ fun unnamed => intact.named z live
    ⟨named.1.symm.trans unnamed.1,named.2.symm.trans unnamed.2⟩
  refine ⟨liveJ,reached.others _ liveJ ⟨fun member => (reached.moved _ member).2.2 rfl,fun y member twin => ?_⟩⟩
  exact fresh y member ⟨twin.2.1.symm.trans named.1,twin.2.2.symm.trans named.2⟩

variable (reached : p.Reached v d w) (fits : p.Fits v d z i gone xs) (intact : Intact v) (linked : Linked v) (live : v.Live z)
include reached fits intact live

theorem Plan.Reached.target : Command.target w z d = Command.target v z d := by
  have still := reached.others z live fits.leaves
  cases at_ : Command.target v z d with
  | some j =>
    have named : (v.entry ⟨d,j⟩).Named (v.entry z).name (v.entry z).ext := (findEntry_some.mp at_).2.1
    obtain ⟨_,kept⟩ := reached.replaced intact live fits.fresh at_
    have found := reached.intact.find_self kept.live
    rw [kept.entry,named.1,named.2] at found
    unfold Command.target
    rw [still.entry]
    exact found
  | none =>
    unfold Command.target
    rw [still.entry]
    refine findEntry_none.mpr fun j low named => ?_
    have liveJ : w.Live ⟨d,j⟩ := reached.intact.live_of_named ⟨reached.dirs ▸ reached.dir,low⟩ fun unnamed =>
      intact.named z live ⟨named.1.symm.trans unnamed.1,named.2.symm.trans unnamed.2⟩
    rcases reached.nothingElse _ liveJ with ⟨y,member,twin⟩ | ⟨old,leaves⟩
    · exact fits.fresh y member ⟨twin.2.1.symm.trans named.1,twin.2.2.symm.trans named.2⟩
    · have same : w.driver.table d j = v.driver.table d j := (reached.others _ old leaves).entry
      rw [same] at named
      exact findEntry_none.mp at_ j low named

theorem Plan.Reached.vacant : vacancy (w.driver.table d) (Command.target w z d) = some i := by
  rw [reached.target fits intact live,← fits.vacant]
  unfold vacancy
  congr 1
  funext j
  congr 1
  rw [Bool.eq_iff_iff,bne_iff_ne,Bool.not_eq_true',← Bool.not_eq_true]
  exact not_congr (reached.used j)

theorem Plan.Reached.reclaims : w.Reclaims d (Command.target w z d) gone := by
  rw [reached.target fits intact live]
  have before := fits.reclaims
  cases at_ : Command.target v z d with
  | none =>
    rw [at_] at before
    exact before
  | some j =>
    rw [at_] at before
    obtain ⟨_,kept⟩ := reached.replaced intact live fits.fresh at_
    obtain ⟨c,rest,chain,same⟩ := before
    refine ⟨c,rest,kept.chain _ chain,?_⟩
    rw [kept.entry]
    exact same

include linked

-- The folder that is to be replaced is not the destination itself, which lies above it.
theorem Plan.Reached.cleared {j : Fin DIRECTORY_ENTRY_COUNT} (at_ : Command.target w z d = some j)
    (folder : (w.entry ⟨d,j⟩).attr = ATTR_SUBDIRECTORY) :
    isEmptyDir (w.driver.directory (w.entry ⟨d,j⟩).cluster) = true := by
  rw [reached.target fits intact live] at at_
  obtain ⟨liveJ,kept⟩ := reached.replaced intact live fits.fresh at_
  rw [kept.entry] at folder ⊢
  obtain ⟨c,rest,cluster,chain,_⟩ := intact.chained _ liveJ
  rw [cluster,DriverState.directory_cell]
  suffices same : w.driver.table c = without v p.moved c by
    rw [same]
    exact fits.cleared j c at_ folder cluster
  by_cases dir : c ∈ v.dirs
  · obtain ⟨rank,_,_,falls⟩ := linked.ranked intact
    have below : c ≠ d := by
      rintro rfl
      exact absurd (falls _ _ liveJ dir cluster) (Nat.lt_irrefl _)
    have empty := (intact.folder _ liveJ c dir cluster).2
    rw [← kept.entry] at empty cluster
    have dirW : c ∈ w.dirs := reached.sized.dir kept.live empty cluster
    exact reached.tables c (reached.dirs ▸ dirW) fun same => absurd same below
  · have bytes := kept.clusters _ chain c List.mem_cons_self dir
    rw [DriverState.table_congr bytes]
    funext k
    refine (without_other fun member => ?_).symm
    exact dir (reached.moved _ member).1.1.1

theorem Plan.Reached.movable : Movable w z d := by
  have still := reached.others z live fits.leaves
  have inDirs : z.dir ∈ p.dirs := reached.dirs ▸ still.live.1.1
  have entry := still.entry
  refine ⟨fits.elsewhere,?_,?_,fun j => reached.cleared fits intact linked live,⟨i,?_,?_⟩,⟨gone,?_,?_⟩⟩
  · obtain ⟨data,contents⟩ := fits.readable
    exact ⟨data,still.contents intact reached.intact live contents⟩
  · rw [reached.tables z.dir inDirs fun here => absurd here fits.elsewhere,entry]
    exact fits.found
  · exact reached.vacant fits intact live
  · rw [reached.attr]
    exact fits.slot
  · exact reached.reclaims fits intact live
  · rw [entry,reached.free]
    exact fits.room

end step

theorem OneMove.subset {w w' : Volume} {y c : Place} {d : Cell} (move : OneMove w w' y c d) : w'.dirs ⊆ w.dirs := by
  rw [move.dirs]
  exact Set.sep_subset _ _

theorem Plan.mem_move {p : Plan} {v : Volume} {d : Cell} {y z : Place} {i : Fin DIRECTORY_ENTRY_COUNT} {gone xs : List Cell} :
    y ∈ (p.move v d z i gone xs).moved ↔ y ∈ p.moved ∨ y = z := by
  simp [Plan.move]

section move
variable {p : Plan} {v w w' : Volume} {d b : Cell} {y z c : Place} {i : Fin DIRECTORY_ENTRY_COUNT} {gone xs : List Cell}
variable (reached : p.Reached v d w) (fits : p.Fits v d z i gone xs) (intact : Intact v) (live : v.Live z)
  (step : OneMove w w' z c d)
include reached fits live step

include intact in
theorem Plan.Reached.moved_dirs : w'.dirs = (p.move v d z i gone xs).dirs := by
  rw [step.dirs,reached.target fits intact live,reached.dirs]
  refine Set.sep_ext_iff.mpr fun b _ => forall_congr' fun j => forall_congr' fun at_ => ?_
  rw [(reached.replaced intact live fits.fresh at_).2.entry]

theorem Plan.Reached.moved_others (liveY : v.Live y) (leaves : (p.move v d z i gone xs).Leaves v d y) :
    Undisturbed v w y ∧ Undisturbed w w' y := by
  obtain ⟨notMoved,notTwin⟩ := leaves
  have first := reached.others y liveY ⟨fun member => notMoved (Plan.mem_move.mpr (Or.inl member)),
    fun y' member => notTwin y' (Plan.mem_move.mpr (Or.inl member))⟩
  refine ⟨first,step.others y first.live (fun same => notMoved (Plan.mem_move.mpr (Or.inr same))) fun twin => ?_⟩
  obtain ⟨here,named⟩ := twin
  rw [(reached.others z live fits.leaves).entry,first.entry] at named
  exact notTwin z (Plan.mem_move.mpr (Or.inr rfl)) ⟨here,named⟩

omit live step in
theorem Plan.Reached.moved_names {y' : Place} (member : y ∈ (p.move v d z i gone xs).moved)
    (member' : y' ∈ (p.move v d z i gone xs).moved) (named : (v.entry y).Named (v.entry y').name (v.entry y').ext) : y = y' := by
  cases Plan.mem_move.mp member with
  | inl before =>
    cases Plan.mem_move.mp member' with
    | inl before' => exact reached.names y before y' before' named
    | inr last =>
      rw [last] at named
      exact absurd named (fits.fresh y before)
  | inr last =>
    cases Plan.mem_move.mp member' with
    | inl before =>
      rw [last] at named
      exact absurd ⟨named.1.symm,named.2.symm⟩ (fits.fresh y' before)
    | inr last' => rw [last,last']

-- The copies of before stay, since none of them has the name of this file.
include intact in
theorem Plan.Reached.moved_arrived (file : ¬ v.Folder z) (member : y ∈ (p.move v d z i gone xs).moved) :
    ∃ e, e.dir = d ∧ Carried v w' y e := by
  have still := reached.others z live fits.leaves
  cases Plan.mem_move.mp member with
  | inl before =>
    obtain ⟨e,here,carried⟩ := reached.arrived y before
    have other : ¬ Twin w w z d e := by
      intro twin
      have named := twin.2
      rw [still.entry] at named
      exact fits.fresh y before ⟨carried.named.1.symm.trans named.1,carried.named.2.symm.trans named.2⟩
    have kept := step.others e carried.live (fun same => fits.elsewhere (same ▸ here)) other
    exact ⟨e,here,carried.trans (kept.carried reached.intact step.intact step.subset carried.live carried.file)⟩
  | inr last =>
    rw [last]
    have shrunk : w.dirs ⊆ v.dirs := reached.dirs ▸ reached.shrunk
    exact ⟨c,step.arrived,(still.carried intact reached.intact shrunk live file).trans step.carried⟩

theorem Plan.Reached.moved_nothingElse (liveY : w'.Live y) :
    (∃ y' ∈ (p.move v d z i gone xs).moved, Twin v w' y' d y) ∨ v.Live y ∧ (p.move v d z i gone xs).Leaves v d y := by
  have entry := (reached.others z live fits.leaves).entry
  rcases step.nothingElse y liveY with rfl | ⟨before,other,notTwin⟩
  · have named := step.carried.named
    rw [entry] at named
    exact Or.inl ⟨z,Plan.mem_move.mpr (Or.inr rfl),step.arrived,named⟩
  · have kept := step.others y before other notTwin
    rcases reached.nothingElse y before with ⟨y',member,here,named⟩ | ⟨old,notMoved,left⟩
    · rw [← kept.entry] at named
      exact Or.inl ⟨y',Plan.mem_move.mpr (Or.inl member),here,named⟩
    · refine Or.inr ⟨old,fun member => ?_,fun y' member twin => ?_⟩
      · cases Plan.mem_move.mp member with
        | inl was => exact notMoved was
        | inr last => exact other last
      · cases Plan.mem_move.mp member with
        | inl was => exact left y' was twin
        | inr last =>
          rw [last] at twin
          refine notTwin ⟨twin.1,?_⟩
          rw [(reached.others y old ⟨notMoved,left⟩).entry,entry]
          exact twin.2

omit live in
theorem Plan.Reached.moved_tables (dir : b ∈ w'.dirs) (away : b ≠ d) :
    w'.driver.table b = without v (p.move v d z i gone xs).moved b := by
  have before := reached.tables b (reached.dirs ▸ step.subset dir) fun same => absurd same away
  simp only [Plan.move]
  rw [without_last fits.leaves.1,← before]
  by_cases here : b = z.dir
  · rw [if_pos here,here]
    exact step.source
  · rw [if_neg here]
    exact step.tables b dir away here

include intact in
-- One more file has moved.
theorem Plan.Reached.move (file : ¬ v.Folder z) : (p.move v d z i gone xs).Reached v d w' := by
  have still := reached.others z live fits.leaves
  have dirs := reached.moved_dirs fits intact live step
  have shrunk : w.dirs ⊆ v.dirs := reached.dirs ▸ reached.shrunk
  constructor
  case intact => exact step.intact
  case sized => exact step.sized
  case linked => exact step.linked reached.linked
  case dirs => exact dirs
  case shrunk => exact dirs ▸ step.subset.trans shrunk
  case dir => exact dirs ▸ step.dir
  case moved =>
    intro y member
    cases Plan.mem_move.mp member with
    | inl before => exact reached.moved y before
    | inr last => exact last ▸ ⟨live,file,fits.elsewhere⟩
  case names => exact fun y member y' member' => reached.moved_names fits member member'
  case arrived => exact fun y member => reached.moved_arrived fits intact live step file member
  case others =>
    intro y liveY leaves
    obtain ⟨first,second⟩ := reached.moved_others fits live step liveY leaves
    exact first.trans second shrunk
  case nothingElse => exact fun y liveY => reached.moved_nothingElse fits live step liveY
  case tables =>
    intro b member notD
    rw [← dirs] at member
    exact reached.moved_tables fits step member fun same => by simpa [Plan.move] using notD same
  case attr => exact fun j => (step.attr j).trans (reached.attr j)
  case used =>
    intro j
    have here : i = c.index := Option.some.inj ((reached.vacant fits intact live).symm.trans step.vacant)
    rw [step.used,reached.used,reached.target fits intact live,← here]
    simp [Plan.move]
  case free =>
    have free := step.free gone xs (reached.reclaims fits intact live) (still.chain xs fits.chain)
    rw [still.entry,reached.free] at free
    simp only [Plan.move]
    omega

end move

-- What every plan has: whatever has moved was a file.
def Plan.Files (p : Plan) (v : Volume) : Prop := (∀ y ∈ p.moved, v.Live y ∧ ¬ v.Folder y) ∧ p.dirs ⊆ v.dirs

section walk
variable {p q : Plan} {v w : Volume} {d b : Cell} {l : List (Fin DIRECTORY_ENTRY_COUNT)}

theorem Plan.Files.move (files : p.Files v) {z : Place} (live : v.Live z) (file : ¬ v.Folder z) (i : Fin DIRECTORY_ENTRY_COUNT)
    (gone xs : List Cell) : (p.move v d z i gone xs).Files v := by
  refine ⟨fun y member => ?_,(Set.sep_subset _ _).trans files.2⟩
  cases Plan.mem_move.mp member with
  | inl before => exact files.1 y before
  | inr last => exact last ▸ ⟨live,file⟩

theorem Plan.Walks.grows (walks : Plan.Walks v d p b l q) (files : p.Files v) : q.Files v ∧ p.moved ⊆ q.moved := by
  induction walks with
  | done => exact ⟨files,List.Subset.refl _⟩
  | dead _ _ ih => exact ih files
  | file live file _ _ ih =>
    obtain ⟨last,subset⟩ := ih (files.move live file _ _ _)
    exact ⟨last,List.Subset.trans (List.subset_append_left _ _) subset⟩
  | folder _ _ _ _ _ _ below ih =>
    obtain ⟨middle,first⟩ := below files
    obtain ⟨last,second⟩ := ih middle
    exact ⟨last,List.Subset.trans first second⟩

-- No slot is walked over twice.
theorem Plan.Walks.untouched (walks : Plan.Walks v d p b l q) (files : p.Files v) : ∀ i ∈ l, (⟨b,i⟩ : Place) ∉ p.moved := by
  induction walks with
  | done => exact List.forall_mem_nil _
  | dead dead _ ih => exact List.forall_mem_cons.mpr ⟨fun member => dead (files.1 _ member).1,ih files⟩
  | file live file fits _ ih =>
    refine List.forall_mem_cons.mpr ⟨fits.leaves.1,fun i member before => ?_⟩
    exact ih (files.move live file _ _ _) i member (List.mem_append_left _ before)
  | folder _ cluster dir _ walks _ _ ih =>
    obtain ⟨middle,subset⟩ := walks.grows files
    refine List.forall_mem_cons.mpr ⟨fun member => (files.1 _ member).2 ⟨_,files.2 dir,cluster⟩,fun i member before => ?_⟩
    exact ih middle i member (subset before)

-- One turn of the walk, on a slot of the table that was read.
def moveTurn (frames : Nat → Frame) (dest : Word) (fuel : Nat) (b : Cell) (st : Shell) (e : DirectoryEntry) : Option Shell :=
  if e.user_attribute ≠ UATTR_NOT_EMPTY then some st
  else if e.attr = ATTR_SUBDIRECTORY then traverseFolder frames fuel st e.cluster dest true
  else Command.transfer frames fuel true st e.name e.ext (cellNumber b) dest

theorem entries_slots (s : DriverState) (b : Cell) : (entries (s.directory (cellNumber b))).drop 2 = tableSlots.map (s.table b) := by
  rw [entries,DriverState.directory_cell,tableSlots,List.map_drop]

theorem tableSlots_low : ∀ i ∈ tableSlots, 2 ≤ i.val := by decide

theorem traverseFolder_turns (frames : Nat → Frame) (dest : Word) (fuel : Nat) (b : Cell) (st : Shell) :
    traverseFolder frames (fuel+1) st (cellNumber b) dest true =
      (tableSlots.map (st.driver.table b)).foldlM (moveTurn frames dest fuel b) st := by
  rw [← entries_slots]
  rfl

variable {rank : Cell → Nat} {bound : Nat} {frames : Nat → Frame}

-- The walk of the code follows the plan, by induction on the plan. The turns may nest as
-- deep as the folders do.
theorem Plan.Walks.run (walks : Plan.Walks v d p b l q) (intact : Intact v) (linked : Linked v) (bounded : ∀ b, rank b ≤ bound)
    (falls : ∀ y e, v.Live y → e ∈ v.dirs → (v.entry y).cluster = cellNumber e → rank y.dir < rank e) {st : Shell}
    {t : DirectoryTable} {fuel : Nat} (reached : p.Reached v d w) (drive : st.driver = w.driver) (dir : b ∈ v.dirs)
    (snapshot : ∀ i ∈ l, 2 ≤ i.val ∧ t i = v.driver.table b i) (deep : bound + 1 ≤ fuel + rank b) :
    ∃ st' w', (l.map t).foldlM (moveTurn frames (cellNumber d) fuel b) st = some st' ∧ st'.driver = w'.driver ∧
      q.Reached v d w' := by
  induction walks generalizing w st t fuel with
  | done => exact ⟨st,w,rfl,drive,reached⟩
  | @dead p q b i rest dead _ ih =>
    obtain ⟨⟨low,same⟩,others⟩ := List.forall_mem_cons.mp snapshot
    have unused : (t i).user_attribute ≠ UATTR_NOT_EMPTY := fun used =>
      dead ⟨⟨dir,low⟩,(congrArg DirectoryEntry.user_attribute same).symm.trans used⟩
    rw [List.map_cons,List.foldlM_cons,moveTurn,if_pos unused]
    exact ih reached drive dir others deep
  | @file p q b i rest j gone xs live file fits _ ih =>
    obtain ⟨⟨low,same⟩,others⟩ := List.forall_mem_cons.mp snapshot
    obtain ⟨_,readable⟩ := fits.readable
    have still := reached.others _ live fits.leaves
    have plain : (v.entry ⟨b,i⟩).attr ≠ ATTR_SUBDIRECTORY := readable.file (intact.find_self live)
    have entry : t i = w.entry ⟨b,i⟩ := same.trans still.entry.symm
    have fileW : ¬ w.Folder ⟨b,i⟩ := still.file (reached.dirs ▸ reached.shrunk) file
    cases fuel with
    | zero =>
      have := bounded b
      omega
    | succ fuel =>
      obtain ⟨st₁,w₁,c,moved,drive₁,move⟩ := (reached.movable fits intact linked live).moves reached.intact reached.sized
        still.live fileW (reached.dirs ▸ reached.dir) drive frames fuel
      obtain ⟨st',w',ran,drive',reached'⟩ := ih (reached.move fits intact live move file) drive₁ dir others deep
      refine ⟨st',w',?_,drive',reached'⟩
      rw [List.map_cons,List.foldlM_cons,moveTurn,if_neg (not_not.mpr (same ▸ live.2)),if_neg (same ▸ plain),entry]
      exact (congrArg (Option.bind · _) moved).trans ran
  | @folder p m q b i rest below live cluster inside first walks _ inner ih =>
    obtain ⟨⟨low,same⟩,others⟩ := List.forall_mem_cons.mp snapshot
    have dirBelow := reached.shrunk inside
    have marked := (intact.folder _ live below dirBelow cluster).1
    have less : rank b < rank below := falls _ _ live dirBelow cluster
    have files : p.Files v := ⟨fun y member => ⟨(reached.moved y member).1,(reached.moved y member).2.1⟩,reached.shrunk⟩
    cases fuel with
    | zero =>
      have := bounded b
      omega
    | succ fuel =>
      have read : ∀ i ∈ tableSlots, 2 ≤ i.val ∧ st.driver.table below i = v.driver.table below i := fun i member =>
        ⟨tableSlots_low i member,by
          rw [drive,reached.tables below inside first]
          exact without_other (walks.untouched files i member)⟩
      have deeper : bound + 1 ≤ fuel + rank below := by omega
      obtain ⟨st₁,w₁,ran₁,drive₁,reached₁⟩ := inner reached drive dirBelow read deeper
      obtain ⟨st',w',ran,drive',reached'⟩ := ih reached₁ drive₁ dir others deep
      have entry : (t i).cluster = cellNumber below := same ▸ cluster
      refine ⟨st',w',?_,drive',reached'⟩
      rw [List.map_cons,List.foldlM_cons,moveTurn,if_neg (not_not.mpr (same ▸ live.2)),if_pos (same ▸ marked),entry,
        traverseFolder_turns,ran₁]
      exact ran

end walk

end Sosis.Command
