import Mathlib.Data.Set.Card
import Sosis.Fat32Lookup
import Sosis.Fat32Tree
import Sosis.Fat32WellFormed
import Sosis.QueueWalk

-- find of fat32.c: the directories that hold an entry of a name, looked for from the
-- root down. It goes by the attribute byte of each entry, and a file that was given
-- the slot of a removed folder keeps that byte.
namespace Sosis.Fat32
open ByteRecords FirstFit LinkedCells RootedLinks TransitionRuns QueueWalk

abbrev queueSize : Nat := 100
abbrev resultSize : Nat := 50

-- back++; queue[back] = cluster_number;
def enqueue (queue : List Word) (cluster_number : Word) : Option (List Word) :=
  if queue.length < queueSize then some (queue ++ [cluster_number]) else none

-- result[*n_res] = queue[front]; (*n_res)++;
def report (result : List Word) (cluster_number : Word) : Option (List Word) :=
  if result.length < resultSize then some (result ++ [cluster_number]) else none

-- for(int i=2;i<...;i++), the slots still to come
def enqueueFolders (dir_table : DirectoryTable) : List (Fin DIRECTORY_ENTRY_COUNT) → List Word → Option (List Word)
  | [],queue => some queue
  | i :: rest,queue =>
    if (dir_table i).user_attribute ≠ UATTR_NOT_EMPTY then enqueueFolders dir_table rest queue
    else if (dir_table i).attr ≠ ATTR_SUBDIRECTORY then enqueueFolders dir_table rest queue
    else (enqueue queue (dir_table i).cluster).bind (enqueueFolders dir_table rest)

def slots : List (Fin DIRECTORY_ENTRY_COUNT) := (List.finRange DIRECTORY_ENTRY_COUNT).drop 2

-- while(front<=back), where back is the last index of the queue. A result `none` is an
-- index outside queue or result, or a loop that goes on after so many turns.
def findLoop (s : DriverState) (name : Name) (ext : Ext) : Nat → List Word → Nat → List Word → Option (List Word)
  | turns,queue,front,result =>
    if inside : front < queue.length then match turns with
      | 0 => none
      | turns+1 =>
        let dir_table := s.directory queue[front]
        let result := if (findEntry dir_table name ext).isSome then report result queue[front] else some result
        result.bind fun result =>
          (enqueueFolders dir_table slots queue).bind fun queue => findLoop s name ext turns queue (front+1) result
    else some result

-- `result` are the first n_res cells of the array, before and after.
def find (s : DriverState) (name : Name) (ext : Ext) (result : List Word) : Option (List Word) :=
  findLoop s name ext queueSize [ROOT_CLUSTER_NUMBER] 0 result

-- The clusters a directory queues.
def entersQueue (e : DirectoryEntry) : Bool := e.user_attribute == UATTR_NOT_EMPTY && e.attr == ATTR_SUBDIRECTORY

def queuedFrom (dir_table : DirectoryTable) (l : List (Fin DIRECTORY_ENTRY_COUNT)) : List Word :=
  (l.filter fun i => entersQueue (dir_table i)).map fun i => (dir_table i).cluster

def subfolders (s : DriverState) (cluster : Word) : List Word := queuedFrom (s.directory cluster) slots

def holdsName (s : DriverState) (name : Name) (ext : Ext) (cluster : Word) : Bool :=
  (findEntry (s.directory cluster) name ext).isSome

-- What the array still has room for.
def Fits (result found : List Word) : Prop := found ≠ [] → result.length + found.length ≤ resultSize

section loop
variable {s : DriverState} {name : Name} {ext : Ext} {queue result r : List Word} {dir_table : DirectoryTable}

theorem enqueueFolders_eq (l : List (Fin DIRECTORY_ENTRY_COUNT)) (room : queue.length ≤ queueSize) :
    enqueueFolders dir_table l queue =
      if queue.length + (queuedFrom dir_table l).length ≤ queueSize then some (queue ++ queuedFrom dir_table l)
      else none := by
  induction l generalizing queue with
  | nil => simp [enqueueFolders,queuedFrom,room]
  | cons i rest ih =>
    unfold enqueueFolders
    by_cases enters : entersQueue (dir_table i) = true
    · have both : (dir_table i).user_attribute = UATTR_NOT_EMPTY ∧ (dir_table i).attr = ATTR_SUBDIRECTORY := by
        simpa [entersQueue] using enters
      have more : queuedFrom dir_table (i :: rest) = (dir_table i).cluster :: queuedFrom dir_table rest := by
        simp [queuedFrom,enters]
      rw [if_neg (not_not.mpr both.1),if_neg (not_not.mpr both.2),more,enqueue,List.length_cons]
      by_cases full : queue.length < queueSize
      · rw [if_pos full,Option.bind_some,ih (by simpa using full)]
        simp only [List.length_append,List.length_cons,List.length_nil,List.append_assoc,List.cons_append,
          List.nil_append,Nat.zero_add,Nat.add_assoc,Nat.add_comm 1]
      · rw [if_neg full,Option.bind_none,if_neg (by omega)]
    · have same : queuedFrom dir_table (i :: rest) = queuedFrom dir_table rest := by simp [queuedFrom,enters]
      rw [same,← ih room]
      split
      · rfl
      · rename_i used
        refine if_pos fun folder => enters ?_
        simp [entersQueue,not_not.mp used,folder]

theorem report_fits (a : Word) {found : List Word} :
    (∃ longer, report result a = some longer ∧ Fits longer found ∧ r = longer ++ found) ↔
      Fits result (a :: found) ∧ r = result ++ a :: found := by
  unfold report Fits
  constructor
  · rintro ⟨longer,reported,room,same⟩
    split at reported
    · rename_i less
      cases reported
      refine ⟨fun _ => ?_,by simpa using same⟩
      by_cases last : found = []
      · rw [last]
        exact less
      · have := room last
        simp only [List.length_append,List.length_cons,List.length_nil] at this ⊢
        omega
    · cases reported
  · rintro ⟨room,same⟩
    have total := room (List.cons_ne_nil _ _)
    rw [List.length_cons] at total
    refine ⟨result ++ [a],if_pos (by omega),fun _ => ?_,by simpa using same⟩
    simp only [List.length_append,List.length_cons,List.length_nil]
    omega

-- One turn: the queue grows by the folders of the cluster served, if they fit.
theorem findLoop_turn {front : Nat} (room : queue.length ≤ queueSize) (inside : front < queue.length) (turns : Nat) :
    findLoop s name ext (turns+1) queue front result = some r ↔
      queue.length + (subfolders s queue[front]).length ≤ queueSize ∧
        ∃ longer, (if holdsName s name ext queue[front] then report result queue[front] else some result) = some longer ∧
          findLoop s name ext turns (queue ++ subfolders s queue[front]) (front+1) longer = some r := by
  conv => lhs; unfold findLoop
  rw [dif_pos inside,Option.bind_eq_some_iff]
  simp only [enqueueFolders_eq slots room,Option.bind_eq_some_iff]
  constructor
  · rintro ⟨longer,reported,grown,queued,onward⟩
    split at queued
    · rename_i fits
      cases queued
      exact ⟨fits,longer,reported,onward⟩
    · cases queued
  · rintro ⟨fits,longer,reported,onward⟩
    exact ⟨longer,reported,_,if_pos fits,onward⟩

theorem findLoop_done {front : Nat} (done : queue.length ≤ front) (last : front ≤ queueSize) : some result = some r ↔
    ∃ served, Served (subfolders s) (queue.drop front) served ∧ front + served.length ≤ queueSize ∧
      Fits result (served.filter (holdsName s name ext)) ∧ r = result ++ served.filter (holdsName s name ext) := by
  rw [List.drop_of_length_le done,Option.some_inj]
  constructor
  · rintro rfl
    exact ⟨[],.done,last,fun some => absurd rfl some,by simp⟩
  · rintro ⟨served,walk,_,_,same⟩
    rw [Served.nil_iff.mp walk] at same
    simpa using same.symm

theorem findLoop_eq_some {turns front : Nat} (room : queue.length ≤ queueSize) (enough : queueSize ≤ turns + front)
    (reached : front ≤ queue.length) : findLoop s name ext turns queue front result = some r ↔
      ∃ served, Served (subfolders s) (queue.drop front) served ∧ front + served.length ≤ queueSize ∧
        Fits result (served.filter (holdsName s name ext)) ∧ r = result ++ served.filter (holdsName s name ext) := by
  induction turns generalizing queue front result with
  | zero =>
    have empty : ¬ front < queue.length := by omega
    unfold findLoop
    rw [dif_neg empty]
    exact findLoop_done (by omega) (by omega)
  | succ turns ih =>
    by_cases inside : front < queue.length
    · rw [findLoop_turn room inside,List.drop_eq_getElem_cons inside]
      have onward {longer : List Word} (fits : queue.length + (subfolders s queue[front]).length ≤ queueSize) :=
        @ih (queue ++ subfolders s queue[front]) longer (front+1) (by simpa using fits) (by omega)
          (by rw [List.length_append]; omega)
      rw [List.drop_append_of_le_length (by omega)] at onward
      constructor
      · rintro ⟨fits,longer,reported,looped⟩
        obtain ⟨later,walk,bound,more,same⟩ := (onward fits).mp looped
        refine ⟨_,.next walk,by rw [List.length_cons]; omega,?_⟩
        by_cases hit : holdsName s name ext queue[front] = true
        · rw [if_pos hit] at reported
          rw [List.filter_cons_of_pos hit]
          exact (report_fits _).mp ⟨longer,reported,more,same⟩
        · rw [if_neg hit] at reported
          cases reported
          rw [List.filter_cons_of_neg hit]
          exact ⟨more,same⟩
      · rintro ⟨served,walk,bound,more,same⟩
        obtain ⟨later,onwards,rfl⟩ := Served.cons_iff.mp walk
        have length := congrArg List.length onwards.eq_append
        simp only [List.length_append,List.length_drop] at length
        rw [List.length_cons] at bound
        have fits : queue.length + (subfolders s queue[front]).length ≤ queueSize := by omega
        refine ⟨fits,?_⟩
        by_cases hit : holdsName s name ext queue[front] = true
        · rw [List.filter_cons_of_pos hit] at more same
          obtain ⟨longer,reported,room',same'⟩ := (report_fits _).mpr ⟨more,same⟩
          exact ⟨longer,by rw [if_pos hit]; exact reported,(onward fits).mpr ⟨later,onwards,by omega,room',same'⟩⟩
        · rw [List.filter_cons_of_neg hit] at more same
          exact ⟨result,by rw [if_neg hit],(onward fits).mpr ⟨later,onwards,by omega,more,same⟩⟩
    · unfold findLoop
      rw [dif_neg inside]
      exact findLoop_done (by omega) (by omega)

-- find returns exactly when its walk from the root fits the queue and what it found
-- fits the result, and then it has appended what it found.
theorem find_eq_some : find s name ext result = some r ↔
    ∃ served, Served (subfolders s) [ROOT_CLUSTER_NUMBER] served ∧ served.length ≤ queueSize ∧
      Fits result (served.filter (holdsName s name ext)) ∧ r = result ++ served.filter (holdsName s name ext) := by
  simpa [find] using @findLoop_eq_some s name ext [ROOT_CLUSTER_NUMBER] result r queueSize 0 (by decide) (by decide) (by decide)

end loop

namespace Volume

-- The directory at `cluster` exists and has a live entry of that name.
def Matches (v : Volume) (name : Name) (ext : Ext) (cluster : Word) : Prop :=
  ∃ x, v.Live x ∧ (v.entry x).Named name ext ∧ cluster = cellNumber x.dir

-- Every matching directory is appended to `result` once, and nothing else is.
def Finds (v : Volume) (name : Name) (ext : Ext) (result : List Word) : Prop :=
  ∃ found, find v.driver name ext result = some (result ++ found) ∧ found.Nodup ∧
    ∀ cluster, cluster ∈ found ↔ v.Matches name ext cluster

-- The entry of a file in a slot that still says `subdirectory`.
def Stale (v : Volume) (y : Place) : Prop := v.Live y ∧ (v.entry y).attr = ATTR_SUBDIRECTORY ∧ ¬ v.Folder y

-- A cluster that the bytes of a file, read as a directory, lead to.
def Astray (v : Volume) (cluster : Word) : Prop := ∃ y, v.Stale y ∧ Below (subfolders v.driver) (v.entry y).cluster cluster

end Volume

-- What find needs: all ways down from the root through entries that say `subdirectory`
-- fit the queue, none of them that goes through a file meets the name, and the
-- matching directories fit the result.
structure FindFits (v : Volume) (name : Name) (ext : Ext) (n_res : Nat) : Prop where
  queued : ∃ served, Served (subfolders v.driver) [ROOT_CLUSTER_NUMBER] served ∧ served.length ≤ queueSize
  apart : ∀ cluster, v.Astray cluster → findEntry (v.driver.directory cluster) name ext = none
  room : (∃ cluster, v.Matches name ext cluster) → n_res + {cluster | v.Matches name ext cluster}.ncard ≤ resultSize

section tree
variable {v : Volume} {name : Name} {ext : Ext} {d : Cell} {w p : Word} {served : List Word}

theorem mem_slots : ∀ i : Fin DIRECTORY_ENTRY_COUNT, i ∈ slots ↔ 2 ≤ i.val := by decide

theorem slots_nodup : slots.Nodup := (List.nodup_finRange _).sublist (List.drop_sublist _ _)

theorem mem_subfolders (dir : d ∈ v.dirs) : w ∈ subfolders v.driver (cellNumber d) ↔
    ∃ i, v.Live ⟨d,i⟩ ∧ (v.entry ⟨d,i⟩).attr = ATTR_SUBDIRECTORY ∧ (v.entry ⟨d,i⟩).cluster = w := by
  simp only [subfolders,queuedFrom,DriverState.directory_cell,List.mem_map,List.mem_filter,mem_slots,entersQueue,
    Bool.and_eq_true,beq_iff_eq]
  constructor
  · rintro ⟨i,⟨low,used,folder⟩,at_⟩
    exact ⟨i,⟨⟨dir,low⟩,used⟩,folder,at_⟩
  · rintro ⟨i,live,folder,at_⟩
    exact ⟨i,⟨live.1.2,live.2,folder⟩,at_⟩

-- The cluster of a folder stands in one slot only.
theorem subfolders_once (intact : Intact v) {x : Place} (live : v.Live x) (dir : d ∈ v.dirs)
    (at_ : (v.entry x).cluster = cellNumber d) :
    (subfolders v.driver (cellNumber x.dir)).count (cellNumber d) = 1 := by
  have here : ∀ i ∈ slots, ((v.driver.table x.dir i).cluster == cellNumber d && entersQueue (v.driver.table x.dir i)) =
      true ↔ (i == x.index) = true := by
    intro i low
    rw [Bool.and_eq_true,beq_iff_eq,beq_iff_eq]
    constructor
    · rintro ⟨atI,enters⟩
      have liveI : v.Live ⟨x.dir,i⟩ := by
        refine ⟨⟨live.1.1,(mem_slots i).mp low⟩,?_⟩
        simp only [entersQueue,Bool.and_eq_true,beq_iff_eq] at enters
        exact enters.1
      exact congrArg Place.index (intact.entry_unique liveI live dir atI at_)
    · rintro rfl
      have folder := (intact.folder x live d dir at_).1
      exact ⟨at_,by simpa [entersQueue] using ⟨live.2,folder⟩⟩
  rw [subfolders,DriverState.directory_cell,queuedFrom,List.count,List.countP_map,List.countP_filter]
  refine (List.countP_congr here).trans ?_
  exact List.count_eq_one_of_mem slots_nodup ((mem_slots x.index).mpr live.1.2)

-- A folder hangs below the directory of its entry, and the root below none.
theorem child_of_dir (intact : Intact v) (linked : Linked v) {e : Cell} (dirD : d ∈ v.dirs) (dirE : e ∈ v.dirs)
    (child : cellNumber e ∈ subfolders v.driver (cellNumber d)) :
    e ≠ 2 ∧ parent_cluster v.driver (cellNumber e) = cellNumber d := by
  obtain ⟨i,live,_,at_⟩ := (mem_subfolders dirD).mp child
  exact linked.link intact live dirE at_

theorem below_root (intact : Intact v) (linked : Linked v) (dir : d ∈ v.dirs) :
    Below (subfolders v.driver) ROOT_CLUSTER_NUMBER (cellNumber d) := by
  have rooted := linked.rooted d dir
  generalize at_ : cellNumber d = w at rooted
  induction rooted generalizing d with
  | root => exact .refl
  | @up w _ ih =>
    by_cases atRoot : d = 2
    · rw [← at_,atRoot]
      exact .refl
    · obtain ⟨x,live,atX,link⟩ := linked.held d dir atRoot
      rw [← at_] at ih ⊢
      refine .tail (ih live.1.1 link.symm) ?_
      rw [link,mem_subfolders live.1.1]
      exact ⟨x.index,live,(intact.folder x live d dir atX).1,atX⟩

-- Every way down from the root stays on directories or passes through a file.
theorem below_root_cases (intact : Intact v) (below : Below (subfolders v.driver) ROOT_CLUSTER_NUMBER w) :
    (∃ d ∈ v.dirs, w = cellNumber d) ∨ v.Astray w := by
  induction below with
  | refl => exact Or.inl ⟨2,intact.root,rfl⟩
  | @tail p w _ child ih =>
    rcases ih with ⟨d,dir,rfl⟩ | ⟨y,stale,astray⟩
    · obtain ⟨i,live,folder,at_⟩ := (mem_subfolders dir).mp child
      by_cases made : v.Folder ⟨d,i⟩
      · obtain ⟨e,dirE,atE⟩ := made
        exact Or.inl ⟨e,dirE,at_.symm.trans atE⟩
      · exact Or.inr ⟨⟨d,i⟩,⟨live,folder,made⟩,at_ ▸ .refl⟩
    · exact Or.inr ⟨y,stale,.tail astray child⟩

theorem served_of_dir (intact : Intact v) (linked : Linked v)
    (walk : Served (subfolders v.driver) [ROOT_CLUSTER_NUMBER] served) (dir : d ∈ v.dirs) : cellNumber d ∈ served :=
  walk.mem_iff.mpr ⟨_,by simp,below_root intact linked dir⟩

theorem served_of_astray (intact : Intact v) (linked : Linked v)
    (walk : Served (subfolders v.driver) [ROOT_CLUSTER_NUMBER] served) (astray : v.Astray w) : w ∈ served := by
  obtain ⟨y,stale,below⟩ := astray
  have parent := served_of_dir intact linked walk stale.1.1.1
  refine walk.closed_below (walk.child parent ?_) below
  exact (mem_subfolders stale.1.1.1).mpr ⟨y.index,stale.1,stale.2.1,rfl⟩

theorem served_cases (intact : Intact v) (walk : Served (subfolders v.driver) [ROOT_CLUSTER_NUMBER] served)
    (member : w ∈ served) : (∃ d ∈ v.dirs, w = cellNumber d) ∨ v.Astray w := by
  obtain ⟨root,isRoot,below⟩ := walk.mem_iff.mp member
  rw [List.mem_singleton.mp isRoot] at below
  exact below_root_cases intact below

-- A directory that no file leads to is a child of its own parent only.
theorem served_parent (intact : Intact v) (linked : Linked v)
    (walk : Served (subfolders v.driver) [ROOT_CLUSTER_NUMBER] served) (dir : d ∈ v.dirs)
    (apart : ¬ v.Astray (cellNumber d)) (member : p ∈ served) (child : cellNumber d ∈ subfolders v.driver p) :
    d ≠ 2 ∧ parent_cluster v.driver (cellNumber d) = p := by
  rcases served_cases intact walk member with ⟨e,dirE,rfl⟩ | ⟨y,stale,below⟩
  · exact child_of_dir intact linked dirE dir child
  · exact absurd ⟨y,stale,.tail below child⟩ apart

theorem count_root_dir (intact : Intact v) (linked : Linked v)
    (walk : Served (subfolders v.driver) [ROOT_CLUSTER_NUMBER] served) (apart : ¬ v.Astray ROOT_CLUSTER_NUMBER) :
    served.count ROOT_CLUSTER_NUMBER = 1 := by
  refine walk.count_root fun p member child => ?_
  have onlyParent := served_parent intact linked walk intact.root apart member child
  exact onlyParent.1 rfl

theorem count_dir (intact : Intact v) (linked : Linked v)
    (walk : Served (subfolders v.driver) [ROOT_CLUSTER_NUMBER] served) (dir : d ∈ v.dirs)
    (apart : ¬ v.Astray (cellNumber d)) : served.count (cellNumber d) = 1 := by
  have rooted := linked.rooted d dir
  generalize at_ : cellNumber d = w at rooted
  induction rooted generalizing d with
  | root => exact count_root_dir intact linked walk (at_ ▸ apart)
  | @up w _ ih =>
    rw [← at_] at ih ⊢
    by_cases atRoot : d = 2
    · rw [atRoot,← root_cell] at apart ⊢
      exact count_root_dir intact linked walk apart
    · obtain ⟨x,live,atX,link⟩ := linked.held d dir atRoot
      have once := subfolders_once intact live dir atX
      have above : ¬ v.Astray (cellNumber x.dir) := fun ⟨y,stale,below⟩ =>
        apart ⟨y,stale,.tail below (List.count_pos_iff.mp (by omega))⟩
      rw [← ih live.1.1 above link.symm,link]
      refine walk.count_child ?_ once fun p member other child => ?_
      · rw [root_cell]
        refine List.count_eq_zero_of_not_mem fun inside => atRoot (cellNumber_injective ?_)
        exact List.mem_singleton.mp inside
      · exact other ((served_parent intact linked walk dir apart member child).2.symm.trans link)

-- One that a file does lead to is served at least twice: the last step onto a
-- directory comes from the file's side, and its own parent is served as well.
theorem count_astray (intact : Intact v) (linked : Linked v)
    (walk : Served (subfolders v.driver) [ROOT_CLUSTER_NUMBER] served) (dir : d ∈ v.dirs)
    (astray : v.Astray (cellNumber d)) : 2 ≤ served.count (cellNumber d) := by
  obtain ⟨y,stale,below⟩ := astray
  generalize at_ : cellNumber d = w at below ⊢
  induction below generalizing d with
  | refl => exact absurd ⟨d,dir,at_.symm⟩ stale.2.2
  | @tail p w before child ih =>
    have member := served_of_astray intact linked walk ⟨y,stale,before⟩
    by_cases above : ∃ e ∈ v.dirs, cellNumber e = p
    · obtain ⟨e,dirE,atE⟩ := above
      exact le_trans (ih dirE atE) (walk.count_le_child child)
    · by_cases atRoot : d = 2
      · exact walk.count_waiting (by rw [← at_,atRoot,← root_cell]; simp) member child
      · obtain ⟨x,live,atX,_⟩ := linked.held d dir atRoot
        have once := subfolders_once intact live dir atX
        rw [at_] at once
        exact walk.count_two_parents (fun same => above ⟨x.dir,live.1.1,same⟩)
          (served_of_dir intact linked walk live.1.1) member (List.count_pos_iff.mp (by omega)) child

end tree

section exact
variable {v : Volume} {name : Name} {ext : Ext} {d : Cell} {w : Word} {served found result : List Word}

-- In an existing directory findEntry hits live entries only.
theorem holdsName_dir (intact : Intact v) (visible : ¬ (name = (fun _ => 0) ∧ ext = fun _ => 0)) (dir : d ∈ v.dirs) :
    holdsName v.driver name ext (cellNumber d) = true ↔ v.Matches name ext (cellNumber d) := by
  unfold holdsName
  rw [DriverState.directory_cell,Option.isSome_iff_exists]
  constructor
  · rintro ⟨i,hit⟩
    obtain ⟨low,named,_⟩ := findEntry_some.mp hit
    refine ⟨⟨d,i⟩,?_,named,rfl⟩
    by_contra notLive
    have dead := intact.dead ⟨d,i⟩ ⟨dir,low⟩ notLive
    exact visible ⟨named.1.symm.trans dead.1,named.2.symm.trans dead.2⟩
  · rintro ⟨x,live,named,same⟩
    rw [cellNumber_injective same]
    have hit := intact.find_self live
    rw [named.1,named.2] at hit
    exact ⟨x.index,hit⟩

theorem Volume.Matches.dir (found : v.Matches name ext w) : ∃ d ∈ v.dirs, w = cellNumber d := by
  obtain ⟨x,live,_,same⟩ := found
  exact ⟨x.dir,live.1.1,same⟩

-- What the walk picks out, once no file leads to the name: each matching directory once.
theorem picked_exact (intact : Intact v) (linked : Linked v) (visible : ¬ (name = (fun _ => 0) ∧ ext = fun _ => 0))
    (walk : Served (subfolders v.driver) [ROOT_CLUSTER_NUMBER] served)
    (apart : ∀ cluster, v.Astray cluster → findEntry (v.driver.directory cluster) name ext = none) :
    (served.filter (holdsName v.driver name ext)).Nodup ∧
      ∀ w, w ∈ served.filter (holdsName v.driver name ext) ↔ v.Matches name ext w := by
  have straight : ∀ w, holdsName v.driver name ext w = true → ¬ v.Astray w := by
    intro w hit astray
    rw [holdsName,apart w astray] at hit
    cases hit
  refine ⟨List.nodup_iff_count_le_one.mpr fun w => ?_,fun w => ?_⟩
  · by_cases hit : holdsName v.driver name ext w = true
    · rw [List.count_filter hit]
      by_cases member : w ∈ served
      · rcases served_cases intact walk member with ⟨d,dir,rfl⟩ | astray
        · exact (count_dir intact linked walk dir (straight _ hit)).le
        · exact absurd astray (straight w hit)
      · rw [List.count_eq_zero_of_not_mem member]
        exact Nat.zero_le _
    · rw [List.count_eq_zero_of_not_mem fun inside => hit (List.mem_filter.mp inside).2]
      exact Nat.zero_le _
  · rw [List.mem_filter]
    constructor
    · rintro ⟨member,hit⟩
      rcases served_cases intact walk member with ⟨d,dir,rfl⟩ | astray
      · exact (holdsName_dir intact visible dir).mp hit
      · exact absurd astray (straight w hit)
    · intro found
      obtain ⟨d,dir,rfl⟩ := found.dir
      exact ⟨served_of_dir intact linked walk dir,(holdsName_dir intact visible dir).mpr found⟩

theorem matches_ncard (distinct : found.Nodup) (all : ∀ w, w ∈ found ↔ v.Matches name ext w) :
    {w | v.Matches name ext w}.ncard = found.length := by
  rw [← List.toFinset_card_of_nodup distinct,← Set.ncard_coe_finset]
  congr 1
  ext w
  simp [all w]

theorem fits_iff (distinct : found.Nodup) (all : ∀ w, w ∈ found ↔ v.Matches name ext w) : Fits result found ↔
    ((∃ w, v.Matches name ext w) → result.length + {w | v.Matches name ext w}.ncard ≤ resultSize) := by
  have some : found ≠ [] ↔ ∃ w, v.Matches name ext w := by
    simp only [← all]
    exact ⟨List.exists_mem_of_ne_nil found,fun ⟨_,member⟩ => List.ne_nil_of_mem member⟩
  rw [matches_ncard distinct all,Fits,some]

theorem finds_exact (intact : Intact v) (linked : Linked v) (visible : ¬ (name = (fun _ => 0) ∧ ext = fun _ => 0))
    (result : List Word) : v.Finds name ext result ↔ FindFits v name ext result.length := by
  constructor
  · rintro ⟨found,ran,distinct,all⟩
    obtain ⟨served,walk,short,fits,same⟩ := find_eq_some.mp ran
    have picked := List.append_cancel_left same
    rw [← picked] at fits
    refine ⟨⟨served,walk,short⟩,fun w astray => ?_,(fits_iff distinct all).mp fits⟩
    by_contra present
    have hit : holdsName v.driver name ext w = true := Option.isSome_iff_ne_none.mpr present
    have member := served_of_astray intact linked walk astray
    have inFound : w ∈ found := by
      rw [picked]
      exact List.mem_filter.mpr ⟨member,hit⟩
    obtain ⟨d,dir,rfl⟩ := ((all w).mp inFound).dir
    have twice := count_astray intact linked walk dir astray
    rw [← List.count_filter hit,← picked] at twice
    have once := List.nodup_iff_count_le_one.mp distinct (cellNumber d)
    omega
  · intro fits
    obtain ⟨served,walk,short⟩ := fits.queued
    obtain ⟨distinct,all⟩ := picked_exact intact linked visible walk fits.apart
    exact ⟨_,find_eq_some.mpr ⟨served,walk,short,(fits_iff distinct all).mpr fits.room,rfl⟩,distinct,all⟩

-- Where no file has the slot of a folder, the walk is over the directories.
theorem walk_unmarked (intact : Intact v) (linked : Linked v) (unmarked : ∀ y, ¬ v.Stale y) :
    ∃ served, Served (subfolders v.driver) [ROOT_CLUSTER_NUMBER] served := by
  obtain ⟨rank,falls⟩ := Rooted.ranked (parent_cluster v.driver) ROOT_CLUSTER_NUMBER
  have closed : ∀ p ∈ v.clusters, ∀ w ∈ subfolders v.driver p, w ∈ v.clusters ∧ rank p < rank w := by
    rintro _ ⟨d,dir,rfl⟩ w child
    obtain ⟨i,live,folder,at_⟩ := (mem_subfolders dir).mp child
    by_cases made : v.Folder ⟨d,i⟩
    · obtain ⟨e,dirE,atE⟩ := made
      obtain ⟨notRoot,link⟩ := linked.link intact live dirE atE
      have less := falls (cellNumber e) (linked.rooted e dirE) fun same => notRoot (cellNumber_injective same)
      rw [link,← atE,at_] at less
      exact ⟨⟨e,dirE,at_.symm.trans atE⟩,less⟩
    · exact absurd ⟨live,folder,made⟩ (unmarked ⟨d,i⟩)
  have bounded : ∀ w ∈ v.clusters, rank w ≤ Finset.univ.sup fun d : Cell => rank (cellNumber d) := by
    rintro _ ⟨d,_,rfl⟩
    exact Finset.le_sup (f := fun d : Cell => rank (cellNumber d)) (Finset.mem_univ d)
  have narrow : ∀ w, (subfolders v.driver w).length ≤ slots.length := by
    intro w
    rw [subfolders,queuedFrom,List.length_map]
    exact List.length_filter_le _ _
  refine Served.exists closed bounded narrow fun w waiting => ?_
  exact ⟨2,intact.root,List.mem_singleton.mp waiting⟩

theorem walk_unmarked_length (intact : Intact v) (linked : Linked v) (unmarked : ∀ y, ¬ v.Stale y)
    (walk : Served (subfolders v.driver) [ROOT_CLUSTER_NUMBER] served) : served.length = v.dirs.ncard := by
  have apart : ∀ w, ¬ v.Astray w := fun w ⟨y,stale,_⟩ => unmarked y stale
  have inDirs : ∀ w, w ∈ served ↔ w ∈ Set.image cellNumber v.dirs := by
    intro w
    constructor
    · intro member
      obtain ⟨d,dir,same⟩ := (served_cases intact walk member).resolve_right (apart w)
      exact ⟨d,dir,same.symm⟩
    · rintro ⟨d,dir,rfl⟩
      exact served_of_dir intact linked walk dir
  have distinct : served.Nodup := by
    refine List.nodup_iff_count_le_one.mpr fun w => ?_
    by_cases member : w ∈ served
    · obtain ⟨d,dir,rfl⟩ := (inDirs w).mp member
      exact (count_dir intact linked walk dir (apart _)).le
    · rw [List.count_eq_zero_of_not_mem member]
      exact Nat.zero_le _
  rw [← List.toFinset_card_of_nodup distinct,← Set.ncard_coe_finset,
    ← Set.ncard_image_of_injective v.dirs cellNumber_injective]
  congr 1
  ext w
  simpa using inDirs w

-- There find needs no more than a queue for the directories and a result for the matches.
theorem findFits_unmarked (intact : Intact v) (linked : Linked v) (unmarked : ∀ y, ¬ v.Stale y) (n_res : Nat) :
    FindFits v name ext n_res ↔ v.dirs.ncard ≤ queueSize ∧
      ((∃ w, v.Matches name ext w) → n_res + {w | v.Matches name ext w}.ncard ≤ resultSize) := by
  constructor
  · intro fits
    obtain ⟨served,walk,short⟩ := fits.queued
    exact ⟨walk_unmarked_length intact linked unmarked walk ▸ short,fits.room⟩
  · rintro ⟨few,room⟩
    obtain ⟨served,walk⟩ := walk_unmarked intact linked unmarked
    exact ⟨⟨served,walk,walk_unmarked_length intact linked unmarked walk ▸ few⟩,
      fun w ⟨y,stale,_⟩ => absurd stale (unmarked y),room⟩

end exact

-- And what the condition is where no file has the slot of a folder.
theorem find_exact {s : DriverState} {history : List (Transition Volume FsAction)} {v : Volume}
    (run : Run Volume.AddressedStep (formatted s) history v) (clear : ∀ t ∈ history, t.action.Clear t.before)
    {name : Name} {ext : Ext} (visible : ¬ (name = (fun _ => 0) ∧ ext = fun _ => 0)) (result : List Word) :
    (v.Finds name ext result ↔ FindFits v name ext result.length) ∧ ((∀ y, ¬ v.Stale y) →
      (FindFits v name ext result.length ↔ v.dirs.ncard ≤ queueSize ∧
        ((∃ w, v.Matches name ext w) → result.length + {w | v.Matches name ext w}.ncard ≤ resultSize))) := by
  have kept : ∀ (v : Volume) (a : FsAction) (v' : Volume), Intact v ∧ Linked v → a.Clear v → v.AddressedStep a v' →
      Intact v' ∧ Linked v' := by
    rintro v a v' ⟨intact,linked⟩ met step
    exact ⟨ClearStep.intact intact ⟨met,step⟩,ClearStep.linked intact linked ⟨met,step⟩⟩
  obtain ⟨intact,linked⟩ := Run.invariant_of ⟨formatted_intact s,formatted_linked s⟩ kept run clear
  exact ⟨finds_exact intact linked visible result,
    fun unmarked => findFits_unmarked intact linked unmarked result.length⟩

def letterName (letter : Char) : Name := fun i => if i.val = 0 then BitVec.ofNat 8 letter.toNat else 0
def noExt : Ext := fun _ => 0

-- Two folders of the root, one of which is named by find's request.
def siblingFolders : List FsAction := [.write blankMemory (rootRequest 'A' 0),.write blankMemory (rootRequest 'B' 0)]

theorem siblingFolders_named : ∀ a ∈ siblingFolders,
    a.request.parent_cluster_number = ROOT_CLUSTER_NUMBER ∧ a.request.Named := by
  intro a member
  simp only [siblingFolders,List.mem_cons,List.not_mem_nil,or_false] at member
  rcases member with rfl | rfl <;> exact ⟨rfl,rootRequest_named _ _ (by decide)⟩

theorem find_exact_siblings : ∃ history v, Run Volume.AddressedStep (formatted blankDrive) history v ∧
    history.map Transition.action = siblingFolders ∧
    (v.Finds (letterName 'A') noExt [] ↔ FindFits v (letterName 'A') noExt 0) := by
  obtain ⟨history,v,run,actions,_⟩ := rootRun (formatted_intact blankDrive) siblingFolders siblingFolders_named
  have clear : ∀ t ∈ history, t.action.Clear t.before := fun t member =>
    FsAction.clear_of_named (run.recorded member).1.1
  have visible : ¬ (letterName 'A' = (fun _ => 0) ∧ noExt = fun _ => 0) := fun zero => absurd (congrFun zero.1 0) (by decide)
  exact ⟨history,v,run.mono fun _ _ _ step => step.2,actions,
    (find_exact (run.mono fun _ _ _ step => step.2) clear visible []).1⟩

-- A file in a slot that a folder had: its bytes from 64 on name an entry C.
def posingTable : Memory := fun a => if a = 64 then BitVec.ofNat 8 'C'.toNat else 0

def staleFile : List FsAction := vacatedSlot ++ [.write posingTable (rootRequest 'B' 2048)]

-- find C reports cluster 3, which is that file's.
theorem staleFile_reported : ∃ history v, Run Volume.NamedStep (formatted blankDrive) history v ∧
    history.map Transition.action = staleFile ∧ find v.driver (letterName 'C') noExt [] = some [3] ∧
    ¬ v.Finds (letterName 'C') noExt [] := by
  obtain ⟨history,v,run,actions,replayed⟩ := rootRun (formatted_intact blankDrive) staleFile (by
    intro a member
    rcases List.mem_append.mp member with before | last
    · exact vacatedSlot_named a before
    · cases List.mem_singleton.mp last
      exact ⟨rfl,rootRequest_named _ _ (by decide)⟩)
  have intact := Run.intact (run.mono fun _ _ _ => NamedStep.clear)
  have ran : (replay (create_fat32 blankDrive) staleFile).any (fun s =>
      find s (letterName 'C') noExt [] = some [3] ∧ (s.table 2 2).user_attribute = UATTR_NOT_EMPTY ∧
        (s.table 2 2).cluster = 3 ∧ (s.table 2 2).filesize ≠ 0) = true := by decide +kernel
  rw [show replay (create_fat32 blankDrive) staleFile = some v.driver from replayed,Option.any_some,
    decide_eq_true_eq] at ran
  obtain ⟨answer,used,at_,size⟩ := ran
  refine ⟨history,v,run,actions,answer,?_⟩
  rintro ⟨found,again,_,all⟩
  rw [answer] at again
  cases again
  obtain ⟨x,live,_,same⟩ := (all 3).mp (by simp)
  have live2 : v.Live ⟨2,2⟩ := ⟨⟨intact.root,by decide⟩,used⟩
  exact size (intact.folder ⟨2,2⟩ live2 x.dir live.1.1 (at_.trans same)).2

end Sosis.Fat32
