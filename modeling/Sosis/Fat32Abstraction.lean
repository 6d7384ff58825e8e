import Sosis.Fat32Contents
import Sosis.FolderStore

-- The driver as a folder store: what its cells and slots stand for, and that every
-- request on an existing directory answers and changes what the store says.
namespace Sosis.Fat32
open ByteRecords FirstFit LinkedCells TransitionRuns FolderStore

abbrev FileName := Name × Ext
abbrev FileStore := Store Cell FileName Byte

-- 62 slots, the two of the table itself left out, and clusters as blocks.
def fatMedium : Medium := ⟨DIRECTORY_ENTRY_COUNT-2,CLUSTER_SIZE,by decide⟩

theorem fatMedium_blocks (size : Nat) : fatMedium.blocks size = ceil size := (ceil_eq size).symm

def emptyStore : FileStore := ⟨{2},fun _ _ => none,∅,509⟩

def parentCell (w : Word) : Cell := ⟨w.toNat % CLUSTER_MAP_SIZE,Nat.mod_lt _ (by decide)⟩

theorem parentCell_number (d : Cell) : parentCell (cellNumber d) = d := by
  apply Fin.ext
  simp only [parentCell,cellNumber_toNat]
  exact Nat.mod_eq_of_lt d.isLt

def FAT32DriverRequest.fileName (request : FAT32DriverRequest) : FileName := (request.name,request.ext)

def DirectoryEntry.fileName (e : DirectoryEntry) : FileName := (e.name,e.ext)

def submitted (memory : Memory) (request : FAT32DriverRequest) : List Byte :=
  List.ofFn fun k : Fin request.buffer_size.toNat => memory.at request.buf k

theorem submitted_length (memory : Memory) (request : FAT32DriverRequest) :
    (submitted memory request).length = request.buffer_size.toNat := List.length_ofFn

theorem submitted_at (memory : Memory) (request : FAT32DriverRequest) {k : Nat}
    (inside : k < (submitted memory request).length) : (submitted memory request)[k] = memory.at request.buf k := by
  unfold submitted
  exact List.getElem_ofFn _

def FsAction.meant : FsAction → Request Cell FileName Byte
  | .write memory request => .put (parentCell request.parent_cluster_number) request.fileName (submitted memory request)
  | .delete request => .remove (parentCell request.parent_cluster_number) request.fileName

-- The codes of the two system calls.
def FsAction.answer : FsAction → Int → Answer
  | .write .., code => if code = 0 then .done else if code = 1 then .taken else .full
  | .delete _, code => if code = 0 then .done else if code = 1 then .absent else .occupied

def meaning (a : FsAction × Int) : Request Cell FileName Byte × Answer := (a.1.meant,a.1.answer a.2)

-- A step together with the code the caller gets.
def Volume.Answered (v : Volume) (a : FsAction × Int) (v' : Volume) : Prop :=
  v.Clear a.1.request ∧ v.Addressed a.1.request ∧ v.respond a.1 = some (a.2,v')

-- The chain of the entry is as long as `content` needs and begins with it.
def Volume.Stores (v : Volume) (x : Place) (content : List Byte) : Prop :=
  ∃ xs, v.Chained x xs ∧ xs.length = ceil content.length ∧ ∀ (k : Nat) (inside : k < content.length),
    ∃ c, xs[k / CLUSTER_SIZE]? = some c ∧ v.driver.cluster c (k % CLUSTER_SIZE) = content[k]

def Volume.Represents (v : Volume) (x : Place) : Item Cell Byte → Prop
  | .folder e => e ∈ v.dirs ∧ (v.entry x).cluster = cellNumber e
  | .file content => ¬ v.Folder x ∧ (v.entry x).attr ≠ ATTR_SUBDIRECTORY ∧ (v.entry x).filesize.toNat = content.length ∧
      v.Stores x content
  | .masked size blocks => ¬ v.Folder x ∧ (v.entry x).attr = ATTR_SUBDIRECTORY ∧ (v.entry x).filesize.toNat = size ∧
      ∃ xs, v.Chained x xs ∧ xs.length = blocks
  | .cut size content => ¬ v.Folder x ∧ (v.entry x).attr ≠ ATTR_SUBDIRECTORY ∧ (v.entry x).filesize.toNat = size ∧
      content.length < size ∧ v.Stores x content

structure Refines (v : Volume) (st : FileStore) : Prop where
  intact : Intact v
  folders : st.folders = v.dirs
  held : ∀ d n item, st.entry d n = some item →
    ∃ i, v.Live ⟨d,i⟩ ∧ (v.entry ⟨d,i⟩).fileName = n ∧ v.Represents ⟨d,i⟩ item
  all : ∀ x, v.Live x → st.entry x.dir (v.entry x).fileName ≠ none
  free : st.free = (freeCells v.driver.cluster_map).card
  worn : ∀ x, v.Holds x → (v.entry x).attr = ATTR_SUBDIRECTORY → x.dir ∉ st.worn → v.Live x ∧ v.Folder x

section represents
variable {v v' : Volume} {x : Place} {content : List Byte} {item : Item Cell Byte}

theorem Undisturbed.stores (h : Undisturbed v v' x) (intact : Intact v) (live : v.Live x) (file : ¬ v.Folder x)
    (stores : v.Stores x content) : v'.Stores x content := by
  obtain ⟨xs,chain,length,bytes⟩ := stores
  refine ⟨xs,h.chain xs chain,length,fun k inside => ?_⟩
  obtain ⟨c,at_,byte⟩ := bytes k inside
  refine ⟨c,at_,?_⟩
  have member := List.mem_of_getElem? at_
  rw [h.clusters xs chain c member fun dir => file ⟨c,dir,(intact.dir_on_chain live chain dir member).1⟩]
  exact byte

theorem Undisturbed.represents (h : Undisturbed v v' x) (intact : Intact v) (live : v.Live x)
    (folder : v'.Folder x ↔ v.Folder x) (represents : v.Represents x item) : v'.Represents x item := by
  cases item with
  | folder e =>
    obtain ⟨dir,at_⟩ := represents
    obtain ⟨e',dir',at'⟩ := folder.mpr ⟨e,dir,at_⟩
    rw [h.entry] at at'
    cases cellNumber_injective (at_.symm.trans at')
    exact ⟨dir',by rw [h.entry]; exact at_⟩
  | file content =>
    obtain ⟨file,attr,size,stores⟩ := represents
    exact ⟨fun is => file (folder.mp is),by rwa [h.entry],by rwa [h.entry],h.stores intact live file stores⟩
  | masked size blocks =>
    obtain ⟨file,attr,size,xs,chain,length⟩ := represents
    exact ⟨fun is => file (folder.mp is),by rwa [h.entry],by rwa [h.entry],xs,h.chain xs chain,length⟩
  | cut size content =>
    obtain ⟨file,attr,size,less,stores⟩ := represents
    exact ⟨fun is => file (folder.mp is),by rwa [h.entry],by rwa [h.entry],less,h.stores intact live file stores⟩

-- Only a folder is represented as one.
theorem Volume.Represents.folder_iff (represents : v.Represents x item) : v.Folder x ↔ ∃ e, item = .folder e := by
  cases item with
  | folder e => exact iff_of_true ⟨e,represents⟩ ⟨e,rfl⟩
  | file | masked | cut => exact iff_of_false represents.1 (by simp)

end represents

section refines
variable {v v' : Volume} {st : FileStore} {d : Cell} {n : FileName} {item : Item Cell Byte}

theorem fileName_iff {e : DirectoryEntry} {request : FAT32DriverRequest} :
    e.fileName = request.fileName ↔ e.Named request.name request.ext := Prod.ext_iff

-- The live slot of a name is the only one.
theorem Refines.at_ (h : Refines v st) {x : Place} (live : v.Live x) (here : st.entry x.dir (v.entry x).fileName = some item) :
    v.Represents x item := by
  obtain ⟨i,liveI,name,represents⟩ := h.held _ _ _ here
  have same := h.intact.unique ⟨x.dir,i⟩ x liveI live rfl (Prod.ext_iff.mp name)
  rw [← same]
  exact represents

theorem Refines.vacant_iff (h : Refines v st) {request : FAT32DriverRequest} (dir : d ∈ v.dirs) (clear : v.Clear request)
    (parent : request.parent_cluster_number = cellNumber d) :
    st.entry d request.fileName = none ↔ findEntry (v.driver.table d) request.name request.ext = none := by
  constructor
  · intro vacant
    cases found : findEntry (v.driver.table d) request.name request.ext with
    | none => rfl
    | some i =>
      have live := Clear.live dir parent h.intact clear found
      refine absurd vacant ?_
      rw [← fileName_iff.mpr (findEntry_some.mp found).2.1]
      exact h.all _ live
  · intro absent
    cases here : st.entry d request.fileName with
    | none => rfl
    | some item =>
      obtain ⟨i,live,name,_⟩ := h.held _ _ _ here
      exact absurd (fileName_iff.mp name) (findEntry_none.mp absent i live.1.2)

theorem Refines.found (h : Refines v st) {request : FAT32DriverRequest} (here : st.entry d request.fileName = some item) :
    ∃ i, v.Live ⟨d,i⟩ ∧ (v.entry ⟨d,i⟩).Named request.name request.ext ∧ v.Represents ⟨d,i⟩ item ∧
      findEntry (v.driver.table d) request.name request.ext = some i := by
  obtain ⟨i,live,name,represents⟩ := h.held _ _ _ here
  have named : (v.entry ⟨d,i⟩).Named request.name request.ext := fileName_iff.mp name
  exact ⟨i,live,named,represents,@Intact.find_live v ⟨d,i⟩ request h.intact live named⟩

-- The names of a folder are as many as its live slots.
theorem Refines.names_ncard (h : Refines v st) (d : Cell) : (st.names d).ncard = {i | v.Live ⟨d,i⟩}.ncard := by
  have names : st.names d = (fun i => (v.entry ⟨d,i⟩).fileName) '' {i | v.Live ⟨d,i⟩} := by
    ext n
    constructor
    · intro here
      obtain ⟨item,held⟩ := Option.ne_none_iff_exists'.mp here
      obtain ⟨i,live,name,_⟩ := h.held d n item held
      exact ⟨i,live,name⟩
    · rintro ⟨i,live,rfl⟩
      exact h.all ⟨d,i⟩ live
  have distinct : Set.InjOn (fun i => (v.entry ⟨d,i⟩).fileName) {i | v.Live ⟨d,i⟩} := by
    intro i live j live' same
    exact congrArg Place.index (h.intact.unique ⟨d,i⟩ ⟨d,j⟩ live live' rfl (Prod.ext_iff.mp same))
  rw [names,distinct.ncard_image]

theorem slots_ncard : {i : Fin DIRECTORY_ENTRY_COUNT | 2 ≤ i.val}.ncard = fatMedium.room := by
  rw [Set.ncard_eq_toFinset_card']
  decide

theorem Refines.crowded (h : Refines v st) (dir : d ∈ v.dirs) (full : findIdxEmptyEntry (v.driver.table d) = none) :
    (st.names d).ncard = fatMedium.room := by
  rw [h.names_ncard,← slots_ncard]
  congr 1
  ext i
  refine ⟨fun live => live.1.2,fun low => ⟨⟨dir,low⟩,?_⟩⟩
  have used : (v.driver.table d i).user_attribute = UATTR_NOT_EMPTY := by simpa using firstFit_none.mp full i low
  exact used

theorem Refines.roomy (h : Refines v st) {i : Fin DIRECTORY_ENTRY_COUNT}
    (vacant : findIdxEmptyEntry (v.driver.table d) = some i) : (st.names d).ncard < fatMedium.room := by
  rw [h.names_ncard,← slots_ncard]
  obtain ⟨low,unused,_⟩ := findIdxEmptyEntry_some.mp vacant
  refine Set.ncard_lt_ncard ⟨fun j live => live.1.2,fun all => ?_⟩ (Set.toFinite _)
  exact unused (all low).2

theorem Refines.empty_iff (h : Refines v st) (dir : d ∈ v.dirs) : isEmptyDir (v.driver.table d) = true ↔ st.names d = ∅ := by
  rw [isEmptyDir_iff,Set.eq_empty_iff_forall_notMem]
  constructor
  · intro empty n here
    obtain ⟨item,held⟩ := Option.ne_none_iff_exists'.mp here
    obtain ⟨i,live,_⟩ := h.held d n item held
    exact empty i live.1.2 live.2
  · intro empty i low used
    exact empty _ (h.all ⟨d,i⟩ ⟨⟨dir,low⟩,used⟩)

theorem Refines.free_zero (h : Refines v st) : st.free = 0 ↔ findEmptySpace v.driver.cluster_map = none := by
  rw [h.free,Finset.card_eq_zero,findEmptySpace_none,Finset.eq_empty_iff_forall_notMem]
  simp only [mem_freeCells]

end refines

section wrote
variable {v v' : Volume} {st : FileStore} {memory : Memory} {request : FAT32DriverRequest} {d c : Cell}
  {i : Fin DIRECTORY_ENTRY_COUNT} {rest : List Cell} (h : Wrote v v' memory request d i c rest)
include h

-- A write that stops short has taken every free cell.
theorem Wrote.short_takes_all (data : request.buffer_size ≠ 0) (ran : write v.driver memory request = some (-1,v'.driver)) :
    (c :: rest).length = (freeCells v.driver.cluster_map).card := by
  have w := h.writable
  have room : findEmptySpace (enteredState v.driver request i c).cluster_map = some c := w.room
  have loop : (writeLoop (memory.at request.buf) (ceil request.buffer_size.toNat) 0 none (enteredState v.driver request i c)).map
      (fun turn => if turn.1 then ((0 : Int),turn.2.writeFat) else (-1,turn.2)) = some (-1,v'.driver) := by
    simp only [write,w.directory,w.absent,w.vacant,w.room,ne_eq,not_true_eq_false,if_false,if_neg data] at ran
    exact ran
  obtain ⟨⟨done,s'⟩,ended,same⟩ := Option.map_eq_some_iff.mp loop
  cases done with
  | true => simp at same
  | false =>
    obtain rfl : s' = v'.driver := by simpa using same
    obtain ⟨cs,appended,starts,_,short⟩ := writeLoop_parts (by simp) ended
    obtain ⟨less,all⟩ := short rfl
    have first : cs.head? = some c := (starts (Nat.zero_lt_of_lt less)).trans room
    have chain := h.inserted.chain
    unfold Volume.Chained at chain
    rw [h.entry,addEntry_cluster] at chain
    have start : startOf cs = cellNumber c := by
      cases cs with
      | nil => simp at first
      | cons b tail => exact congrArg cellNumber (Option.some.inj first)
    have same := Chain.unique cells_pointers chain (start ▸ appended.chain)
    have left : freeCells v'.driver.cluster_map = ∅ := by
      refine Finset.eq_empty_of_forall_notMem fun b free => ?_
      have zero := mem_freeCells.mp free
      by_cases member : b ∈ c :: rest
      · exact h.taken b member zero
      · rw [h.inserted.mapFrame b member] at zero
        exact member (same ▸ all b zero)
    have counted := h.free_card
    rw [left,Finset.card_empty,Nat.zero_add] at counted
    exact counted

-- The data of the clusters the write filled, read as one list.
theorem Wrote.stores (data : request.buffer_size ≠ 0) {content : List Byte} (length : (c :: rest).length = ceil content.length)
    (prefixed : ∀ (k : Nat) (inside : k < content.length), content[k] = memory.at request.buf k) :
    v'.Stores ⟨d,i⟩ content := by
  refine ⟨c :: rest,h.inserted.chain,length,fun k inside => ?_⟩
  rw [ceil_eq] at length
  have place : k / CLUSTER_SIZE < (c :: rest).length := by
    rw [length]
    simp only [CLUSTER_SIZE]
    omega
  refine ⟨(c :: rest)[k / CLUSTER_SIZE],List.getElem?_eq_getElem place,?_⟩
  rw [h.stored data _ place,prefixed k inside]
  have within : k % CLUSTER_SIZE < CLUSTER_SIZE := Nat.mod_lt _ (by decide)
  simp only [clip,if_pos within,drop_apply]
  rw [Nat.mul_comm,Nat.div_add_mod]

theorem Refines.inserted (refines : Refines v st) {item : Item Cell Byte} {worn : Set Cell} {folders : Set Cell} {free : Nat}
    (represents : v'.Represents ⟨d,i⟩ item) (dirs : folders = v'.dirs)
    (left : free = (freeCells v'.driver.cluster_map).card)
    (same : ∀ x ∈ v.dirs, x ∈ worn ↔ x ∈ st.worn)
    (marked : (v'.entry ⟨d,i⟩).attr = ATTR_SUBDIRECTORY → d ∉ worn → v'.Folder ⟨d,i⟩) :
    Refines v' {st with folders := folders, entry := st.set d request.fileName (some item), worn := worn, free := free} := by
  have intact := refines.intact
  have inserted := h.inserted
  refine ⟨inserted.intact intact,dirs,fun d' n' item' here => ?_,fun y live => ?_,left,fun y holds attr whole => ?_⟩
  · by_cases name : d' = d ∧ n' = request.fileName
    · obtain ⟨rfl,rfl⟩ := name
      obtain rfl : item = item' := Option.some.inj ((Medium.set_here _).symm.trans here)
      exact ⟨i,inserted.live_new,fileName_iff.mpr h.named_after,represents⟩
    · obtain ⟨j,live,name',old⟩ := refines.held d' n' item' ((Medium.set_other _ name).symm.trans here)
      have undisturbed := inserted.undisturbed intact live
      refine ⟨j,undisturbed.live,by rw [undisturbed.entry]; exact name',?_⟩
      exact undisturbed.represents intact live (inserted.folder_old intact live) old
  · rcases inserted.live_cases intact live with rfl | ⟨other,old,kept⟩
    · rw [fileName_iff.mpr h.named_after]
      simp [Medium.set_here]
    · rw [kept]
      refine fun none => refines.all y old ((Medium.set_other _ fun name => other ?_).symm.trans none)
      obtain ⟨slotDir,name⟩ := name
      have named := fileName_iff.mp name
      have absent : ¬ (v.entry ⟨d,y.index⟩).Named (v'.entry ⟨d,i⟩).name (v'.entry ⟨d,i⟩).ext := inserted.absent y.index old.1.2
      rw [show (⟨d,y.index⟩ : Place) = y by rw [← slotDir]] at absent
      exact absurd ⟨named.1.trans h.named_after.1.symm,named.2.trans h.named_after.2.symm⟩ absent
  · by_cases here : y = ⟨d,i⟩
    · subst here
      exact ⟨inserted.live_new,marked attr whole⟩
    · rcases h.dirs_cases holds.1 with old | ⟨_,_,clean⟩
      · have kept := inserted.entry_frame intact.steady ⟨old,holds.2⟩ here
        obtain ⟨live,folder⟩ := refines.worn y ⟨old,holds.2⟩ (by rw [← kept]; exact attr) fun in_ => whole ((same _ old).mpr in_)
        exact ⟨(inserted.live_old intact live).1,(inserted.folder_old intact live).mpr folder⟩
      · rw [show v'.entry y = .zero from clean y.index holds.2] at attr
        exact absurd attr (by decide)

end wrote

section deleted
variable {v v' : Volume} {st : FileStore} {request : FAT32DriverRequest} {d c : Cell} {i : Fin DIRECTORY_ENTRY_COUNT}
  {rest gone : List Cell} (h : Deleted v v' request d i c rest gone)
include h

theorem Refines.deleted (refines : Refines v st) {worn : Set Cell} {folders : Set Cell} {free : Nat}
    (table : v'.driver.table d = deleteEntry (v.driver.table d) i) (dirs : folders = v'.dirs)
    (left : free = (freeCells v'.driver.cluster_map).card) (grows : st.worn ⊆ worn)
    (marked : (v.entry ⟨d,i⟩).attr = ATTR_SUBDIRECTORY → d ∈ worn) :
    Refines v' {st with folders := folders, entry := st.set d request.fileName none, worn := worn, free := free} := by
  have intact := refines.intact
  have removed := h.removed
  have named : (v.entry ⟨d,i⟩).fileName = request.fileName := fileName_iff.mpr (findEntry_some.mp h.found).2.1
  refine ⟨removed.intact intact,dirs,fun d' n' item' here => ?_,fun y live => ?_,left,fun y holds attr whole => ?_⟩
  · have other : ¬ (d' = d ∧ n' = request.fileName) := by
      rintro ⟨rfl,rfl⟩
      exact absurd ((Medium.set_here _).symm.trans here) (by simp)
    obtain ⟨j,live,name,old⟩ := refines.held d' n' item' ((Medium.set_other _ other).symm.trans here)
    have elsewhere : (⟨d',j⟩ : Place) ≠ ⟨d,i⟩ := by
      intro same
      cases same
      exact other ⟨rfl,name.symm.trans named⟩
    have undisturbed := removed.undisturbed intact live elsewhere
    refine ⟨j,undisturbed.live,by rw [undisturbed.entry]; exact name,?_⟩
    exact undisturbed.represents intact live (removed.folder_old intact live elsewhere) old
  · obtain ⟨other,old,kept⟩ := removed.live_cases intact live
    rw [kept]
    refine fun none => refines.all y old ((Medium.set_other _ fun name => other ?_).symm.trans none)
    exact intact.unique y ⟨d,i⟩ old removed.live name.1 (Prod.ext_iff.mp (name.2.trans named.symm))
  · by_cases here : y = ⟨d,i⟩
    · subst here
      have kept := deleteEntry_attr (v.driver.table d) i i
      rw [← table] at kept
      exact absurd (marked (kept.symm.trans attr)) whole
    · have kept := removed.entry_frame intact holds here
      obtain ⟨live,folder⟩ := refines.worn y ⟨(removed.dir_before holds.1).1,holds.2⟩ (by rw [← kept]; exact attr)
        fun in_ => whole (grows in_)
      exact ⟨(removed.live_old intact live here).1,(removed.folder_old intact live here).mpr folder⟩

end deleted

end Sosis.Fat32
