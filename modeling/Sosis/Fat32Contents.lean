import Sosis.Fat32Lookup
import Sosis.Fat32ReadBack
import Sosis.Fat32WellFormed

-- What a caller of read can tell about a file, and what a delete and a write of the
-- same name do to it one after the other.
namespace Sosis.Fat32
open ByteRecords FirstFit LinkedCells TransitionRuns

-- Every buffer of enough size, wherever it is and whatever it held, receives `data`.
def Volume.Contents (v : Volume) (x : Place) (data : Bytes) : Prop :=
  ∀ (request : FAT32DriverRequest) (reader : Memory), request.parent_cluster_number = cellNumber x.dir →
    (v.entry x).Named request.name request.ext → (v.entry x).filesize ≤ request.buffer_size →
    ∃ filled, read v.driver reader request = some (0,filled) ∧
      ∀ k < (v.entry x).filesize.toNat, filled.at request.buf k = data k

def Volume.requestFor (v : Volume) (x : Place) (buf buffer_size : Word) : FAT32DriverRequest :=
  ⟨buf,(v.entry x).name,(v.entry x).ext,cellNumber x.dir,buffer_size⟩

section contents
variable {v v' : Volume} {x : Place} {data data' : Bytes}

-- What is read is not marked as a directory, as long as the name leads to it.
theorem Volume.Contents.file (contents : v.Contents x data)
    (found : findEntry (v.driver.table x.dir) (v.entry x).name (v.entry x).ext = some x.index) :
    (v.entry x).attr ≠ ATTR_SUBDIRECTORY := by
  intro folder
  have marked : (v.driver.table x.dir x.index).attr = ATTR_SUBDIRECTORY := folder
  obtain ⟨filled,ran,_⟩ := contents (v.requestFor x 0 (v.entry x).filesize) (fun _ => 0) rfl ⟨rfl,rfl⟩ (BitVec.le_refl _)
  simp only [read,Volume.requestFor,DriverState.directory_cell,found,if_pos marked] at ran
  split at ran <;> cases ran

theorem Volume.Contents.congr (contents : v.Contents x data)
    (same : ∀ k < (v.entry x).filesize.toNat, data k = data' k) : v.Contents x data' := by
  intro request reader parent named enough
  obtain ⟨filled,ran,bytes⟩ := contents request reader parent named enough
  exact ⟨filled,ran,fun k inside => (bytes k inside).trans (same k inside)⟩

theorem Volume.Contents.unique (contents : v.Contents x data) (other : v.Contents x data') {k : Nat}
    (inside : k < (v.entry x).filesize.toNat) : data k = data' k := by
  obtain ⟨filled,ran,bytes⟩ := contents (v.requestFor x 0 (v.entry x).filesize) (fun _ => 0) rfl ⟨rfl,rfl⟩ (BitVec.le_refl _)
  obtain ⟨filled',ran',bytes'⟩ := other (v.requestFor x 0 (v.entry x).filesize) (fun _ => 0) rfl ⟨rfl,rfl⟩ (BitVec.le_refl _)
  cases ran.symm.trans ran'
  exact (bytes k inside).symm.trans (bytes' k inside)

theorem Undisturbed.contents (h : Undisturbed v v' x) (intact : Intact v) (intact' : Intact v') (live : v.Live x)
    (contents : v.Contents x data) : v'.Contents x data := by
  intro request reader parent named enough
  rw [h.entry] at named enough ⊢
  rw [h.read intact intact' live parent named reader]
  exact contents request reader parent named enough

theorem Undisturbed.contents_before (h : Undisturbed v v' x) (intact : Intact v) (intact' : Intact v') (live : v.Live x)
    (contents : v'.Contents x data) : v.Contents x data := by
  intro request reader parent named enough
  rw [← h.entry] at named enough ⊢
  rw [← h.read intact intact' live parent (h.entry ▸ named) reader]
  exact contents request reader parent named enough

theorem Undisturbed.trans {w : Volume} (first : Undisturbed v v' x) (second : Undisturbed v' w x)
    (dirs : v'.dirs ⊆ v.dirs) : Undisturbed v w x := by
  refine ⟨second.live,second.entry.trans first.entry,fun xs chain => second.chain xs (first.chain xs chain),?_⟩
  intro xs chain c member notDir
  exact (second.clusters xs (first.chain xs chain) c member fun dir => notDir (dirs dir)).trans
    (first.clusters xs chain c member notDir)

-- A file that is not marked as a directory can be read as far as its chain goes.
theorem Intact.readable (intact : Intact v) (live : v.Live x) (file : (v.entry x).attr ≠ ATTR_SUBDIRECTORY)
    {xs : List Cell} (chain : v.Chained x xs) (long : (v.entry x).filesize.toNat ≤ CLUSTER_SIZE * xs.length) :
    ∃ data, v.Contents x data := by
  refine ⟨fun k => if inside : k / CLUSTER_SIZE < xs.length then v.driver.cluster xs[k / CLUSTER_SIZE] (k % CLUSTER_SIZE) else 0,
    fun request reader parent named enough => ⟨storeClusters v.driver reader request.buf xs,?_,fun k inside => ?_⟩⟩
  · rw [intact.read_live live parent named chain,if_neg (BitVec.not_lt.mpr enough),if_neg file]
  · have place : k / CLUSTER_SIZE < xs.length := by
      simp only [CLUSTER_SIZE] at *
      omega
    rw [storeClusters_at chain _ _ (Nat.lt_trans inside (v.entry x).filesize.isLt)]
    simp only [dif_pos place]

theorem Intact.live_of_named (intact : Intact v) (holds : v.Holds x) (named : ¬ (v.entry x).Unnamed) : v.Live x := by
  by_contra notLive
  exact named (intact.dead x holds notLive)

theorem Undisturbed.refl (live : v.Live x) : Undisturbed v v x := ⟨live,rfl,fun _ => id,fun _ _ _ _ _ => rfl⟩

end contents

-- `q` is in `w'` what `p` was in `w`: a file of that name, size and content.
structure Carried (w w' : Volume) (p q : Place) : Prop where
  live : w'.Live q
  file : ¬ w'.Folder q
  named : (w'.entry q).Named (w.entry p).name (w.entry p).ext
  size : (w'.entry q).filesize = (w.entry p).filesize
  bytes : ∀ data, w.Contents p data → w'.Contents q data

theorem Undisturbed.file {w w' : Volume} {p : Place} (h : Undisturbed w w' p) (dirs : w'.dirs ⊆ w.dirs) (file : ¬ w.Folder p) :
    ¬ w'.Folder p := by
  rintro ⟨d,dir,at_⟩
  exact file ⟨d,dirs dir,h.entry ▸ at_⟩

theorem Undisturbed.carried {w w' : Volume} {p : Place} (h : Undisturbed w w' p) (intact : Intact w) (intact' : Intact w')
    (dirs : w'.dirs ⊆ w.dirs) (live : w.Live p) (file : ¬ w.Folder p) : Carried w w' p p :=
  ⟨h.live,h.file dirs file,by rw [h.entry]; exact ⟨rfl,rfl⟩,by rw [h.entry],
    fun _ => h.contents intact intact' live⟩

theorem Carried.trans {v w w' : Volume} {p q r : Place} (first : Carried v w p q) (second : Carried w w' q r) :
    Carried v w' p r :=
  ⟨second.live,second.file,⟨second.named.1.trans first.named.1,second.named.2.trans first.named.2⟩,
    second.size.trans first.size,fun data contents => second.bytes data (first.bytes data contents)⟩

section wrote
variable {v v' : Volume} {memory : Memory} {request : FAT32DriverRequest} {d c : Cell}
  {i : Fin DIRECTORY_ENTRY_COUNT} {rest : List Cell} {data : Bytes}

theorem Wrote.size_after (h : Wrote v v' memory request d i c rest) : (v'.entry ⟨d,i⟩).filesize = request.buffer_size := by
  rw [h.entry,addEntry_here]

theorem Wrote.named_after (h : Wrote v v' memory request d i c rest) :
    (v'.entry ⟨d,i⟩).Named request.name request.ext := by
  rw [h.entry,addEntry_here]
  exact ⟨rfl,rfl⟩

-- A request that asks for the new entry differs from the one that made it in its
-- buffer at most.
theorem Wrote.request_eq (h : Wrote v v' memory request d i c rest) {other : FAT32DriverRequest}
    (parent : other.parent_cluster_number = cellNumber d) (named : (v'.entry ⟨d,i⟩).Named other.name other.ext) :
    other = {request with buf := other.buf, buffer_size := other.buffer_size} := by
  have same := h.named_after
  obtain ⟨buf,name,ext,number,size⟩ := other
  cases parent.trans h.parent.symm
  cases named.1.symm.trans same.1
  cases named.2.symm.trans same.2
  rfl

theorem Wrote.only (h : Wrote v v' memory request d i c rest) {j : Fin DIRECTORY_ENTRY_COUNT} (low : 2 ≤ j.val)
    (named : (v'.driver.table d j).Named request.name request.ext) : j = i := by
  by_contra other
  rw [h.inserted.tableFrame j other] at named
  have absent := h.writable.absent
  rw [parent_table h.parent] at absent
  exact findEntry_none.mp absent j low named

theorem Wrote.not_folder (h : Wrote v v' memory request d i c rest) (intact : Intact v) (kept : v'.dirs = v.dirs) :
    ¬ v'.Folder ⟨d,i⟩ := by
  rintro ⟨b,dir,at_⟩
  rw [h.entry,addEntry_cluster] at at_
  obtain rfl := cellNumber_injective at_
  exact intact.dir_taken (kept ▸ dir) (h.inserted.fresh c (by simp))

theorem Wrote.contents (h : Wrote v v' memory request d i c rest) (nonzero : request.buffer_size ≠ 0)
    (complete : (c :: rest).length = ceil request.buffer_size.toNat)
    (file : (v.driver.table d i).attr ≠ ATTR_SUBDIRECTORY) : v'.Contents ⟨d,i⟩ (memory.at request.buf) := by
  intro other reader parent named enough
  rw [h.size_after] at enough ⊢
  obtain ⟨filled,ran,bytes⟩ := (h.readsBack_exact nonzero complete).mpr file reader other.buf other.buffer_size enough
  refine ⟨filled,?_,bytes⟩
  rw [h.request_eq parent named]
  exact ran

-- Where the bytes past the chain would be, a reader finds what its buffer held.
theorem Wrote.contents_complete (h : Wrote v v' memory request d i c rest) (nonzero : request.buffer_size ≠ 0)
    (short : (c :: rest).length ≤ ceil request.buffer_size.toNat) (contents : v'.Contents ⟨d,i⟩ data) :
    (v.driver.table d i).attr ≠ ATTR_SUBDIRECTORY ∧ (c :: rest).length = ceil request.buffer_size.toNat ∧
      data 0 = memory.at request.buf 0 := by
  have size := h.size_after
  have positive : 0 < request.buffer_size.toNat :=
    Nat.pos_of_ne_zero fun zero => nonzero (BitVec.eq_of_toNat_eq zero)
  have file : (v.driver.table d i).attr ≠ ATTR_SUBDIRECTORY := by
    intro folder
    obtain ⟨filled,ran,_⟩ := contents request memory h.parent h.named_after (by rw [size]; exact BitVec.le_refl _)
    have answer := h.read_after nonzero memory request.buf request.buffer_size (BitVec.le_refl _)
    rw [if_pos folder] at answer
    cases ran.symm.trans answer
  have bytes : ∀ (reader : Memory), ∀ k < request.buffer_size.toNat,
      (storeClusters v'.driver reader request.buf (c :: rest)).at request.buf k = data k := by
    intro reader k inside
    obtain ⟨filled,ran,bytes⟩ := contents request reader h.parent h.named_after (by rw [size]; exact BitVec.le_refl _)
    have answer := h.read_after nonzero reader request.buf request.buffer_size (BitVec.le_refl _)
    rw [if_neg file] at answer
    cases ran.symm.trans answer
    exact bytes k (by rw [size]; exact inside)
  refine ⟨file,?_,?_⟩
  · by_contra other
    have less : CLUSTER_SIZE * (c :: rest).length < request.buffer_size.toNat := by
      rw [ceil_eq] at short other
      simp only [CLUSTER_SIZE]
      omega
    have beyond : ∀ reader : Memory, (storeClusters v'.driver reader request.buf (c :: rest)).at request.buf
        (CLUSTER_SIZE * (c :: rest).length) = reader.at request.buf (CLUSTER_SIZE * (c :: rest).length) := by
      intro reader
      rw [storeClusters_at h.inserted.chain _ _ (Nat.lt_trans less request.buffer_size.isLt),
        dif_neg (by simp only [CLUSTER_SIZE]; omega)]
    have zeros := (beyond fun _ => 0).symm.trans (bytes (fun _ => 0) _ less)
    have ones := (beyond fun _ => 1).symm.trans (bytes (fun _ => 1) _ less)
    exact absurd (zeros.trans ones.symm) (show (0 : Byte) ≠ 1 by decide)
  · rw [← bytes memory 0 positive,storeClusters_at h.inserted.chain _ _ (by decide),dif_pos (by simp)]
    have stored := h.stored nonzero 0 (by simp)
    simp only [List.getElem_cons_zero] at stored
    simp only [Nat.zero_div,Nat.zero_mod,List.getElem_cons_zero,stored,clip,CLUSTER_SIZE]
    simp

theorem Wrote.free_card (h : Wrote v v' memory request d i c rest) :
    (freeCells v'.driver.cluster_map).card + (c :: rest).length = (freeCells v.driver.cluster_map).card := by
  have distinct : (c :: rest).Nodup := h.inserted.chain.nodup cells_pointers
  have cells : freeCells v'.driver.cluster_map = freeCells v.driver.cluster_map \ (c :: rest).toFinset := by
    ext b
    rw [Finset.mem_sdiff,mem_freeCells,mem_freeCells,List.mem_toFinset]
    by_cases member : b ∈ c :: rest
    · exact iff_of_false (h.taken b member) fun both => both.2 member
    · rw [h.inserted.mapFrame b member]
      simp [member]
  have within : (c :: rest).toFinset ⊆ freeCells v.driver.cluster_map := fun b member =>
    mem_freeCells.mpr (h.inserted.fresh b (List.mem_toFinset.mp member))
  rw [cells,← List.toFinset_card_of_nodup distinct]
  exact Finset.card_sdiff_add_card_eq_card within

end wrote

-- A request with no data makes a folder, so only folders have the size 0.
def Sized (v : Volume) : Prop := ∀ x, v.Live x → (v.entry x).filesize = 0 → v.Folder x

theorem Removed.sized {v v' : Volume} {x : Place} {xs gone : List Cell} (h : Removed v v' x xs gone) (intact : Intact v)
    (sized : Sized v) : Sized v' := by
  intro y live empty
  obtain ⟨other,old,kept⟩ := h.live_cases intact live
  rw [kept] at empty
  exact (h.folder_old intact old other).mpr (sized y old empty)

theorem Effect.sized {v v' : Volume} {a : FsAction} {code : Int} (effect : Effect v a code v') (intact : Intact v)
    (sized : Sized v) : Sized v' := by
  have inserted : ∀ {memory request d i c rest}, Wrote v v' memory request d i c rest →
      (request.buffer_size = 0 → v'.Folder ⟨d,i⟩) → Sized v' := by
    intro memory request d i c rest wrote folder y live empty
    rcases wrote.inserted.live_cases intact live with rfl | ⟨_,old,kept⟩
    · exact folder (wrote.size_after.symm.trans empty)
    · rw [kept] at empty
      exact (wrote.inserted.folder_old intact old).mpr (sized y old empty)
  cases effect with
  | refused => exact sized
  | @folder _ _ _ _ _ c _ wrote grown =>
    refine inserted wrote fun _ => ⟨c,?_,?_⟩
    · rw [grown]; exact Set.mem_insert _ _
    · rw [wrote.entry,addEntry_cluster]
  | file data wrote => exact inserted wrote fun empty => absurd empty data
  | short data wrote => exact inserted wrote fun empty => absurd empty data
  | deleted deleted => exact deleted.removed.sized intact sized

theorem Run.sized {s : DriverState} {history : List (Transition Volume FsAction)} {v : Volume}
    (run : Run Volume.ClearStep (formatted s) history v) : Intact v ∧ Sized v := by
  have preserved : ∀ (v : Volume) (a : FsAction) (v' : Volume), Intact v ∧ Sized v → v.ClearStep a v' →
      Intact v' ∧ Sized v' := by
    rintro v a v' ⟨intact,sized⟩ step
    obtain ⟨code,_,effect⟩ := ClearStep.effect intact step
    exact ⟨effect.intact intact,effect.sized intact sized⟩
  have kept := Run.invariant ⟨formatted_intact s,fun x live => absurd live (formatted_dead s x)⟩ preserved run
  exact kept

theorem Sized.dir {v : Volume} (sized : Sized v) {x : Place} {d : Cell} (live : v.Live x) (empty : (v.entry x).filesize = 0)
    (at_ : (v.entry x).cluster = cellNumber d) : d ∈ v.dirs := by
  obtain ⟨b,dir,cluster⟩ := sized x live empty
  cases cellNumber_injective (at_.symm.trans cluster)
  exact dir

-- Where a write goes once the entry `target` is gone: a delete empties the slot and
-- leaves its attribute.
def vacancy (t : DirectoryTable) (target : Option (Fin DIRECTORY_ENTRY_COUNT)) : Option (Fin DIRECTORY_ENTRY_COUNT) :=
  firstFit (fun i => (t i).user_attribute != UATTR_NOT_EMPTY || some i == target) 2

theorem vacancy_none (t : DirectoryTable) : vacancy t none = findIdxEmptyEntry t := by
  simp [vacancy,findIdxEmptyEntry]

theorem deleteEntry_attr (t : DirectoryTable) (i j : Fin DIRECTORY_ENTRY_COUNT) :
    (deleteEntry t i j).attr = (t j).attr := by
  by_cases here : j = i
  · rw [here]; exact (deleteEntry_here t i).2.2.1
  · rw [deleteEntry_other _ here]

theorem vacancy_deleted (t : DirectoryTable) (i : Fin DIRECTORY_ENTRY_COUNT) :
    findIdxEmptyEntry (deleteEntry t i) = vacancy t (some i) := by
  unfold vacancy findIdxEmptyEntry
  congr 1
  funext j
  by_cases here : j = i
  · subst here
    simp [(deleteEntry_here t j).2.1]
  · simp [deleteEntry_other t here,here]

-- The cells a delete of the entry gives back.
def Volume.Reclaims (v : Volume) (d : Cell) (target : Option (Fin DIRECTORY_ENTRY_COUNT)) (gone : List Cell) : Prop :=
  match target with
  | none => gone = []
  | some i => ∃ c rest, v.Chained ⟨d,i⟩ (c :: rest) ∧
      gone = if (v.entry ⟨d,i⟩).attr = ATTR_SUBDIRECTORY then [c] else c :: rest

theorem Volume.Reclaims.unique {v : Volume} {d : Cell} {target : Option (Fin DIRECTORY_ENTRY_COUNT)} {gone gone' : List Cell}
    (left : v.Reclaims d target gone) (right : v.Reclaims d target gone') : gone = gone' := by
  cases target with
  | none => exact Eq.trans left right.symm
  | some i =>
    obtain ⟨c,rest,chain,rfl⟩ := left
    obtain ⟨c',rest',chain',rfl⟩ := right
    cases Chain.unique cells_pointers chain chain'
    rfl

section deleted
variable {v v' : Volume} {request : FAT32DriverRequest} {d c : Cell} {i : Fin DIRECTORY_ENTRY_COUNT}
  {rest gone : List Cell} (h : Deleted v v' request d i c rest gone)
include h

theorem Deleted.free_card (intact : Intact v) :
    (freeCells v'.driver.cluster_map).card = (freeCells v.driver.cluster_map).card + gone.length := by
  have distinct : gone.Nodup := by
    rw [h.released]
    split
    · simp
    · exact h.removed.chain.nodup cells_pointers
  have apart : Disjoint (freeCells v.driver.cluster_map) gone.toFinset := by
    rw [Finset.disjoint_left]
    intro b free member
    have inChain := h.removed.within b (List.mem_toFinset.mp member)
    exact intact.chain_taken h.removed.live h.removed.chain inChain (mem_freeCells.mp free)
  have cells : freeCells v'.driver.cluster_map = freeCells v.driver.cluster_map ∪ gone.toFinset := by
    ext b
    rw [Finset.mem_union,mem_freeCells,mem_freeCells,List.mem_toFinset]
    by_cases member : b ∈ gone
    · exact iff_of_true (h.removed.freed b member) (Or.inr member)
    · rw [h.removed.mapFrame b member]
      simp [member]
  rw [cells,Finset.card_union_of_disjoint apart,List.toFinset_card_of_nodup distinct]

theorem Deleted.reclaims : v.Reclaims d (some i) gone := ⟨c,rest,h.removed.chain,h.released⟩

theorem Deleted.dirs_eq (file : ¬ v.Folder ⟨d,i⟩) : v'.dirs = v.dirs := by
  rw [h.removed.shrunk]
  ext b
  refine ⟨fun both => both.1,fun dir => ⟨dir,fun same => file ⟨b,dir,same.symm⟩⟩⟩

theorem Deleted.table_elsewhere (intact : Intact v) {b : Cell} (dir : b ∈ v'.dirs) (other : b ≠ d) :
    v'.driver.table b = v.driver.table b := by
  funext j
  refine h.removed.dir_table intact dir ?_
  rintro same
  exact other (congrArg Place.dir same)

-- The slot is unnamed now and no other one had the name.
theorem Deleted.absent_after (intact : Intact v) (named : request.Named)
    (table : v'.driver.table d = deleteEntry (v.driver.table d) i) :
    findEntry (v'.driver.table d) request.name request.ext = none := by
  rw [table]
  refine findEntry_none.mpr fun j low namedJ => ?_
  by_cases here : j = i
  · rw [here] at namedJ
    have gone := (deleteEntry_here (v.driver.table d) i).1
    exact named ⟨namedJ.1.symm.trans gone.1,namedJ.2.symm.trans gone.2⟩
  · rw [deleteEntry_other _ here] at namedJ
    have live : v.Live ⟨d,j⟩ := by
      by_contra notLive
      have dead := intact.dead ⟨d,j⟩ ⟨h.directory,low⟩ notLive
      exact named ⟨namedJ.1.symm.trans dead.1,namedJ.2.symm.trans dead.2⟩
    have found := intact.find_live live namedJ
    exact here (Option.some.inj (found.symm.trans h.found))

end deleted

theorem deleted_table {v : Volume} {request : FAT32DriverRequest} {d : Cell} {i : Fin DIRECTORY_ENTRY_COUNT}
    {s' : DriverState} (intact : Intact v) (dir : d ∈ v.dirs) (parent : request.parent_cluster_number = cellNumber d)
    (found : findEntry (v.driver.table d) request.name request.ext = some i)
    (ran : delete v.driver request = some (0,s')) : s'.table d = deleteEntry (v.driver.table d) i := by
  rcases delete_parts ran with ⟨failed,_⟩ | ⟨_,j,found',ways⟩
  · exact absurd rfl failed
  · rw [parent_table parent,found] at found'
    cases found'
    rcases ways with ⟨c,_,rfl⟩ | ⟨r,_,rfl⟩ <;> exact removed_table intact.steady dir parent _

-- Dead slots point to cell 0.
def Grounded (v : Volume) : Prop := ∀ x, v.Holds x → ¬ v.Live x → (v.entry x).cluster = 0

section grounded
variable {v v' : Volume}

theorem Inserted.grounded {x : Place} {cs : List Cell} (h : Inserted v v' x cs) (intact : Intact v) (grounded : Grounded v) :
    Grounded v' := by
  intro y holds notLive
  by_cases here : y = x
  · exact absurd (here ▸ h.live_new) notLive
  · rcases h.dir_cases holds.1 with old | ⟨_,_,clean⟩
    · have kept := h.entry_frame intact.steady ⟨old,holds.2⟩ here
      rw [kept]
      exact grounded y ⟨old,holds.2⟩ fun live => notLive ⟨holds,kept ▸ live.2⟩
    · rw [show v'.entry y = .zero from clean y.index holds.2]
      rfl

theorem Deleted.grounded {request : FAT32DriverRequest} {d c : Cell} {i : Fin DIRECTORY_ENTRY_COUNT} {rest gone : List Cell}
    (h : Deleted v v' request d i c rest gone) (table : v'.driver.table d = deleteEntry (v.driver.table d) i)
    (intact : Intact v) (grounded : Grounded v) : Grounded v' := by
  intro y holds notLive
  by_cases here : y = ⟨d,i⟩
  · have cleared := (deleteEntry_here (v.driver.table d) i).2.2.2
    rw [← table] at cleared
    rw [here]
    exact cleared
  · have kept := h.removed.entry_frame intact holds here
    rw [kept]
    refine grounded y ⟨(h.removed.dir_before holds.1).1,holds.2⟩ fun live => notLive ⟨holds,?_⟩
    rw [kept]
    exact live.2

theorem ClearStep.grounded {a : FsAction} (intact : Intact v) (grounded : Grounded v) (step : v.ClearStep a v') :
    Grounded v' := by
  obtain ⟨code,ran,effect⟩ := ClearStep.effect intact step
  cases effect with
  | refused => exact grounded
  | folder _ wrote => exact wrote.inserted.grounded intact grounded
  | file _ wrote => exact wrote.inserted.grounded intact grounded
  | short _ wrote => exact wrote.inserted.grounded intact grounded
  | deleted deleted =>
    have table := deleted_table intact deleted.directory deleted.parent deleted.found (respond_driver ran)
    exact deleted.grounded table intact grounded

end grounded

theorem Run.grounded {s : DriverState} {history : List (Transition Volume FsAction)} {v : Volume}
    (run : Run Volume.ClearStep (formatted s) history v) : Grounded v := by
  have preserved : ∀ (v : Volume) (a : FsAction) (v' : Volume), Intact v ∧ Grounded v → v.ClearStep a v' →
      Intact v' ∧ Grounded v' :=
    fun _ _ _ both step => ⟨ClearStep.intact both.1 step,ClearStep.grounded both.1 both.2 step⟩
  refine (Run.invariant ⟨formatted_intact s,fun x holds _ => ?_⟩ preserved run).2
  rw [formatted_slot s holds]
  rfl

-- From cell 0 the walk of delete leaves the table.
theorem delete_astray {s : DriverState} {request : FAT32DriverRequest} {i : Fin DIRECTORY_ENTRY_COUNT}
    (cell0 : s.cluster_map 0 = CLUSTER_0_VALUE)
    (found : findEntry (s.directory request.parent_cluster_number) request.name request.ext = some i)
    (plain : (s.directory request.parent_cluster_number i).attr ≠ ATTR_SUBDIRECTORY)
    (start : (s.directory request.parent_cluster_number i).cluster = 0) : delete s request = none := by
  have out : ¬ CLUSTER_0_VALUE.toNat < CLUSTER_MAP_SIZE := by decide
  have onward : ∀ fuel s', deleteLoop fuel s' CLUSTER_0_VALUE = none := by
    intro fuel s'
    unfold deleteLoop
    exact dif_neg out
  have walk : deleteLoop walkFuel s 0 = none := by
    unfold deleteLoop
    rw [dif_pos (show (0 : Word).toNat < CLUSTER_MAP_SIZE by decide)]
    refine (if_neg (show s.cluster_map 0 ≠ FAT32_FAT_END_OF_FILE by rw [cell0]; decide)).trans ?_
    change deleteLoop CLUSTER_MAP_SIZE _ (s.cluster_map 0) = none
    rw [cell0]
    exact onward _ _
  simp only [delete,found,if_neg plain,start,walk]
  rfl

end Sosis.Fat32
