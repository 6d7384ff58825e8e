import Sosis.Fat32Walks

-- What one write and one delete do to a drive, cell by cell and cluster by cluster,
-- without assuming a history that led to it.
namespace Sosis.Fat32
open ByteRecords FirstFit LinkedCells TransitionRuns

-- What a write relies on in its parent besides the header it checks itself: a cluster
-- of the FAT that is in use, and not the one the FAT is stored in.
structure DirectoryAt (s : DriverState) (parent : Word) (d : Cell) : Prop where
  number : parent = cellNumber d
  taken : s.cluster_map d ≠ 0
  notFat : d.val ≠ 1

-- The clusters `cs` were free, are now the chain of the new entry, and hold the data.
structure LaidOut (s s' : DriverState) (memory : Memory) (request : FAT32DriverRequest) (d : Cell) (cs : List Cell) : Prop where
  isNew : findEntry (s.table d) request.name request.ext = none
  entry : ∃ i, findEntry (s'.table d) request.name request.ext = some i ∧ FatChain s' (s'.table d i).cluster cs
  enough : request.buffer_size.toNat ≤ CLUSTER_SIZE * cs.length
  needed : CLUSTER_SIZE * cs.length < request.buffer_size.toNat + CLUSTER_SIZE
  distinct : cs.Nodup
  fresh : ∀ c ∈ cs, 3 ≤ c.val ∧ s.cluster_map c = 0
  data : ∀ k < request.buffer_size.toNat, ∃ inside : k / CLUSTER_SIZE < cs.length,
    s'.cluster cs[k / CLUSTER_SIZE] (k % CLUSTER_SIZE) = memory (request.buf + BitVec.ofNat 32 k)
  mapFrame : ∀ c, c ∉ cs → s'.cluster_map c = s.cluster_map c
  fat : s'.cluster 1 = fatBytes s'.cluster_map
  clusterFrame : ∀ n, n ≠ 1 → n ≠ d.val → (∀ c ∈ cs, c.val ≠ n) → s'.cluster n = s.cluster n

section write
variable {s s' : DriverState} {memory : Memory} {request : FAT32DriverRequest} {i : Fin DIRECTORY_ENTRY_COUNT}
  {c d : Cell} {rest : List Cell}

theorem write_zero_writable (ran : write s memory request = some (0,s')) : ∃ i c, Writable s request i c := by
  by_contra refused
  obtain ⟨code,nonzero,answer⟩ := write_refused fun i c writable => refused ⟨i,c,writable⟩
  rw [answer memory] at ran
  cases ran
  exact nonzero rfl

theorem enteredState_directory (number : request.parent_cluster_number = cellNumber d) :
    (enteredState s request i c).table d = addEntry (s.table d) request i (cellNumber c) := by
  unfold enteredState
  rw [number,DriverState.directory_cell,DriverState.writeDirectory_table,slot_cellNumber,if_pos rfl]

-- The slot the entry went to is the one a search for its name finds.
theorem findEntry_added {t : DirectoryTable} {w : Word} (low : 2 ≤ i.val) (absent : findEntry t request.name request.ext = none) :
    findEntry (addEntry t request i w) request.name request.ext = some i := by
  refine findEntry_unique low ?_ fun j lowJ named => ?_
  · rw [addEntry_here]
    exact ⟨rfl,rfl⟩
  · by_contra other
    rw [addEntry_other _ _ _ other] at named
    exact findEntry_none.mp absent j lowJ named

theorem write_lays_out (reserved : ∀ c : Cell, c.val < 3 → s.cluster_map c ≠ 0)
    (parent : DirectoryAt s request.parent_cluster_number d) (file : request.buffer_size ≠ 0)
    (ran : write s memory request = some (0,s')) : ∃ cs, LaidOut s s' memory request d cs := by
  obtain ⟨i,c,writable⟩ := write_zero_writable ran
  obtain ⟨last,rest,appended,complete,short⟩ := writable.write_file memory file
  have enough : ceil request.buffer_size.toNat ≤ (freeCells s.cluster_map).card := by
    by_contra few
    rw [(short (Nat.not_le.mp few)).2] at ran
    cases ran
  obtain ⟨length,answer⟩ := complete enough
  rw [answer] at ran
  cases ran
  have absent := writable.absent
  have vacant := writable.vacant
  rw [parent.number,DriverState.directory_cell] at absent vacant
  have low := (findIdxEmptyEntry_some.mp vacant).1
  have fresh : ∀ b ∈ c :: rest, 3 ≤ b.val ∧ s.cluster_map b = 0 := fun b member =>
    ⟨Nat.le_of_not_lt fun small => reserved b small (appended.fresh b member),appended.fresh b member⟩
  have parentOut : ∀ b ∈ c :: rest, b.val ≠ d.val := fun b member same =>
    parent.taken (Fin.ext same ▸ (fresh b member).2)
  have table : last.writeFat.table d = addEntry (s.table d) request i (cellNumber c) := by
    rw [DriverState.writeFat_table _ parent.notFat,DriverState.table_congr (appended.clusterFrame d.val parentOut),
      enteredState_directory parent.number]
  rw [ceil_eq] at length
  have size : CLUSTER_SIZE * (c :: rest).length = 2048 * ((request.buffer_size.toNat + 2047) / 2048) := by rw [length]
  refine ⟨c :: rest,absent,⟨i,?_,?_⟩,?_,?_,appended.chain.nodup cells_pointers,fresh,?_,?_,?_,?_⟩
  · rw [table]
    exact findEntry_added low absent
  · rw [table,addEntry_cluster]
    exact appended.chain
  · omega
  · simp only [CLUSTER_SIZE] at *
    omega
  · intro k inside
    have place : k / CLUSTER_SIZE < (c :: rest).length := by
      simp only [CLUSTER_SIZE] at *
      omega
    have notFat : (c :: rest)[k / CLUSTER_SIZE].val ≠ 1 := by
      have := (fresh _ (List.getElem_mem place)).1
      omega
    have offset : k / CLUSTER_SIZE * CLUSTER_SIZE + k % CLUSTER_SIZE = k := by
      simp only [CLUSTER_SIZE]
      omega
    refine ⟨place,?_⟩
    rw [DriverState.writeFat_other _ notFat,appended.stored _ place,clip,if_pos (Nat.mod_lt _ (by decide)),drop_apply,
      Nat.zero_add,offset]
    rfl
  · intro b out
    exact appended.mapFrame b out (by simp)
  · rw [DriverState.writeFat_cluster,if_pos rfl]
    rfl
  · intro n notFat notParent out
    rw [DriverState.writeFat_other _ notFat,appended.clusterFrame n out]
    refine DriverState.writeDirectory_other _ ?_
    rw [parent.number,slot_cellNumber]
    exact notParent

end write

theorem write_lays_out_twoClusters : ∃ s' cs, write (create_fat32 blankDrive) blankMemory (rootRequest 'A' 2049) = some (0,s') ∧
    LaidOut (create_fat32 blankDrive) s' blankMemory (rootRequest 'A' 2049) 2 cs := by
  have code : (write (create_fat32 blankDrive) blankMemory (rootRequest 'A' 2049)).map Prod.fst = some 0 := by decide +kernel
  obtain ⟨⟨_,s'⟩,ran,rfl⟩ := Option.map_eq_some_iff.mp code
  obtain ⟨cs,laid⟩ := write_lays_out (fun c low => (formatted_intact blankDrive).reserved low)
    ⟨rfl,(formatted_intact blankDrive).dir_taken rfl,by decide⟩ (by decide) ran
  exact ⟨s',cs,ran,laid⟩

-- Two clusters of a drive that agree everywhere make the same drive.
theorem disk_ext {left right : Disk} (same : ∀ n, clusterAt left n = clusterAt right n) : left = right := by
  funext a
  have place := congrFun (same (a / CLUSTER_SIZE)) (a % CLUSTER_SIZE)
  simpa only [clusterAt,clip,drop_apply,Nat.mod_lt a (show 0 < CLUSTER_SIZE by decide),if_true,Nat.div_add_mod] using place

theorem DriverState.ext {s s' : DriverState} (map : s.cluster_map = s'.cluster_map)
    (clusters : ∀ n, s.cluster n = s'.cluster n) : s = s' := by
  obtain ⟨disk,cells⟩ := s
  obtain ⟨disk',cells'⟩ := s'
  cases map
  cases disk_ext clusters
  rfl

-- The cells the copy loop takes and links do not depend on what it copies.
theorem writeLoop_map (data data' : Bytes) {turns i : Nat} {prev : Option Cell} {s t : DriverState}
    (same : s.cluster_map = t.cluster_map) :
    (writeLoop data turns i prev s).map (fun result => (result.1,result.2.cluster_map)) =
      (writeLoop data' turns i prev t).map fun result => (result.1,result.2.cluster_map) := by
  induction turns generalizing i prev s t with
  | zero => simp [writeLoop,same]
  | succ turns ih =>
    cases room : findEmptySpace s.cluster_map with
    | none =>
      have room' := same ▸ room
      cases prev with
      | none => simp [writeLoop,room,room']
      | some p => simp [writeLoop,room',same]
    | some idx =>
      have room' := same ▸ room
      simp only [writeLoop,room,room']
      apply ih
      cases prev <;> simp [same]

theorem startOf_head {cs cs' : List Cell} (same : cs.head? = cs'.head?) : startOf cs = startOf cs' := by
  cases cs <;> cases cs' <;> simp_all [startOf]

-- Two copy loops from one state, each with its own data.
structure Twins (data data' : Bytes) (turns : Nat) (s : DriverState) (done : Bool) (t t' : DriverState) (cs : List Cell) : Prop where
  ran : writeLoop data turns 0 none s = some (done,t)
  ran' : writeLoop data' turns 0 none s = some (done,t')
  left : Appended data 0 none s t cs
  right : Appended data' 0 none s t' cs
  map : t.cluster_map = t'.cluster_map
  first : cs.head? = findEmptySpace s.cluster_map
  complete : done = true → cs.length = turns
  short : done = false → cs.length < turns

theorem writeLoop_twins (data data' : Bytes) {turns : Nat} {s : DriverState} (some_ : 0 < turns)
    (room : (findEmptySpace s.cluster_map).isSome) : ∃ done t t' cs, Twins data data' turns s done t t' cs := by
  obtain ⟨done,t,ran⟩ := writeLoop_defined data turns 0 none s (Or.inr (Or.inr room))
  obtain ⟨done',t',ran'⟩ := writeLoop_defined data' turns 0 none s (Or.inr (Or.inr room))
  have same := @writeLoop_map data data' turns 0 none s s rfl
  rw [ran,ran',Option.map_some,Option.map_some,Option.some.injEq,Prod.mk.injEq] at same
  obtain ⟨rfl,map⟩ := same
  obtain ⟨cs,left,starts,complete,short⟩ := writeLoop_parts (by simp) ran
  obtain ⟨cs',right,starts',_,_⟩ := writeLoop_parts (by simp) ran'
  have start := startOf_head ((starts some_).trans (starts' some_).symm)
  have chain : FatChain t' (startOf cs) cs := Chain.congr left.chain fun c _ => congrFun map.symm c
  rw [start] at chain
  cases Chain.unique cells_pointers chain right.chain
  exact ⟨done,t,t',cs,ran,ran',left,right,map,starts some_,complete,fun failed => (short failed).1⟩

-- After the first cell, the loop takes the first of the others.
theorem Twins.second {data data' : Bytes} {turns : Nat} {s t t' : DriverState} {done : Bool} {c : Cell} {rest : List Cell}
    (twins : Twins data data' (turns+1) s done t t' (c :: rest)) (room : findEmptySpace s.cluster_map = some c) (more : 0 < turns) :
    rest.head? = findEmptySpace (Function.update s.cluster_map c FAT32_FAT_END_OF_FILE) := by
  have later : writeLoop data turns 1 (some c) (turnState data 0 none c s) = some (done,t) := by
    simpa only [writeLoop,room,turnState] using twins.ran
  have before := (findEmptySpace_some.mp room).2
  obtain ⟨cs,appended,starts,_,_⟩ := writeLoop_parts (by
    intro p at_
    cases Option.some.inj at_
    refine ⟨turnState_taken _ _ _ _ _,fun b below => ?_⟩
    rw [turnState_frame _ _ _ _ _ _ (Fin.ne_of_lt below) (by simp)]
    exact before b below) later
  have tail := (twins.left.chain.ptr_cons cells_pointers)
  obtain ⟨_,list,onward⟩ := tail
  cases list
  rw [appended.link c rfl] at onward
  rw [Chain.unique cells_pointers onward appended.chain,starts more]
  rfl

-- The loop takes `clusters` cells, and the last of them is the one of the cluster the
-- FAT is stored in. That cell is never free once the drive has been formatted.
def EndsInFat (map : ClusterMap) (clusters : Nat) : Prop := map 1 = 0 ∧ clusters = if map 0 = 0 then 2 else 1

theorem first_le {map : ClusterMap} {c b : Cell} (first : findEmptySpace map = some c) (free : map b = 0) : c.val ≤ b.val :=
  Nat.le_of_not_lt fun below => (findEmptySpace_some.mp first).2 b (Fin.lt_def.mpr below) free

-- The second cell is at most any other free one.
theorem second_le {map : ClusterMap} {b c e : Cell} {rest : List Cell}
    (second : (e :: rest).head? = findEmptySpace (Function.update map c FAT32_FAT_END_OF_FILE)) (free : map b = 0)
    (other : b ≠ c) : e.val ≤ b.val :=
  first_le second.symm (by rw [Function.update_of_ne other]; exact free)

-- From the third cell on the last one is neither of the first two.
theorem last_beyond {c e f : Cell} {rest : List Cell} (distinct : (c :: e :: f :: rest).Nodup) :
    ∃ last ∈ f :: rest, (c :: e :: f :: rest).getLast (List.cons_ne_nil _ _) = last ∧ last ≠ c ∧ last ≠ e := by
  obtain ⟨out,tail⟩ := List.nodup_cons.mp distinct
  have far : (c :: e :: f :: rest).getLast (List.cons_ne_nil _ _) ∈ f :: rest := by
    rw [List.getLast_cons (List.cons_ne_nil _ _),List.getLast_cons (List.cons_ne_nil _ _)]
    exact List.getLast_mem _
  refine ⟨_,far,rfl,fun same => out (same ▸ List.mem_cons_of_mem _ far),fun same => ?_⟩
  exact (List.nodup_cons.mp tail).1 (same ▸ far)

theorem endsInFat_iff {map : ClusterMap} {c : Cell} {rest : List Cell} (first : findEmptySpace map = some c)
    (second : rest ≠ [] → rest.head? = findEmptySpace (Function.update map c FAT32_FAT_END_OF_FILE))
    (fresh : ∀ b ∈ c :: rest, map b = 0) (distinct : (c :: rest).Nodup) :
    ((c :: rest).getLast (List.cons_ne_nil _ _)).val = 1 ↔ EndsInFat map (rest.length+1) := by
  have zeroFree : map 0 = 0 → c.val = 0 := fun free => Nat.le_zero.mp (first_le first free)
  have zeroTaken : c.val = 0 → map 0 = 0 := fun zero => (show c = 0 from Fin.ext zero) ▸ fresh c (by simp)
  have oneFree : ∀ b ∈ c :: rest, b.val = 1 → map 1 = 0 := fun b member one =>
    (show b = 1 from Fin.ext one) ▸ fresh b member
  have below : map 1 = 0 → c.val ≤ 1 := first_le first
  obtain ⟨out,_⟩ := List.nodup_cons.mp distinct
  unfold EndsInFat
  cases rest with
  | nil =>
    rw [List.getLast_singleton]
    constructor
    · intro one
      refine ⟨oneFree c (by simp) one,?_⟩
      rw [if_neg fun free => by have := zeroFree free; omega]
      rfl
    · intro ⟨free,count⟩
      have used : map 0 ≠ 0 := by
        intro zero
        rw [if_pos zero] at count
        cases count
      have := below free
      have : c.val ≠ 0 := fun zero => used (zeroTaken zero)
      omega
  | cons e rest' =>
    have other : e.val ≠ c.val := fun same => out (by rw [← Fin.ext same]; simp)
    have after : c.val ≤ e.val := first_le first (fresh e (by simp))
    cases rest' with
    | nil =>
      rw [List.getLast_cons (List.cons_ne_nil _ _),List.getLast_singleton]
      constructor
      · intro one
        refine ⟨oneFree e (by simp) one,?_⟩
        rw [if_pos (zeroTaken (by omega))]
        rfl
      · intro ⟨free,count⟩
        have zero : map 0 = 0 := by
          by_contra used
          rw [if_neg used] at count
          cases count
        have first := zeroFree zero
        have other : (1 : Cell) ≠ c := fun same => absurd (congrArg Fin.val same) (by rw [first]; decide)
        have : e.val ≤ 1 := second_le (second (List.cons_ne_nil _ _)) free other
        omega
    | cons f rest'' =>
      obtain ⟨last,far,ends,notFirst,notSecond⟩ := last_beyond distinct
      rw [ends]
      have above := second_le (second (List.cons_ne_nil _ _)) (fresh last (by simp [List.mem_cons.mp far])) notFirst
      have strict : last.val ≠ e.val := fun same => notSecond (Fin.ext same)
      constructor
      · intro one
        omega
      · intro ⟨_,count⟩
        simp only [List.length_cons] at count
        split at count <;> omega

theorem clip_drop_eq_iff {data data' : Bytes} {o : Nat} :
    clip (drop data o) = clip (drop data' o) ↔ ∀ k, o ≤ k → k < o + CLUSTER_SIZE → data k = data' k := by
  constructor
  · intro same k low high
    have byte := congrFun same (k-o)
    rw [clip,clip,if_pos (by omega),if_pos (by omega),drop_apply,drop_apply,Nat.add_sub_cancel' low] at byte
    exact byte
  · intro agree
    funext k
    by_cases inside : k < CLUSTER_SIZE
    · simp only [clip,if_pos inside,drop_apply]
      exact agree _ (Nat.le_add_right _ _) (Nat.add_lt_add_left inside _)
    · simp only [clip,if_neg inside]

section twins
variable {data data' : Bytes} {turns : Nat} {s t t' : DriverState} {done : Bool} {cs : List Cell}
  (twins : Twins data data' turns s done t t' cs)
include twins

theorem Twins.cluster_eq {n : Nat} (agree : ∀ (j : Nat) (bound : j < cs.length), cs[j].val = n →
    clip (drop data (j*CLUSTER_SIZE)) = clip (drop data' (j*CLUSTER_SIZE))) : t.cluster n = t'.cluster n := by
  by_cases out : ∀ c ∈ cs, c.val ≠ n
  · rw [twins.left.clusterFrame n out,twins.right.clusterFrame n out]
  · simp only [not_forall,not_not] at out
    obtain ⟨c,member,rfl⟩ := out
    obtain ⟨j,bound,rfl⟩ := List.mem_iff_getElem.mp member
    rw [twins.left.stored j bound,twins.right.stored j bound,Nat.zero_add]
    exact agree j bound rfl

-- The data of the clusters `cs`, other than what the FAT is stored over, is the same.
theorem Twins.writeFat_eq_iff : t.writeFat = t'.writeFat ↔
    ∀ (j : Nat) (bound : j < cs.length), cs[j].val ≠ 1 →
      clip (drop data (j*CLUSTER_SIZE)) = clip (drop data' (j*CLUSTER_SIZE)) := by
  constructor
  · intro same j bound notFat
    have here := congrArg (fun s => DriverState.cluster s cs[j].val) same
    simp only [DriverState.writeFat_other _ notFat,twins.left.stored j bound,twins.right.stored j bound,Nat.zero_add] at here
    exact here
  · intro agree
    refine DriverState.ext twins.map fun n => ?_
    by_cases fat : n = 1
    · rw [DriverState.writeFat_cluster,DriverState.writeFat_cluster,if_pos fat,if_pos fat,twins.map]
    · rw [DriverState.writeFat_other _ fat,DriverState.writeFat_other _ fat]
      exact twins.cluster_eq fun j bound here => agree j bound (here ▸ fat)

-- All that can differ is the last cluster, when the others agree.
theorem Twins.tail_iff {c : Cell} (room : findEmptySpace s.cluster_map = some c) (complete : cs.length = turns)
    (positive : 0 < turns) (early : ∀ j, j + 1 < turns →
      clip (drop data (j*CLUSTER_SIZE)) = clip (drop data' (j*CLUSTER_SIZE))) :
    t.writeFat = t'.writeFat ↔ (¬ EndsInFat s.cluster_map turns →
      clip (drop data ((turns-1)*CLUSTER_SIZE)) = clip (drop data' ((turns-1)*CLUSTER_SIZE))) := by
  obtain ⟨rest,rfl⟩ : ∃ rest, cs = c :: rest := by
    have first := twins.first.trans room
    cases cs with
    | nil => cases first
    | cons b rest => exact ⟨rest,by cases first; rfl⟩
  obtain ⟨more,rfl⟩ := Nat.exists_eq_succ_of_ne_zero (Nat.ne_of_gt positive)
  have count : rest.length = more := by simpa using complete
  subst count
  have ends := endsInFat_iff room (fun some_ => twins.second room (List.length_pos_iff.mpr some_)) twins.left.fresh
    (twins.left.chain.nodup cells_pointers)
  rw [List.getLast_eq_getElem] at ends
  rw [twins.writeFat_eq_iff,← ends]
  constructor
  · intro agree notFat
    exact agree rest.length (by simp) notFat
  · intro agree j bound notFat
    by_cases before : j + 1 < rest.length + 1
    · exact early j before
    · have last : j = rest.length := by
        simp only [List.length_cons] at bound
        omega
      subst last
      exact agree notFat

end twins

-- The memories agree on what follows the data, up to the end of its last cluster, where
-- that cluster is copied and stays on the drive.
def TailsAgree (s : DriverState) (memory memory' : Memory) (request : FAT32DriverRequest) (buf' : Word) : Prop :=
  (∃ i c, Writable s request i c) → ceil request.buffer_size.toNat ≤ (freeCells s.cluster_map).card →
    ¬ EndsInFat s.cluster_map (ceil request.buffer_size.toNat) →
    ∀ k, request.buffer_size.toNat ≤ k → k < CLUSTER_SIZE * ceil request.buffer_size.toNat →
      memory.at request.buf k = memory'.at buf' k

section twoWrites
variable {s : DriverState} {memory memory' : Memory} {request : FAT32DriverRequest} {buf' : Word}
  {i : Fin DIRECTORY_ENTRY_COUNT} {c : Cell}

theorem Writable.rebuffered (writable : Writable s request i c) (buf' : Word) : Writable s {request with buf := buf'} i c :=
  ⟨writable.directory,writable.absent,writable.vacant,writable.room⟩

theorem Writable.write_eq (writable : Writable s request i c) (file : request.buffer_size ≠ 0) (memory : Memory) :
    write s memory request = (writeLoop (memory.at request.buf) (ceil request.buffer_size.toNat) 0 none
      (enteredState s request i c)).map fun (done,s) => if done then (0,s.writeFat) else (-1,s) := by
  simp only [write,writable.directory,writable.absent,writable.vacant,writable.room,ne_eq,not_true_eq_false,if_false,
    if_neg file,enteredState]

theorem ceil_pos {request : FAT32DriverRequest} (file : request.buffer_size ≠ 0) : 0 < ceil request.buffer_size.toNat := by
  have nonzero : request.buffer_size.toNat ≠ 0 := fun zero => file (BitVec.eq_of_toNat_eq zero)
  rw [ceil_eq]
  omega

-- Every cluster but the last is filled by the first n bytes, and the last one to its end
-- only by what follows them.
theorem early_agree {n : Nat} {data data' : Bytes} (agree : ∀ k < n, data k = data' k) {j : Nat} (before : j + 1 < ceil n) :
    clip (drop data (j*CLUSTER_SIZE)) = clip (drop data' (j*CLUSTER_SIZE)) := by
  rw [ceil_eq] at before
  refine clip_drop_eq_iff.mpr fun k _ high => agree k ?_
  simp only [CLUSTER_SIZE] at *
  omega

theorem tail_agree_iff {n : Nat} {data data' : Bytes} (positive : 0 < ceil n) (agree : ∀ k < n, data k = data' k) :
    clip (drop data ((ceil n - 1)*CLUSTER_SIZE)) = clip (drop data' ((ceil n - 1)*CLUSTER_SIZE)) ↔
      ∀ k, n ≤ k → k < CLUSTER_SIZE * ceil n → data k = data' k := by
  have rounded := ceil_eq n
  rw [clip_drop_eq_iff]
  constructor
  · intro same k low high
    refine same k ?_ ?_
    all_goals simp only [CLUSTER_SIZE] at *; omega
  · intro tails k _ high
    by_cases inside : k < n
    · exact agree k inside
    · refine tails k (Nat.not_lt.mp inside) ?_
      simp only [CLUSTER_SIZE] at *
      omega

theorem write_data_iff (s : DriverState) (memory memory' : Memory) (request : FAT32DriverRequest) (buf' : Word)
    (file : request.buffer_size ≠ 0)
    (agree : ∀ k < request.buffer_size.toNat, memory.at request.buf k = memory'.at buf' k) :
    (write s memory request).map Prod.snd = (write s memory' {request with buf := buf'}).map Prod.snd ↔
      TailsAgree s memory memory' request buf' := by
  by_cases writes : ∃ i c, Writable s request i c
  · obtain ⟨i,c,writable⟩ := writes
    have positive := ceil_pos file
    have room : findEmptySpace (enteredState s request i c).cluster_map = some c := writable.room
    obtain ⟨done,t,t',cs,twins⟩ := @writeLoop_twins (memory.at request.buf) (memory'.at buf') (ceil request.buffer_size.toNat)
      (enteredState s request i c) positive (by rw [room]; rfl)
    have left := writable.write_eq file memory
    have right := (writable.rebuffered buf').write_eq file memory'
    rw [twins.ran,Option.map_some] at left
    rw [show enteredState s {request with buf := buf'} i c = enteredState s request i c from rfl,
      show ({request with buf := buf'} : FAT32DriverRequest).buffer_size = request.buffer_size from rfl,twins.ran',
      Option.map_some] at right
    rw [left,right]
    obtain ⟨_,_,_,complete,short⟩ := writable.write_file memory file
    cases done with
    | false =>
      have length := twins.short rfl
      refine iff_of_true (congrArg some (DriverState.ext twins.map fun n => ?_)) fun _ enough => ?_
      · exact twins.cluster_eq fun j bound _ => early_agree agree (by omega)
      · rw [(complete enough).2] at left
        cases left
    | true =>
      have enough : ceil request.buffer_size.toNat ≤ (freeCells s.cluster_map).card := by
        by_contra few
        rw [(short (Nat.not_le.mp few)).2] at left
        cases left
      have tail := twins.tail_iff room (twins.complete rfl) positive fun j before => early_agree agree before
      rw [tail_agree_iff positive agree] at tail
      simp only [if_true,Option.map_some,Option.some.injEq,tail]
      constructor
      · intro tails _ _
        exact tails
      · intro tails
        exact tails ⟨i,c,writable⟩ enough
  · obtain ⟨_,_,left⟩ := write_refused fun i c writable => writes ⟨i,c,writable⟩
    obtain ⟨_,_,right⟩ := @write_refused s {request with buf := buf'} fun i c writable =>
      writes ⟨i,c,writable.rebuffered request.buf⟩
    rw [left memory,right memory']
    exact iff_of_true rfl fun writes' => absurd writes' writes

end twoWrites

-- One byte to write, and what follows it in two memories.
def followedByOnes : Memory := fun a => if a = 0 then 0 else 1

theorem followedByOnes_agree : ∀ k < (rootRequest 'A' 1).buffer_size.toNat,
    blankMemory.at (rootRequest 'A' 1).buf k = followedByOnes.at 0 k := by
  intro k inside
  have first : k = 0 := Nat.lt_one_iff.mp inside
  subst first
  rfl

theorem write_data_iff_oneByte :
    (write (create_fat32 blankDrive) blankMemory (rootRequest 'A' 1)).map Prod.snd =
        (write (create_fat32 blankDrive) followedByOnes {rootRequest 'A' 1 with buf := 0}).map Prod.snd ↔
      TailsAgree (create_fat32 blankDrive) blankMemory followedByOnes (rootRequest 'A' 1) 0 :=
  write_data_iff _ _ _ _ _ (by decide) followedByOnes_agree

-- The second byte of the file's cluster is the caller's second byte.
theorem oneByte_leaks : (∀ k < (rootRequest 'A' 1).buffer_size.toNat,
      blankMemory.at (rootRequest 'A' 1).buf k = followedByOnes.at (rootRequest 'A' 1).buf k) ∧
    (write (create_fat32 blankDrive) blankMemory (rootRequest 'A' 1)).map (fun result => result.2.disk 6145) = some 0 ∧
    (write (create_fat32 blankDrive) followedByOnes (rootRequest 'A' 1)).map (fun result => result.2.disk 6145) = some 1 :=
  ⟨followedByOnes_agree,by decide +kernel,by decide +kernel⟩

-- The chain `xs` is free and empty, the entry in slot `i` of the parent is cleared, and
-- nothing else has changed.
structure FileGone (s s' : DriverState) (parent : Nat) (i : Fin DIRECTORY_ENTRY_COUNT) (xs : List Cell) : Prop where
  freed : ∀ c ∈ xs, s'.cluster_map c = 0
  emptied : ∀ c ∈ xs, ∀ k, s'.cluster c k = 0
  cleared : (s'.table parent i).user_attribute = 0 ∧ (s'.table parent i).Unnamed
  fat : s'.cluster 1 = fatBytes s'.cluster_map
  mapFrame : ∀ c, c ∉ xs → s'.cluster_map c = s.cluster_map c
  slotFrame : ∀ j, j ≠ i → s'.table parent j = s.table parent j
  clusterFrame : ∀ n, n ≠ 1 → n ≠ parent → (∀ c ∈ xs, c.val ≠ n) → s'.cluster n = s.cluster n

theorem delete_frees_chain {s : DriverState} {request : FAT32DriverRequest} {i : Fin DIRECTORY_ENTRY_COUNT} {c : Cell}
    {rest : List Cell} (notFat : slot request.parent_cluster_number ≠ 1)
    (found : findEntry (s.directory request.parent_cluster_number) request.name request.ext = some i)
    (file : (s.directory request.parent_cluster_number i).attr ≠ ATTR_SUBDIRECTORY)
    (at_ : (s.directory request.parent_cluster_number i).cluster = cellNumber c)
    (chain : FatChain s (cellNumber c) (c :: rest)) (range : ∀ b ∈ c :: rest, 3 ≤ b.val)
    (apart : ∀ b ∈ c :: rest, b.val ≠ slot request.parent_cluster_number) :
    ∃ s', delete s request = some (0,s') ∧ FileGone s s' (slot request.parent_cluster_number) i (c :: rest) := by
  obtain ⟨last,released,ran⟩ := delete_file found file at_ chain
  have table : (removedState s request i last).table (slot request.parent_cluster_number) =
      deleteEntry (s.table (slot request.parent_cluster_number)) i := by
    unfold removedState
    rw [DriverState.writeFat_table _ notFat,DriverState.writeDirectory_table,if_pos rfl,DriverState.directory_eq]
  refine ⟨_,ran,released.freed,?_,?_,?_,released.mapFrame,?_,?_⟩
  · intro b member k
    have low := range b member
    unfold removedState
    rw [DriverState.writeFat_other _ (by omega),DriverState.writeDirectory_other _ (apart b member),released.emptied b member]
    simp [clip,emptyCluster]
  · have gone := deleteEntry_here (s.table (slot request.parent_cluster_number)) i
    rw [table]
    exact ⟨by simp [deleteEntry,FAT32_FAT_EMPTY_ENTRY],gone.1⟩
  · unfold removedState
    rw [DriverState.writeFat_cluster,if_pos rfl]
    rfl
  · intro j other
    rw [table,deleteEntry_other _ other]
  · intro n one parent out
    unfold removedState
    rw [DriverState.writeFat_other _ one,DriverState.writeDirectory_other _ parent,released.clusterFrame n out]

def twoClusterFile : List FsAction := [.write blankMemory (rootRequest 'A' 2049)]

theorem delete_frees_chain_twoClusters : ∃ s s', replay (create_fat32 blankDrive) twoClusterFile = some s ∧
    delete s (rootRequest 'A' 0) = some (0,s') ∧ FileGone s s' 2 2 [3,4] := by
  have facts : (replay (create_fat32 blankDrive) twoClusterFile).any (fun s =>
      findEntry (s.directory ROOT_CLUSTER_NUMBER) (rootRequest 'A' 0).name (rootRequest 'A' 0).ext = some 2 ∧
      (s.directory ROOT_CLUSTER_NUMBER 2).attr ≠ ATTR_SUBDIRECTORY ∧
      (s.directory ROOT_CLUSTER_NUMBER 2).cluster = cellNumber 3 ∧ s.cluster_map 3 = cellNumber 4 ∧
      s.cluster_map 4 = FAT32_FAT_END_OF_FILE) = true := by decide +kernel
  obtain ⟨s,replayed,holds⟩ := (Option.any_eq_true _ _).mp facts
  obtain ⟨found,file,at_,next,ends⟩ := of_decide_eq_true holds
  have chain : FatChain s (cellNumber 3) [3,4] := .link (by rw [next]; exact Chain.single ends)
  obtain ⟨s',ran,gone⟩ := @delete_frees_chain s (rootRequest 'A' 0) 2 3 [4] (by decide) found file at_
    chain (by decide +kernel) (by decide +kernel)
  exact ⟨s,s',replayed,ran,gone⟩

-- A live entry in the cluster of the FAT, over a cached FAT whose cell 16 is taken.
def entryInFat : DriverState :=
  (⟨blankDrive.disk,Function.update (Function.update formatMap 3 FAT32_FAT_END_OF_FILE) 16 FAT32_FAT_END_OF_FILE⟩ :
    DriverState).writeDirectory (Function.update zeroTable 2 {DirectoryEntry.zero with
      name := (rootRequest 'A' 0).name
      user_attribute := UATTR_NOT_EMPTY
      cluster_low := 3
      filesize := 1}) FAT_CLUSTER_NUMBER

def fatRequest : FAT32DriverRequest := {rootRequest 'A' 0 with parent_cluster_number := FAT_CLUSTER_NUMBER}

-- The FAT is stored over the table from which the entry was cleared.
theorem fat_undoes_delete : findEntry (entryInFat.directory fatRequest.parent_cluster_number) fatRequest.name fatRequest.ext =
      some 2 ∧ (entryInFat.directory fatRequest.parent_cluster_number 2).attr ≠ ATTR_SUBDIRECTORY ∧
    (entryInFat.directory fatRequest.parent_cluster_number 2).cluster = cellNumber 3 ∧
    FatChain entryInFat (cellNumber 3) [3] ∧ (∀ b ∈ ([3] : List Cell), 3 ≤ b.val) ∧
    (∀ b ∈ ([3] : List Cell), b.val ≠ slot fatRequest.parent_cluster_number) ∧
    ¬ ∃ s', delete entryInFat fatRequest = some (0,s') ∧ FileGone entryInFat s' (slot fatRequest.parent_cluster_number) 2 [3] := by
  have facts : findEntry (entryInFat.directory fatRequest.parent_cluster_number) fatRequest.name fatRequest.ext = some 2 ∧
      (entryInFat.directory fatRequest.parent_cluster_number 2).attr ≠ ATTR_SUBDIRECTORY ∧
      (entryInFat.directory fatRequest.parent_cluster_number 2).cluster = cellNumber 3 ∧
      entryInFat.cluster_map 3 = FAT32_FAT_END_OF_FILE ∧
      ((delete entryInFat fatRequest).all fun answer => (answer.2.table (slot fatRequest.parent_cluster_number) 2).name 0 ≠ 0) =
        true := by decide +kernel
  obtain ⟨found,file,at_,ends,named⟩ := facts
  refine ⟨found,file,at_,Chain.single ends,by decide +kernel,by decide +kernel,?_⟩
  rintro ⟨s',ran,gone⟩
  rw [ran,Option.all_some,decide_eq_true_eq] at named
  exact named (congrFun gone.cleared.2.1 0)

end Sosis.Fat32
