import Mathlib.Data.Finset.Card
import Sosis.Fat32Storage

-- What the loops and the requests of the driver do to the cells and the clusters,
-- for any state of the drive. Histories and directories come later.
namespace Sosis.Fat32
open ByteRecords FirstFit LinkedCells

abbrev Cell := Fin CLUSTER_MAP_SIZE

abbrev FatChain (s : DriverState) : Word → List Cell → Prop :=
  Chain s.cluster_map cellNumber FAT32_FAT_END_OF_FILE

def startOf : List Cell → Word
  | [] => FAT32_FAT_END_OF_FILE
  | c :: _ => cellNumber c

-- The copy loop has taken the cells `cs`, linked them behind `prev` and stored the
-- data from cluster `i` on in them; it has touched nothing else.
structure Appended (data : Bytes) (i : Nat) (prev : Option Cell) (s s' : DriverState) (cs : List Cell) : Prop where
  fresh : ∀ c ∈ cs, s.cluster_map c = 0
  taken : ∀ c ∈ cs, s'.cluster_map c ≠ 0
  chain : FatChain s' (startOf cs) cs
  link : ∀ p, prev = some p → s'.cluster_map p = startOf cs
  mapFrame : ∀ c, c ∉ cs → prev ≠ some c → s'.cluster_map c = s.cluster_map c
  stored : ∀ (j : Nat) (bound : j < cs.length), s'.cluster cs[j] = clip (drop data ((i+j)*CLUSTER_SIZE))
  clusterFrame : ∀ n, (∀ c ∈ cs, c.val ≠ n) → s'.cluster n = s.cluster n

theorem end_ne_zero : FAT32_FAT_END_OF_FILE ≠ 0 := by decide

-- One turn that finds room: the cell is taken before the remaining turns run.
def turnState (data : Bytes) (i : Nat) (prev : Option Cell) (idx : Cell) (s : DriverState) : DriverState :=
  let s := s.writeCluster (drop data (i*CLUSTER_SIZE)) (cellNumber idx)
  let s := match prev with
    | none => s
    | some prev => s.setCell prev (cellNumber idx)
  s.setCell idx FAT32_FAT_END_OF_FILE

theorem turnState_cluster (data : Bytes) (i : Nat) (prev : Option Cell) (idx : Cell) (s : DriverState) (n : Nat) :
    (turnState data i prev idx s).cluster n =
      if n = idx.val then clip (drop data (i*CLUSTER_SIZE)) else s.cluster n := by
  have written := s.writeCluster_cluster (drop data (i*CLUSTER_SIZE)) (cellNumber idx) n
  rw [slot_cellNumber] at written
  cases prev <;> simpa [turnState] using written

theorem turnState_taken (data : Bytes) (i : Nat) (prev : Option Cell) (idx : Cell) (s : DriverState) :
    (turnState data i prev idx s).cluster_map idx = FAT32_FAT_END_OF_FILE := by
  simp [turnState]

theorem turnState_prev (data : Bytes) (i : Nat) (idx p : Cell) (s : DriverState) (other : p ≠ idx) :
    (turnState data i (some p) idx s).cluster_map p = cellNumber idx := by
  simp [turnState,other]

theorem turnState_frame (data : Bytes) (i : Nat) (prev : Option Cell) (idx c : Cell) (s : DriverState)
    (other : c ≠ idx) (notPrev : prev ≠ some c) :
    (turnState data i prev idx s).cluster_map c = s.cluster_map c := by
  cases prev with
  | none => simp [turnState,other]
  | some p => simp [turnState,other,show c ≠ p by rintro rfl; exact notPrev rfl]

-- The cell that a turn finds: the first free one, above the cell of the turn before.
structure NextCell (s : DriverState) (prev : Option Cell) (idx : Cell) : Prop where
  free : s.cluster_map idx = 0
  before : ∀ c < idx, s.cluster_map c ≠ 0
  above : ∀ p, prev = some p → p < idx

section nextCell
variable {data : Bytes} {i : Nat} {prev : Option Cell} {idx : Cell} {s s' : DriverState} {cs : List Cell}

theorem NextCell.of_room (room : findEmptySpace s.cluster_map = some idx)
    (ended : ∀ p, prev = some p → s.cluster_map p = FAT32_FAT_END_OF_FILE ∧ ∀ c < p, s.cluster_map c ≠ 0) :
    NextCell s prev idx := by
  obtain ⟨free,before⟩ := findEmptySpace_some.mp room
  refine ⟨free,before,fun p at_ => ?_⟩
  rcases lt_trichotomy p idx with less | equal | more
  · exact less
  · rw [equal] at at_
    exact absurd ((ended idx at_).1.symm.trans free) end_ne_zero
  · exact absurd free ((ended p at_).2 idx more)

theorem NextCell.prev_cell (h : NextCell s prev idx) {p : Cell} (at_ : prev = some p) :
    (turnState data i prev idx s).cluster_map p = cellNumber idx := by
  subst at_
  exact turnState_prev _ _ _ _ _ (Fin.ne_of_lt (h.above p rfl))

-- First fit never goes back below the cell of the turn before, so the pointer written
-- into that cell is never a zero.
theorem NextCell.prev_taken (h : NextCell s prev idx) {p : Cell} (at_ : prev = some p) :
    (turnState data i prev idx s).cluster_map p ≠ 0 := by
  rw [h.prev_cell at_,Ne,cellNumber_eq_zero]
  have := Fin.lt_def.mp (h.above p at_)
  omega

theorem NextCell.below_taken (h : NextCell s prev idx) {c : Cell} (below : c < idx) :
    (turnState data i prev idx s).cluster_map c ≠ 0 := by
  by_cases isPrev : prev = some c
  · exact h.prev_taken isPrev
  · rw [turnState_frame _ _ _ _ _ _ (Fin.ne_of_lt below) isPrev]
    exact h.before c below

theorem NextCell.out (h : NextCell s prev idx) (appended : Appended data (i+1) (some idx) (turnState data i prev idx s) s' cs) :
    idx ∉ cs ∧ ∀ p, prev = some p → p ∉ cs := by
  constructor
  · intro member
    have zero := appended.fresh idx member
    rw [turnState_taken] at zero
    exact end_ne_zero zero
  · exact fun p at_ member => h.prev_taken at_ (appended.fresh p member)

-- The cell of a turn in front of those of the turns behind it.
theorem NextCell.appended (h : NextCell s prev idx)
    (appended : Appended data (i+1) (some idx) (turnState data i prev idx s) s' cs) : Appended data i prev s s' (idx :: cs) := by
  obtain ⟨idxOut,prevOut⟩ := h.out appended
  refine ⟨?_,?_,?_,?_,?_,?_,?_⟩
  · intro c member
    rcases List.mem_cons.mp member with rfl | inRest
    · exact h.free
    · have zero := appended.fresh c inRest
      rwa [turnState_frame] at zero
      · rintro rfl; exact idxOut inRest
      · intro at_; exact prevOut c at_ inRest
  · intro c member
    rcases List.mem_cons.mp member with rfl | inRest
    · rw [appended.link c rfl]
      cases cs with
      | nil => exact end_ne_zero
      | cons next rest =>
        rw [startOf,Ne,cellNumber_eq_zero]
        intro lowest
        have other : next.val ≠ c.val := fun same => idxOut (by simp [Fin.ext same])
        exact h.below_taken (Fin.lt_def.mpr (by omega)) (appended.fresh next (by simp))
    · exact appended.taken c inRest
  · exact .link (appended.link idx rfl ▸ appended.chain)
  · intro p at_
    rw [appended.mapFrame p (prevOut p at_) (by
      intro same; cases Option.some.inj same; exact absurd (h.above idx at_) (lt_irrefl _))]
    exact h.prev_cell at_
  · intro c out notPrev
    obtain ⟨notIdx,notRest⟩ := not_or.mp (List.mem_cons.not.mp out)
    rw [appended.mapFrame c notRest (by intro same; exact notIdx (Option.some.inj same).symm)]
    exact turnState_frame _ _ _ _ _ _ notIdx notPrev
  · intro j bound
    cases j with
    | zero =>
      have kept := appended.clusterFrame idx.val (fun c member same => idxOut (Fin.ext same ▸ member))
      simpa [turnState_cluster] using kept
    | succ j =>
      have rest := appended.stored j (by simpa using bound)
      simpa only [List.getElem_cons_succ,show i+1+j = i+(j+1) by omega] using rest
  · intro n out
    have kept := appended.clusterFrame n (fun c member => out c (List.mem_cons_of_mem _ member))
    rw [kept,turnState_cluster,if_neg (fun same => out idx (by simp) same.symm)]

end nextCell

-- Induction over the remaining turns.
theorem writeLoop_parts {turns i : Nat} {prev : Option Cell} {s s' : DriverState} {done : Bool}
    (ended : ∀ p, prev = some p → s.cluster_map p = FAT32_FAT_END_OF_FILE ∧ ∀ c < p, s.cluster_map c ≠ 0)
    (ran : writeLoop data turns i prev s = some (done,s')) :
    ∃ cs, Appended data i prev s s' cs ∧ (0 < turns → cs.head? = findEmptySpace s.cluster_map) ∧
      (done = true → cs.length = turns) ∧
      (done = false → cs.length < turns ∧ ∀ c, s.cluster_map c = 0 → c ∈ cs) := by
  induction turns generalizing i prev s with
  | zero =>
    simp only [writeLoop,Option.some.injEq,Prod.mk.injEq] at ran
    obtain ⟨rfl,rfl⟩ := ran
    refine ⟨[],⟨by simp,by simp,.stop,fun p at_ => (ended p at_).1,by simp,by simp,by simp⟩,by simp,by simp,by simp⟩
  | succ turns ih =>
    cases room : findEmptySpace s.cluster_map with
    | none =>
      cases prev with
      | none => simp [writeLoop,room] at ran
      | some p =>
        simp only [writeLoop,room,Option.some.injEq,Prod.mk.injEq] at ran
        obtain ⟨rfl,rfl⟩ := ran
        have full := findEmptySpace_none.mp room
        have same : (s.setCell p FAT32_FAT_END_OF_FILE).cluster_map = s.cluster_map := by
          rw [DriverState.setCell_map,← (ended p rfl).1,Function.update_eq_self]
        refine ⟨[],⟨by simp,by simp,.stop,?_,?_,by simp,by simp⟩,by simp,by simp,fun _ => ⟨by simp,?_⟩⟩
        · intro q at_
          rw [same]
          exact (ended q at_).1
        · intro c _ _
          rw [same]
        · intro c free
          exact absurd free (full c)
    | some idx =>
      have next := NextCell.of_room room ended
      have later : writeLoop data turns (i+1) (some idx) (turnState data i prev idx s) = some (done,s') := by
        cases prev <;> simpa only [writeLoop,room,turnState] using ran
      obtain ⟨cs,appended,_,counted,short⟩ := ih (fun p at_ => by
        cases Option.some.inj at_
        exact ⟨turnState_taken _ _ _ _ _,fun c below => next.below_taken below⟩) later
      refine ⟨idx :: cs,next.appended appended,fun _ => rfl,fun all => by simp [counted all],fun failed => ⟨?_,?_⟩⟩
      · simpa using (short failed).1
      · intro c zero
        by_cases isIdx : c = idx
        · simp [isIdx]
        · refine List.mem_cons_of_mem _ ((short failed).2 c ?_)
          rw [turnState_frame _ _ _ _ _ _ isIdx]
          · exact zero
          · intro at_
            exact end_ne_zero ((ended c at_).1.symm.trans zero)

theorem writeLoop_defined (data : Bytes) (turns i : Nat) (prev : Option Cell) (s : DriverState)
    (started : prev.isSome ∨ turns = 0 ∨ (findEmptySpace s.cluster_map).isSome) :
    ∃ done s', writeLoop data turns i prev s = some (done,s') := by
  induction turns generalizing i prev s with
  | zero => exact ⟨_,_,rfl⟩
  | succ turns ih =>
    cases room : findEmptySpace s.cluster_map with
    | none =>
      cases prev with
      | none => simp [room] at started
      | some p => exact ⟨_,_,by simp only [writeLoop,room]; rfl⟩
    | some idx =>
      obtain ⟨done,s',ran⟩ := ih (i+1) (some idx) (turnState data i prev idx s) (Or.inl rfl)
      exact ⟨done,s',by cases prev <;> simpa only [writeLoop,room,turnState] using ran⟩

-- The walk of delete frees and zeroes the cells `xs` and nothing else.
structure Released (s s' : DriverState) (xs : List Cell) : Prop where
  freed : ∀ c ∈ xs, s'.cluster_map c = 0
  mapFrame : ∀ c, c ∉ xs → s'.cluster_map c = s.cluster_map c
  emptied : ∀ c ∈ xs, s'.cluster c = clip emptyCluster
  clusterFrame : ∀ n, (∀ c ∈ xs, c.val ≠ n) → s'.cluster n = s.cluster n

def releaseState (s : DriverState) (c : Cell) : DriverState :=
  (s.setCell c 0).writeCluster emptyCluster (cellNumber c)

theorem releaseState_cluster (s : DriverState) (c : Cell) (n : Nat) :
    (releaseState s c).cluster n = if n = c.val then clip emptyCluster else s.cluster n := by
  rw [releaseState,DriverState.writeCluster_cluster,slot_cellNumber,DriverState.setCell_cluster]

theorem releaseState_map (s : DriverState) (c x : Cell) :
    (releaseState s c).cluster_map x = if x = c then 0 else s.cluster_map x := by
  simp only [releaseState,DriverState.writeCluster_map,DriverState.setCell_map,Function.update_apply]

theorem releaseState_released (s : DriverState) (c : Cell) : Released s (releaseState s c) [c] := by
  refine ⟨?_,?_,?_,?_⟩
  · simp [releaseState_map]
  · intro x out
    rw [releaseState_map,if_neg (by simpa using out)]
  · simp [releaseState_cluster]
  · intro n out
    rw [releaseState_cluster,if_neg (fun same => out c (by simp) same.symm)]

theorem Released.cons {s s' s'' : DriverState} {c : Cell} {xs : List Cell} (head : Released s s' [c])
    (tail : Released s' s'' xs) : Released s s'' (c :: xs) := by
  refine ⟨?_,?_,?_,?_⟩
  · intro x member
    by_cases inTail : x ∈ xs
    · exact tail.freed x inTail
    · rw [tail.mapFrame x inTail]
      have isHead : x = c := by simpa [inTail] using member
      exact head.freed x (by simp [isHead])
  · intro x out
    obtain ⟨notHead,notTail⟩ := not_or.mp (List.mem_cons.not.mp out)
    rw [tail.mapFrame x notTail,head.mapFrame x (by simpa using notHead)]
  · intro x member
    by_cases inTail : x ∈ xs
    · exact tail.emptied x inTail
    · have isHead : x = c := by simpa [inTail] using member
      rw [tail.clusterFrame x (fun y inY same => inTail (Fin.ext same ▸ inY))]
      exact head.emptied x (by simp [isHead])
  · intro n out
    rw [tail.clusterFrame n (fun y inY => out y (List.mem_cons_of_mem _ inY)),
      head.clusterFrame n (fun y inY => out y (by simp [List.mem_singleton.mp inY]))]

-- Induction along the chain: each turn reads a successor before it clears the
-- cell, and the chain never comes back to a cleared one.
theorem deleteLoop_chain {s : DriverState} {c : Cell} {rest : List Cell} (fuel : Nat)
    (chain : FatChain s (cellNumber c) (c :: rest)) (enough : rest.length ≤ fuel) :
    ∃ s', deleteLoop fuel s (cellNumber c) = some s' ∧ Released s s' (c :: rest) := by
  induction rest generalizing c s fuel with
  | nil =>
    obtain ⟨rest,list,onward⟩ := chain.ptr_cons cells_pointers
    cases list
    have ends : s.cluster_map c = FAT32_FAT_END_OF_FILE := by
      generalize s.cluster_map c = held at onward
      cases onward
      rfl
    refine ⟨(s.writeCluster emptyCluster (cellNumber c)).setCell c 0,?_,?_⟩
    · unfold deleteLoop
      simp only [cellNumber_toNat,c.isLt,dite_true,ends,if_true]
    · have same := releaseState_released s c
      exact ⟨same.freed,same.mapFrame,same.emptied,same.clusterFrame⟩
  | cons next rest ih =>
    cases fuel with
    | zero => simp at enough
    | succ fuel =>
      obtain ⟨onwardList,list,onward⟩ := chain.ptr_cons cells_pointers
      cases list
      have held : s.cluster_map c = cellNumber next := by
        generalize s.cluster_map c = held at onward
        cases onward
        rfl
      have notEnd : s.cluster_map c ≠ FAT32_FAT_END_OF_FILE := held ▸ cellNumber_ne_end next
      have distinct := List.nodup_cons.mp (chain.nodup cells_pointers)
      have kept : FatChain (releaseState s c) (cellNumber next) (next :: rest) := by
        rw [held] at onward
        refine onward.congr fun x member => ?_
        rw [releaseState_map,if_neg]
        rintro rfl
        exact distinct.1 member
      obtain ⟨s',ran,released⟩ := ih fuel kept (by simpa using enough)
      refine ⟨s',?_,(releaseState_released s c).cons released⟩
      unfold deleteLoop
      simp only [cellNumber_toNat,c.isLt,dite_true,if_neg notEnd]
      rw [held]
      exact ran

-- Every cell other than cell 0 is pointed at by one taken cell at most, and never
-- when it is free. (The number of cell 0 is the value of a free cell.)
structure Straight (map : ClusterMap) : Prop where
  occupied : ∀ b j, map b = cellNumber j → j.val ≠ 0 → map j ≠ 0
  single : ∀ b b' j, j.val ≠ 0 → map b = cellNumber j → map b' = cellNumber j → b = b'

theorem Straight.release {map : ClusterMap} (h : Straight map) {c : Cell}
    (unpointed : c.val ≠ 0 → ∀ b, map b ≠ cellNumber c) : Straight (Function.update map c 0) := by
  have old : ∀ b j, Function.update map c 0 b = cellNumber j → j.val ≠ 0 → map b = cellNumber j := by
    intro b j points nonzero
    by_cases here : b = c
    · rw [here,Function.update_self] at points
      exact absurd (cellNumber_eq_zero.mp points.symm) nonzero
    · rwa [Function.update_of_ne here] at points
  refine ⟨fun b j points nonzero => ?_,fun b b' j nonzero left right => ?_⟩
  · have former := old b j points nonzero
    have other : j ≠ c := by
      rintro rfl
      exact unpointed nonzero b former
    rw [Function.update_of_ne other]
    exact h.occupied b j former nonzero
  · exact h.single b b' j nonzero (old b j left nonzero) (old b' j right nonzero)

theorem deleteLoop_inside {fuel : Nat} {s s' : DriverState} {p : Word} (ran : deleteLoop fuel s p = some s') :
    ∃ c, p = cellNumber c := by
  by_cases within : p.toNat < CLUSTER_MAP_SIZE
  · exact ⟨⟨_,within⟩,(cellNumber_of_lt _ within).symm⟩
  · unfold deleteLoop at ran
    rw [dif_neg within] at ran
    cases ran

-- Conversely, a walk that ends has gone from pointer to pointer: where these are
-- straight and none points at the start, it never came back to a cell it cleared.
theorem deleteLoop_some {fuel : Nat} {s s' : DriverState} {c : Cell} (straight : Straight s.cluster_map)
    (unpointed : c.val ≠ 0 → ∀ b, s.cluster_map b ≠ cellNumber c) (taken : s.cluster_map c ≠ 0)
    (ran : deleteLoop fuel s (cellNumber c) = some s') :
    ∃ rest, Released s s' (c :: rest) ∧
      ∀ j ∈ rest, j.val ≠ 0 ∧ ∃ b ∈ c :: rest, s.cluster_map b = cellNumber j := by
  induction fuel generalizing s c with
  | zero =>
    unfold deleteLoop at ran
    simp only [cellNumber_toNat,c.isLt,dite_true] at ran
    split at ran
    · cases ran
      exact ⟨[],releaseState_released s c,by simp⟩
    · cases ran
  | succ fuel ih =>
    unfold deleteLoop at ran
    simp only [cellNumber_toNat,c.isLt,dite_true] at ran
    split at ran
    · cases ran
      exact ⟨[],releaseState_released s c,by simp⟩
    · obtain ⟨next,points⟩ : ∃ next, s.cluster_map c = cellNumber next := deleteLoop_inside ran
      have nonzero : next.val ≠ 0 := fun zero => taken (points.trans (cellNumber_eq_zero.mpr zero))
      have other : next ≠ c := by
        rintro rfl
        exact unpointed nonzero next points
      have released : (releaseState s c).cluster_map = Function.update s.cluster_map c 0 := rfl
      rw [Fin.eta,points] at ran
      obtain ⟨rest,tail,linked⟩ := @ih (releaseState s c) next (straight.release unpointed)
        (by
          intro _ b pointsB
          rw [releaseState_map] at pointsB
          split at pointsB
          · exact nonzero (cellNumber_eq_zero.mp pointsB.symm)
          · rename_i notC
            exact notC (straight.single b c next nonzero pointsB points))
        (by
          rw [releaseState_map,if_neg other]
          exact straight.occupied c next points nonzero)
        ran
      refine ⟨next :: rest,(releaseState_released s c).cons tail,fun j member => ?_⟩
      rcases List.mem_cons.mp member with rfl | inRest
      · exact ⟨nonzero,c,by simp,points⟩
      · obtain ⟨nonzeroJ,b,inChain,pointsB⟩ := linked j inRest
        refine ⟨nonzeroJ,b,List.mem_cons_of_mem _ inChain,?_⟩
        rw [releaseState_map] at pointsB
        split at pointsB
        · exact absurd (cellNumber_eq_zero.mp pointsB.symm) nonzeroJ
        · exact pointsB

-- The buffer after the copy loop of read: one cluster after the other.
def storeClusters (s : DriverState) : Memory → Word → List Cell → Memory
  | memory,_,[] => memory
  | memory,ptr,c :: rest =>
    storeClusters s (memory.store ptr (s.cluster c) CLUSTER_SIZE) (ptr + BitVec.ofNat 32 CLUSTER_SIZE) rest

theorem readLoop_chain {s : DriverState} {p : Word} {xs : List Cell} (fuel : Nat) (memory : Memory) (ptr : Word)
    (chain : FatChain s p xs) (enough : xs.length ≤ fuel) :
    readLoop s fuel memory ptr p = some (storeClusters s memory ptr xs) := by
  induction chain generalizing fuel memory ptr with
  | stop => unfold readLoop; simp [storeClusters]
  | @link c rest onward ih =>
    cases fuel with
    | zero => simp at enough
    | succ fuel =>
      unfold readLoop
      rw [if_neg (cellNumber_ne_end c)]
      simp only [cellNumber_toNat,c.isLt,dite_true,Fin.eta]
      rw [ih _ _ _ (by simpa using enough),storeClusters,read_clusters_eq,slot_cellNumber]
      rfl

-- Byte by byte, as long as the copy does not wrap around the address space.
theorem storeClusters_apply (s : DriverState) (memory : Memory) (ptr a : Word) (xs : List Cell)
    (small : CLUSTER_SIZE * xs.length ≤ 2^32) :
    storeClusters s memory ptr xs a =
      if inside : (a-ptr).toNat / CLUSTER_SIZE < xs.length then
        s.cluster xs[(a-ptr).toNat / CLUSTER_SIZE] ((a-ptr).toNat % CLUSTER_SIZE)
      else memory a := by
  induction xs generalizing memory ptr with
  | nil => simp [storeClusters]
  | cons c rest ih =>
    have bound : 2048 * (rest.length+1) ≤ 2^32 := small
    have shifted : (a - (ptr + BitVec.ofNat 32 CLUSTER_SIZE)).toNat = (2^32 - 2048 + (a-ptr).toNat) % 2^32 := by
      rw [← BitVec.sub_sub,BitVec.toNat_sub]
      rfl
    have range := (a-ptr).isLt
    rw [storeClusters,ih _ _ (show 2048 * rest.length ≤ 2^32 by omega)]
    simp only [shifted,Memory.store,List.length_cons,CLUSTER_SIZE]
    generalize (a-ptr).toNat = d at *
    by_cases first : d < 2048
    · have quotient : d / 2048 = 0 := Nat.div_eq_of_lt first
      have remainder : d % 2048 = d := Nat.mod_eq_of_lt first
      have far : ¬ (2^32 - 2048 + d) % 2^32 / 2048 < rest.length := by omega
      simp only [dif_neg far,if_pos first,quotient,remainder]
      simp
    · have moved : (2^32 - 2048 + d) % 2^32 = d - 2048 := by omega
      have quotient : d / 2048 = (d-2048) / 2048 + 1 := by omega
      have remainder : d % 2048 = (d-2048) % 2048 := by omega
      simp only [moved,quotient,remainder,if_neg first,Nat.add_lt_add_iff_right,List.getElem_cons_succ]

-- Read back through the same pointer: a chain is too short to wrap.
theorem storeClusters_at {s : DriverState} {p : Word} {xs : List Cell} (chain : FatChain s p xs) (memory : Memory)
    (ptr : Word) {k : Nat} (range : k < 2^32) :
    (storeClusters s memory ptr xs).at ptr k =
      if inside : k / CLUSTER_SIZE < xs.length then s.cluster xs[k / CLUSTER_SIZE] (k % CLUSTER_SIZE)
      else memory.at ptr k := by
  have few := Chain.length_le cells_pointers chain
  rw [Fintype.card_fin] at few
  have offset : (ptr + BitVec.ofNat 32 k - ptr).toNat = k := by
    rw [BitVec.add_comm,BitVec.add_sub_cancel,BitVec.toNat_ofNat]
    exact Nat.mod_eq_of_lt range
  rw [Memory.at,storeClusters_apply _ _ _ _ _ (by simp only [CLUSTER_SIZE,CLUSTER_MAP_SIZE] at *; omega)]
  simp only [offset,Memory.at]

theorem ceil_eq (size : Nat) : ceil size = (size + 2047) / 2048 := by
  simp only [ceil,CLUSTER_SIZE]
  split <;> omega

-- A write that passes the four checks before the first store, with the slot and
-- the first cell the two searches give it.
structure Writable (s : DriverState) (request : FAT32DriverRequest) (i : Fin DIRECTORY_ENTRY_COUNT) (c : Cell) : Prop where
  directory : (s.directory request.parent_cluster_number 0).attr = ATTR_SUBDIRECTORY
  absent : findEntry (s.directory request.parent_cluster_number) request.name request.ext = none
  vacant : findIdxEmptyEntry (s.directory request.parent_cluster_number) = some i
  room : findEmptySpace s.cluster_map = some c

def enteredState (s : DriverState) (request : FAT32DriverRequest) (i : Fin DIRECTORY_ENTRY_COUNT) (c : Cell) : DriverState :=
  s.writeDirectory (addEntry (s.directory request.parent_cluster_number) request i (cellNumber c))
    request.parent_cluster_number

def folderState (s : DriverState) (request : FAT32DriverRequest) (i : Fin DIRECTORY_ENTRY_COUNT) (c : Cell) : DriverState :=
  let s := (enteredState s request i c).writeDirectory
    (init_directory_table zeroTable request.name request.parent_cluster_number) (cellNumber c)
  (s.setCell c FAT32_FAT_END_OF_FILE).writeFat

theorem write_refused {s : DriverState} {request : FAT32DriverRequest} (refused : ∀ i c, ¬ Writable s request i c) :
    ∃ code : Int, code ≠ 0 ∧ ∀ memory, write s memory request = some (code,s) := by
  by_cases directory : (s.directory request.parent_cluster_number 0).attr = ATTR_SUBDIRECTORY
  · cases absent : findEntry (s.directory request.parent_cluster_number) request.name request.ext with
    | some _ => exact ⟨1,by decide,fun memory => by simp [write,directory,absent]⟩
    | none =>
      cases vacant : findIdxEmptyEntry (s.directory request.parent_cluster_number) with
      | none => exact ⟨-1,by decide,fun memory => by simp [write,directory,absent,vacant]⟩
      | some i =>
        cases room : findEmptySpace s.cluster_map with
        | none => exact ⟨-1,by decide,fun memory => by simp [write,directory,absent,vacant,room]⟩
        | some c => exact absurd ⟨directory,absent,vacant,room⟩ (refused i c)
  · exact ⟨2,by decide,fun memory => by simp [write,directory]⟩

theorem Writable.write_folder {s : DriverState} {request : FAT32DriverRequest} {i : Fin DIRECTORY_ENTRY_COUNT}
    {c : Cell} (w : Writable s request i c) (memory : Memory) (folder : request.buffer_size = 0) :
    write s memory request = some (0,folderState s request i c) := by
  simp [write,w.directory,w.absent,w.vacant,w.room,folder,folderState,enteredState]

-- The clusters still free, which is what decides whether a copy loop gets through.
def freeCells (fat : ClusterMap) : Finset Cell := Finset.univ.filter fun c => fat c = 0

theorem mem_freeCells {fat : ClusterMap} {c : Cell} : c ∈ freeCells fat ↔ fat c = 0 := by simp [freeCells]

theorem Writable.write_file {s : DriverState} {request : FAT32DriverRequest} {i : Fin DIRECTORY_ENTRY_COUNT}
    {c : Cell} (w : Writable s request i c) (memory : Memory) (file : request.buffer_size ≠ 0) :
    ∃ s' rest, Appended (memory.at request.buf) 0 none (enteredState s request i c) s' (c :: rest) ∧
      (ceil request.buffer_size.toNat ≤ (freeCells s.cluster_map).card →
        (c :: rest).length = ceil request.buffer_size.toNat ∧
        write s memory request = some (0,s'.writeFat)) ∧
      ((freeCells s.cluster_map).card < ceil request.buffer_size.toNat →
        (c :: rest).length < ceil request.buffer_size.toNat ∧
        write s memory request = some (-1,s')) := by
  have room : findEmptySpace (enteredState s request i c).cluster_map = some c := w.room
  obtain ⟨done,s',ran⟩ := writeLoop_defined (memory.at request.buf) (ceil request.buffer_size.toNat) 0 none
    (enteredState s request i c) (Or.inr (Or.inr (by rw [room]; rfl)))
  have written : write s memory request = some (if done then (0,s'.writeFat) else (-1,s')) := by
    have loop := ran
    unfold enteredState at loop
    simp only [write,w.directory,w.absent,w.vacant,w.room,ne_eq,not_true_eq_false,if_false,if_neg file,loop,
      Option.map_some]
  have positive : 0 < ceil request.buffer_size.toNat := by
    have nonzero : request.buffer_size.toNat ≠ 0 := fun zero => file (BitVec.eq_of_toNat_eq zero)
    rw [ceil_eq]
    omega
  obtain ⟨cs,appended,starts,complete,short⟩ := writeLoop_parts (by simp) ran
  have first : cs.head? = some c := (starts positive).trans room
  obtain ⟨rest,rfl⟩ : ∃ rest, cs = c :: rest := by
    cases cs with
    | nil => simp at first
    | cons d rest => simp only [List.head?_cons,Option.some.injEq] at first; exact ⟨rest,by rw [first]⟩
  have distinct := appended.chain.nodup cells_pointers
  have taken : (c :: rest).toFinset ⊆ freeCells s.cluster_map := fun x member =>
    mem_freeCells.mpr (appended.fresh x (List.mem_toFinset.mp member))
  have size : (c :: rest).toFinset.card = (c :: rest).length := List.toFinset_card_of_nodup distinct
  have bounded := Finset.card_le_card taken
  refine ⟨s',rest,appended,fun enough => ?_,fun few => ?_⟩
  · cases done with
    | true => exact ⟨complete rfl,written⟩
    | false =>
      obtain ⟨less,all⟩ := short rfl
      have covered : freeCells s.cluster_map ⊆ (c :: rest).toFinset := fun x free =>
        List.mem_toFinset.mpr (all x (mem_freeCells.mp free))
      have counts := Finset.card_le_card covered
      omega
  · cases done with
    | true =>
      have exactly := complete rfl
      omega
    | false => exact ⟨(short rfl).1,written⟩

-- delete, by what its search finds.
theorem delete_absent {s : DriverState} {request : FAT32DriverRequest}
    (absent : findEntry (s.directory request.parent_cluster_number) request.name request.ext = none) :
    delete s request = some (1,s) := by simp [delete,absent]

section present
variable {s : DriverState} {request : FAT32DriverRequest} {i : Fin DIRECTORY_ENTRY_COUNT}
  (found : findEntry (s.directory request.parent_cluster_number) request.name request.ext = some i)
include found

theorem delete_occupied (folder : (s.directory request.parent_cluster_number i).attr = ATTR_SUBDIRECTORY)
    (occupied : isEmptyDir (s.directory (s.directory request.parent_cluster_number i).cluster) = false) :
    delete s request = some (2,s) := by simp [delete,found,folder,occupied]

def removedState (s : DriverState) (request : FAT32DriverRequest) (i : Fin DIRECTORY_ENTRY_COUNT)
    (released : DriverState) : DriverState :=
  (released.writeDirectory (deleteEntry (s.directory request.parent_cluster_number) i)
    request.parent_cluster_number).writeFat

theorem delete_folder {c : Cell} (folder : (s.directory request.parent_cluster_number i).attr = ATTR_SUBDIRECTORY)
    (at_ : (s.directory request.parent_cluster_number i).cluster = cellNumber c)
    (empty : isEmptyDir (s.directory (s.directory request.parent_cluster_number i).cluster) = true) :
    delete s request = some (0,removedState s request i
      ((s.writeDirectory zeroTable (cellNumber c)).setCell c 0)) := by
  rw [at_,DriverState.directory_cell] at empty
  simp [delete,found,folder,at_,empty,removedState]

theorem delete_file {c : Cell} {rest : List Cell}
    (file : (s.directory request.parent_cluster_number i).attr ≠ ATTR_SUBDIRECTORY)
    (at_ : (s.directory request.parent_cluster_number i).cluster = cellNumber c)
    (chain : FatChain s (cellNumber c) (c :: rest)) :
    ∃ s', Released s s' (c :: rest) ∧ delete s request = some (0,removedState s request i s') := by
  have length := chain.length_le cells_pointers
  rw [Fintype.card_fin] at length
  obtain ⟨s',ran,released⟩ := deleteLoop_chain walkFuel chain (by
    simp only [List.length_cons] at length
    simp only [walkFuel]
    omega)
  refine ⟨s',released,?_⟩
  simp [delete,found,file,at_,ran,removedState]

end present

theorem delete_parts {s s' : DriverState} {request : FAT32DriverRequest} {code : Int}
    (ran : delete s request = some (code,s')) : code ≠ 0 ∧ s' = s ∨ code = 0 ∧
      ∃ i, findEntry (s.directory request.parent_cluster_number) request.name request.ext = some i ∧
        ((∃ c, (s.directory request.parent_cluster_number i).cluster = cellNumber c ∧
          s' = removedState s request i ((s.writeDirectory zeroTable (cellNumber c)).setCell c 0)) ∨
        ∃ r, deleteLoop walkFuel s (s.directory request.parent_cluster_number i).cluster = some r ∧
          s' = removedState s request i r) := by
  cases found : findEntry (s.directory request.parent_cluster_number) request.name request.ext with
  | none =>
    rw [delete_absent found] at ran
    cases ran
    exact Or.inl ⟨by decide,rfl⟩
  | some i =>
    by_cases folder : (s.directory request.parent_cluster_number i).attr = ATTR_SUBDIRECTORY
    · cases empty : isEmptyDir (s.directory (s.directory request.parent_cluster_number i).cluster) with
      | false =>
        rw [delete_occupied found folder empty] at ran
        cases ran
        exact Or.inl ⟨by decide,rfl⟩
      | true =>
        have bound : (s.directory request.parent_cluster_number i).cluster.toNat < CLUSTER_MAP_SIZE := by
          by_contra outside
          simp [delete,found,folder,empty,outside] at ran
        have at_ := (cellNumber_of_lt _ bound).symm
        rw [delete_folder found folder at_ empty] at ran
        cases ran
        exact Or.inr ⟨rfl,i,rfl,Or.inl ⟨_,at_,rfl⟩⟩
    · cases walked : deleteLoop walkFuel s (s.directory request.parent_cluster_number i).cluster with
      | none => simp [delete,found,folder,walked] at ran
      | some r =>
        simp only [delete,found,folder,walked,if_false,Option.map_some,Option.some.injEq,Prod.mk.injEq] at ran
        obtain ⟨rfl,rfl⟩ := ran
        exact Or.inr ⟨rfl,i,rfl,Or.inr ⟨r,walked,rfl⟩⟩

-- read, by what its search finds.
theorem read_found (s : DriverState) (request : FAT32DriverRequest) {i : Fin DIRECTORY_ENTRY_COUNT} {xs : List Cell}
    (found : findEntry (s.directory request.parent_cluster_number) request.name request.ext = some i)
    (chain : FatChain s (s.directory request.parent_cluster_number i).cluster xs) (memory : Memory) :
    read s memory request = some (
      if request.buffer_size < (s.directory request.parent_cluster_number i).filesize then (2,memory)
      else if (s.directory request.parent_cluster_number i).attr = ATTR_SUBDIRECTORY then (1,memory)
      else (0,storeClusters s memory request.buf xs)) := by
  have length := chain.length_le cells_pointers
  rw [Fintype.card_fin] at length
  have loop := readLoop_chain walkFuel memory request.buf chain
    (by simp only [walkFuel]; omega)
  simp only [read,found]
  split
  · rfl
  · split
    · rfl
    · rw [loop]; rfl

end Sosis.Fat32
