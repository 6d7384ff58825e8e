import Sosis.Fat32Failure

-- The two loops that follow cluster_map, on any drive and any FAT: when they end, what
-- the one of read stores, and where the one of delete goes in a FAT it is clearing.
namespace Sosis.Fat32
open ByteRecords FirstFit LinkedCells TransitionRuns

theorem readLoop_parts {s : DriverState} {fuel : Nat} {memory memory' : Memory} {ptr p : Word}
    (ran : readLoop s fuel memory ptr p = some memory') :
    ∃ xs, FatChain s p xs ∧ memory' = storeClusters s memory ptr xs := by
  induction fuel generalizing memory ptr p with
  | zero =>
    unfold readLoop at ran
    split at ran
    · rename_i ends
      cases ran
      exact ⟨[],ends ▸ .stop,rfl⟩
    · cases ran
  | succ fuel ih =>
    unfold readLoop at ran
    split at ran
    · rename_i ends
      cases ran
      exact ⟨[],ends ▸ .stop,rfl⟩
    · by_cases bound : p.toNat < CLUSTER_MAP_SIZE
      · obtain ⟨c,rfl⟩ : ∃ c, p = cellNumber c := ⟨_,(cellNumber_of_lt p bound).symm⟩
        simp only [cellNumber_toNat,c.isLt,dite_true,Fin.eta,read_clusters_eq,slot_cellNumber] at ran
        obtain ⟨xs,chain,same⟩ := ih ran
        exact ⟨c :: xs,.link chain,same⟩
      · simp only [bound,dite_false] at ran
        cases ran

-- The request reaches the copy loop of read with the entry at `i`.
structure Reads (s : DriverState) (request : FAT32DriverRequest) (i : Fin DIRECTORY_ENTRY_COUNT) : Prop where
  found : findEntry (s.directory request.parent_cluster_number) request.name request.ext = some i
  fits : ¬ request.buffer_size < (s.directory request.parent_cluster_number i).filesize
  file : (s.directory request.parent_cluster_number i).attr ≠ ATTR_SUBDIRECTORY

section reads
variable {s : DriverState} {request : FAT32DriverRequest} {i : Fin DIRECTORY_ENTRY_COUNT}

theorem Reads.read_eq (reads : Reads s request i) (memory : Memory) : read s memory request =
    (readLoop s walkFuel memory request.buf (s.directory request.parent_cluster_number i).cluster).map fun m => (0,m) := by
  simp only [read,reads.found,reads.fits,reads.file,if_false]

theorem read_refused (refused : ∀ i, ¬ Reads s request i) :
    ∃ code : Int, code ≠ 0 ∧ ∀ memory, read s memory request = some (code,memory) := by
  cases found : findEntry (s.directory request.parent_cluster_number) request.name request.ext with
  | none => exact ⟨3,by decide,fun memory => by simp only [read,found]⟩
  | some i =>
    by_cases fits : request.buffer_size < (s.directory request.parent_cluster_number i).filesize
    · exact ⟨2,by decide,fun memory => by simp only [read,found,fits,if_true]⟩
    · by_cases file : (s.directory request.parent_cluster_number i).attr = ATTR_SUBDIRECTORY
      · exact ⟨1,by decide,fun memory => by simp only [read,found,fits,file,if_true,if_false]⟩
      · exact absurd ⟨found,fits,file⟩ (refused i)

theorem Reads.read_some (reads : Reads s request i) {memory : Memory} {result : Int × Memory} :
    read s memory request = some result ↔ ∃ xs, FatChain s (s.directory request.parent_cluster_number i).cluster xs ∧
      result = (0,storeClusters s memory request.buf xs) := by
  rw [reads.read_eq]
  constructor
  · intro ran
    obtain ⟨memory',walked,rfl⟩ := Option.map_eq_some_iff.mp ran
    obtain ⟨xs,chain,rfl⟩ := readLoop_parts walked
    exact ⟨xs,chain,rfl⟩
  · intro ⟨xs,chain,same⟩
    have few := chain.length_le cells_pointers
    rw [Fintype.card_fin] at few
    rw [readLoop_chain walkFuel memory request.buf chain (Nat.le_succ_of_le few),same]
    rfl

end reads

-- No byte is stored outside the caller's buffer, whatever the call answers.
def RespectsBuffer (s : DriverState) (request : FAT32DriverRequest) : Prop :=
  ∀ memory, ∃ code memory', read s memory request = some (code,memory') ∧
    ∀ a : Word, request.buffer_size.toNat ≤ (a - request.buf).toNat → memory' a = memory a

-- The chain of an entry that is read ends, and its clusters fit into the buffer.
def ClustersFit (s : DriverState) (request : FAT32DriverRequest) : Prop :=
  ∀ i, Reads s request i → ∃ xs, FatChain s (s.directory request.parent_cluster_number i).cluster xs ∧
    CLUSTER_SIZE * xs.length ≤ request.buffer_size.toNat

theorem FatChain.short {s : DriverState} {p : Word} {xs : List Cell} (chain : FatChain s p xs) :
    CLUSTER_SIZE * xs.length ≤ 2^20 := by
  have few := Chain.length_le cells_pointers chain
  rw [Fintype.card_fin] at few
  simp only [CLUSTER_SIZE,CLUSTER_MAP_SIZE] at *
  omega

theorem respectsBuffer_exact (s : DriverState) (request : FAT32DriverRequest) :
    RespectsBuffer s request ↔ ClustersFit s request := by
  constructor
  · intro respects i reads
    obtain ⟨code,memory',ran,kept⟩ := respects fun _ => 0
    obtain ⟨xs,chain,_⟩ := reads.read_some.mp ran
    refine ⟨xs,chain,Nat.le_of_not_lt fun long => ?_⟩
    -- the first byte behind the buffer, in a memory that holds something else there
    have range : request.buffer_size.toNat / CLUSTER_SIZE < xs.length := Nat.div_lt_of_lt_mul long
    have offset : (request.buf + request.buffer_size - request.buf).toNat = request.buffer_size.toNat := by
      rw [BitVec.add_comm,BitVec.add_sub_cancel]
    obtain ⟨code,after,ran,kept⟩ := respects fun _ =>
      s.cluster xs[request.buffer_size.toNat / CLUSTER_SIZE] (request.buffer_size.toNat % CLUSTER_SIZE) + 1
    obtain ⟨ys,chain',same⟩ := reads.read_some.mp ran
    cases Chain.unique cells_pointers chain chain'
    cases same
    have stored := kept (request.buf + request.buffer_size) (Nat.le_of_eq offset.symm)
    rw [storeClusters_apply _ _ _ _ _ (Nat.le_trans (FatChain.short chain) (by decide))] at stored
    simp only [offset,dif_pos range] at stored
    exact absurd stored.symm (by generalize s.cluster _ _ = b; revert b; decide)
  · intro fit memory
    by_cases refused : ∀ i, ¬ Reads s request i
    · obtain ⟨code,_,answer⟩ := read_refused refused
      exact ⟨code,memory,answer memory,fun _ _ => rfl⟩
    · obtain ⟨i,reads⟩ := not_forall_not.mp refused
      obtain ⟨xs,chain,small⟩ := fit i reads
      refine ⟨0,_,reads.read_some.mpr ⟨xs,chain,rfl⟩,fun a beyond => ?_⟩
      rw [storeClusters_apply _ _ _ _ _ (Nat.le_trans (FatChain.short chain) (by decide)),dif_neg]
      simp only [CLUSTER_SIZE] at *
      omega

-- A file of one byte is read by copying its whole cluster.
def oneByte : List FsAction := [.write blankMemory (rootRequest 'A' 1)]

theorem oneByte_overruns : ∃ history v, Run Volume.NamedStep (formatted blankDrive) history v ∧
    history.map Transition.action = oneByte ∧ ¬ RespectsBuffer v.driver (rootRequest 'A' 1) := by
  obtain ⟨history,v,run,actions,replayed⟩ := rootRun (formatted_intact blankDrive) oneByte fun a member => by
    cases List.mem_singleton.mp member
    exact ⟨rfl,rootRequest_named _ _ (by decide)⟩
  refine ⟨history,v,run,actions,fun respects => ?_⟩
  have overruns : (replay (create_fat32 blankDrive) oneByte).any (fun s =>
      (read s (fun _ => 1) (rootRequest 'A' 1)).any fun result => result.2 1 = 0) = true := by decide +kernel
  rw [show replay (create_fat32 blankDrive) oneByte = some v.driver from replayed,Option.any_some] at overruns
  obtain ⟨code,memory',ran,kept⟩ := respects fun _ => 1
  rw [ran,Option.any_some,decide_eq_true_eq] at overruns
  exact absurd (overruns.symm.trans (kept 1 (by decide))) (by decide)

-- Where the walk of delete goes when it comes back to a cell it has cleared: that cell
-- now points at cell 0, and the walk ends if the chain from there does without meeting
-- another cleared one.
structure Lasso (s : DriverState) (p : Word) (ys zs : List Cell) : Prop where
  again : ∃ c ∈ ys, Path s.cluster_map cellNumber p ys (cellNumber c)
  distinct : ys.Nodup
  nonzero : ∀ y ∈ ys, y.val ≠ 0
  onward : FatChain s 0 zs
  apart : ∀ z ∈ zs, z ∉ ys

def WalkEnds (s : DriverState) (p : Word) : Prop :=
  (p ≠ FAT32_FAT_END_OF_FILE ∧ ∃ xs, FatChain s p xs) ∨ ∃ ys zs, Lasso s p ys zs

section lasso
variable {s : DriverState} {p : Word} {c : Cell} {xs ys zs : List Cell}

theorem cellNumber_zero {z : Cell} (zero : z.val = 0) : cellNumber z = 0 := cellNumber_eq_zero.mpr zero

theorem zero_mem (chain : FatChain s 0 zs) {z : Cell} (zero : z.val = 0) : z ∈ zs := by
  rw [← cellNumber_zero zero] at chain
  exact Chain.of_ptr cells_pointers chain

theorem releaseState_here : (releaseState s c).cluster_map c = 0 := by rw [releaseState_map,if_pos rfl]

theorem releaseState_other {x : Cell} (other : x ≠ c) : (releaseState s c).cluster_map x = s.cluster_map x := by
  rw [releaseState_map,if_neg other]

-- Back to the FAT as it was before the turn that cleared `c`.
theorem FatChain.unrelease {q : Word} (chain : FatChain (releaseState s c) q xs) (out : c ∉ xs) : FatChain s q xs :=
  Chain.congr chain fun x member => (releaseState_other fun same => out (by rwa [← same])).symm

theorem Lasso.cons (lasso : Lasso (releaseState s c) (s.cluster_map c) ys zs) : Lasso s (cellNumber c) (c :: ys) zs := by
  obtain ⟨b,member,path⟩ := lasso.again
  have notOn : c ∉ ys := by
    intro on
    have points : ∃ j ∈ ys, (releaseState s c).cluster_map c = cellNumber j := by
      rcases path.cell_of_mem on with last | inner
      · exact ⟨b,member,last⟩
      · exact inner
    obtain ⟨j,inYs,held⟩ := points
    rw [releaseState_here] at held
    exact lasso.nonzero j inYs (cellNumber_eq_zero.mp held.symm)
  have notOnward : c ∉ zs := by
    intro on
    obtain ⟨z,rest,rfl⟩ := List.exists_cons_of_ne_nil (List.ne_nil_of_mem on)
    have first : (⟨0,by decide⟩ : Cell) ∈ z :: rest := zero_mem lasso.onward rfl
    have start := lasso.onward
    rw [← cellNumber_zero (show (⟨0,by decide⟩ : Cell).val = 0 from rfl)] at start
    obtain ⟨_,list,_⟩ := start.ptr_cons cells_pointers
    cases list
    refine Chain.head_unpointed cells_pointers start on ?_
    rw [releaseState_here,cellNumber_zero rfl]
  refine ⟨⟨b,List.mem_cons_of_mem _ member,.cons (path.congr fun x inYs => ?_)⟩,List.nodup_cons.mpr ⟨notOn,lasso.distinct⟩,?_,
    FatChain.unrelease lasso.onward notOnward,?_⟩
  · exact (releaseState_other fun same => notOn (by rwa [← same])).symm
  · intro y inCons
    rcases List.mem_cons.mp inCons with rfl | inYs
    · exact fun zero => notOnward (zero_mem lasso.onward zero)
    · exact lasso.nonzero y inYs
  · intro z inZs inCons
    rcases List.mem_cons.mp inCons with rfl | inYs
    · exact notOnward inZs
    · exact lasso.apart z inZs inYs

-- A chain of the cleared FAT that meets `c` is a lasso of the FAT before: from `c` it
-- goes on at cell 0.
theorem Lasso.of_chain (chain : FatChain (releaseState s c) (s.cluster_map c) xs) (member : c ∈ xs) :
    ∃ ys zs, Lasso s (cellNumber c) ys zs := by
  obtain ⟨earlier,later,rfl⟩ := List.append_of_mem member
  have distinct := chain.nodup cells_pointers
  rw [List.nodup_append] at distinct
  obtain ⟨noneEarlier,laterDistinct,crossing⟩ := distinct
  obtain ⟨notLater,_⟩ := List.nodup_cons.mp laterDistinct
  have notEarlier : c ∉ earlier := fun on => crossing c on c (by simp) rfl
  obtain ⟨path,onward⟩ := Chain.split chain
  rw [releaseState_here] at onward
  have apart : ∀ z ∈ later, z ∉ c :: earlier := by
    intro z inLater inCons
    rcases List.mem_cons.mp inCons with rfl | inEarlier
    · exact notLater inLater
    · exact crossing z inEarlier z (List.mem_cons_of_mem _ inLater) rfl
  refine ⟨c :: earlier,later,⟨c,by simp,.cons (path.congr fun x on => ?_)⟩,List.nodup_cons.mpr ⟨notEarlier,noneEarlier⟩,
    fun y inCons zero => apart y (zero_mem onward zero) inCons,FatChain.unrelease onward notLater,apart⟩
  exact (releaseState_other fun same => notEarlier (by rwa [← same])).symm

theorem deleteLoop_ends {fuel : Nat} {s' : DriverState} (ran : deleteLoop fuel s p = some s') : WalkEnds s p := by
  induction fuel generalizing s p with
  | zero =>
    unfold deleteLoop at ran
    split at ran
    · rename_i bound
      obtain ⟨c,rfl⟩ : ∃ c, p = cellNumber c := ⟨_,(cellNumber_of_lt p bound).symm⟩
      simp only [cellNumber_toNat,Fin.eta] at ran
      split at ran
      · rename_i ends
        exact Or.inl ⟨cellNumber_ne_end c,[c],Chain.single ends⟩
      · cases ran
    · cases ran
  | succ fuel ih =>
    unfold deleteLoop at ran
    split at ran
    · rename_i bound
      obtain ⟨c,rfl⟩ : ∃ c, p = cellNumber c := ⟨_,(cellNumber_of_lt p bound).symm⟩
      simp only [cellNumber_toNat,Fin.eta] at ran
      split at ran
      · rename_i ends
        exact Or.inl ⟨cellNumber_ne_end c,[c],Chain.single ends⟩
      · rcases ih ran with ⟨_,zs,chain⟩ | ⟨ys,zs,lasso⟩
        · by_cases member : c ∈ zs
          · exact Or.inr (Lasso.of_chain chain member)
          · exact Or.inl ⟨cellNumber_ne_end c,c :: zs,.link (FatChain.unrelease chain member)⟩
        · exact Or.inr ⟨c :: ys,zs,Lasso.cons lasso⟩
    · cases ran

theorem deleteLoop_step (fuel : Nat) (more : s.cluster_map c ≠ FAT32_FAT_END_OF_FILE) :
    deleteLoop (fuel+1) s (cellNumber c) = deleteLoop fuel (releaseState s c) (s.cluster_map c) := by
  conv_lhs => unfold deleteLoop
  simp only [cellNumber_toNat,c.isLt,dite_true,Fin.eta,if_neg more]
  rfl

theorem released_map (ys : List Cell) (x : Cell) :
    (ys.foldl releaseState s).cluster_map x = if x ∈ ys then 0 else s.cluster_map x := by
  induction ys generalizing s with
  | nil => simp
  | cons y rest ih =>
    rw [List.foldl_cons,ih,releaseState_map]
    by_cases inRest : x ∈ rest
    · simp [inRest]
    · simp [inRest]

theorem deleteLoop_path {q : Word} (fuel : Nat) (path : Path s.cluster_map cellNumber p ys q)
    (onward : q ≠ FAT32_FAT_END_OF_FILE) (distinct : ys.Nodup) :
    deleteLoop (fuel + ys.length) s p = deleteLoop fuel (ys.foldl releaseState s) q := by
  induction ys generalizing s p with
  | nil => cases path; rfl
  | cons c rest ih =>
    cases path with
    | cons tail =>
      obtain ⟨out,restDistinct⟩ := List.nodup_cons.mp distinct
      rw [List.length_cons,← Nat.add_assoc,deleteLoop_step _ (tail.not_stop cells_pointers onward),List.foldl_cons]
      refine ih (tail.congr fun x member => releaseState_other ?_) restDistinct
      rintro rfl
      exact out member

theorem Lasso.deleteLoop_some (lasso : Lasso s p ys zs) : ∃ s', deleteLoop walkFuel s p = some s' := by
  obtain ⟨c,member,path⟩ := lasso.again
  have distinct : (ys ++ zs).Nodup :=
    List.nodup_append.mpr ⟨lasso.distinct,lasso.onward.nodup cells_pointers,fun y inYs z inZs same => lasso.apart z inZs (same ▸ inYs)⟩
  have few := distinct.length_le_card
  rw [Fintype.card_fin,List.length_append] at few
  have cleared : (ys.foldl releaseState s).cluster_map c = 0 := by rw [released_map,if_pos member]
  have kept : FatChain (releaseState (ys.foldl releaseState s) c) 0 zs := by
    refine Chain.congr lasso.onward fun z inZs => ?_
    have out := lasso.apart z inZs
    rw [releaseState_other (by rintro rfl; exact out member),released_map,if_neg out]
  have first : (⟨0,by decide⟩ : Cell) ∈ zs := zero_mem lasso.onward rfl
  rw [← cellNumber_zero (show (⟨0,by decide⟩ : Cell).val = 0 from rfl)] at kept
  obtain ⟨rest,rfl,_⟩ := kept.ptr_cons cells_pointers
  obtain ⟨s',ran,_⟩ := deleteLoop_chain (walkFuel - ys.length - 1) kept (by
    simp only [walkFuel,List.length_cons] at *
    omega)
  refine ⟨s',?_⟩
  have turns : walkFuel = (walkFuel - ys.length - 1) + 1 + ys.length := by
    simp only [walkFuel,List.length_cons] at *
    omega
  rw [turns,deleteLoop_path _ path (cellNumber_ne_end c) lasso.distinct,deleteLoop_step _ (by rw [cleared]; decide),cleared,
    ← cellNumber_zero (show (⟨0,by decide⟩ : Cell).val = 0 from rfl)]
  exact ran

theorem deleteLoop_some_iff : (∃ s', deleteLoop walkFuel s p = some s') ↔ WalkEnds s p := by
  constructor
  · intro ⟨s',ran⟩
    exact deleteLoop_ends ran
  · intro ends
    rcases ends with ⟨notEnd,xs,chain⟩ | ⟨ys,zs,lasso⟩
    · cases chain with
      | stop => exact absurd rfl notEnd
      | @link c rest onward =>
        have whole : FatChain s (cellNumber c) (c :: rest) := .link onward
        have few := whole.length_le cells_pointers
        rw [Fintype.card_fin,List.length_cons] at few
        obtain ⟨s',ran,_⟩ := deleteLoop_chain walkFuel whole (by simp only [walkFuel]; omega)
        exact ⟨s',ran⟩
    · exact lasso.deleteLoop_some

end lasso

-- What read and delete ask of the FAT. A delete of an entry marked as a directory
-- follows no chain, but clears the cell of its cluster if the directory is empty.
def ReadEnds (s : DriverState) (request : FAT32DriverRequest) : Prop :=
  ∀ i, Reads s request i → ∃ xs, FatChain s (s.directory request.parent_cluster_number i).cluster xs

def DeleteEnds (s : DriverState) (request : FAT32DriverRequest) : Prop :=
  ∀ i, findEntry (s.directory request.parent_cluster_number) request.name request.ext = some i →
    if (s.directory request.parent_cluster_number i).attr = ATTR_SUBDIRECTORY then
      isEmptyDir (s.directory (s.directory request.parent_cluster_number i).cluster) = true →
        (s.directory request.parent_cluster_number i).cluster.toNat < CLUSTER_MAP_SIZE
    else WalkEnds s (s.directory request.parent_cluster_number i).cluster

theorem read_isSome_iff (s : DriverState) (memory : Memory) (request : FAT32DriverRequest) :
    (read s memory request).isSome ↔ ReadEnds s request := by
  by_cases refused : ∀ i, ¬ Reads s request i
  · obtain ⟨code,_,answer⟩ := read_refused refused
    exact iff_of_true (by rw [answer memory]; rfl) fun i reads => absurd reads (refused i)
  · obtain ⟨i,reads⟩ := not_forall_not.mp refused
    rw [Option.isSome_iff_exists]
    constructor
    · intro ⟨result,ran⟩ j reads'
      cases reads.found.symm.trans reads'.found
      obtain ⟨xs,chain,_⟩ := reads.read_some.mp ran
      exact ⟨xs,chain⟩
    · intro ends
      obtain ⟨xs,chain⟩ := ends i reads
      exact ⟨_,reads.read_some.mpr ⟨xs,chain,rfl⟩⟩

theorem delete_isSome_iff (s : DriverState) (request : FAT32DriverRequest) :
    (delete s request).isSome ↔ DeleteEnds s request := by
  cases found : findEntry (s.directory request.parent_cluster_number) request.name request.ext with
  | none => simp [delete,DeleteEnds,found]
  | some i =>
    have entry : DeleteEnds s request ↔
        if (s.directory request.parent_cluster_number i).attr = ATTR_SUBDIRECTORY then
          isEmptyDir (s.directory (s.directory request.parent_cluster_number i).cluster) = true →
            (s.directory request.parent_cluster_number i).cluster.toNat < CLUSTER_MAP_SIZE
        else WalkEnds s (s.directory request.parent_cluster_number i).cluster := by
      simp [DeleteEnds,found]
    rw [entry]
    by_cases folder : (s.directory request.parent_cluster_number i).attr = ATTR_SUBDIRECTORY
    · rw [if_pos folder]
      cases empty : isEmptyDir (s.directory (s.directory request.parent_cluster_number i).cluster) with
      | false => simp [delete_occupied found folder empty]
      | true =>
        by_cases bound : (s.directory request.parent_cluster_number i).cluster.toNat < CLUSTER_MAP_SIZE
        · simp [delete,found,folder,empty,bound]
        · simp [delete,found,folder,empty,bound]
    · rw [if_neg folder,← deleteLoop_some_iff,← Option.isSome_iff_exists]
      simp [delete,found,folder]

-- The FAT of the calls is the one that mounting the drive has loaded.
theorem mounted_walks_end_iff (s : DriverState) (memory : Memory) (request : FAT32DriverRequest) :
    ((read (initialize_filesystem_fat32 s) memory request).isSome ↔ ReadEnds (initialize_filesystem_fat32 s) request) ∧
    ((delete (initialize_filesystem_fat32 s) request).isSome ↔ DeleteEnds (initialize_filesystem_fat32 s) request) :=
  ⟨read_isSome_iff _ memory request,delete_isSome_iff _ request⟩

-- A drive whose one file has a cluster that is its own successor.
def ringTable : DirectoryTable := addEntry rootTable (rootRequest 'A' 1) 2 3

def ringDrive : DriverState :=
  ((create_fat32 blankDrive).setCell 3 3).writeFat.writeDirectory ringTable ROOT_CLUSTER_NUMBER

theorem ringDrive_signed : is_empty_storage ringDrive = false := by
  have before := create_fat32_signed blankDrive
  rw [is_empty_storage_iff] at before ⊢
  unfold ringDrive
  rw [DriverState.writeDirectory_other _ (by rw [slot_root]; decide),DriverState.writeFat_other _ (by decide)]
  exact before

theorem ringDrive_mounted : initialize_filesystem_fat32 ringDrive = ringDrive := by
  refine ((rebootInvisible_iff ringDrive_signed).mpr ?_).state
  unfold ringDrive
  rw [DriverState.writeDirectory_other _ (by rw [slot_root]; decide),DriverState.writeFat_cluster,if_pos rfl]
  rfl

theorem ringDrive_root : ringDrive.directory ROOT_CLUSTER_NUMBER = ringTable := by
  unfold ringDrive
  rw [DriverState.directory_eq,DriverState.writeDirectory_table,if_pos rfl]

theorem ringDrive_hangs : is_empty_storage ringDrive = false ∧
    read (initialize_filesystem_fat32 ringDrive) blankMemory (rootRequest 'A' 1) = none ∧
    delete (initialize_filesystem_fat32 ringDrive) (rootRequest 'A' 0) = none := by
  have ring : ringDrive.cluster_map 3 = cellNumber 3 := by decide
  refine ⟨ringDrive_signed,Option.not_isSome_iff_eq_none.mp fun ends => ?_,?_⟩
  · rw [ringDrive_mounted] at ends
    have reads : Reads ringDrive (rootRequest 'A' 1) 2 := by
      refine ⟨?_,?_,?_⟩ <;> rw [show (rootRequest 'A' 1).parent_cluster_number = ROOT_CLUSTER_NUMBER from rfl,ringDrive_root]
      all_goals decide +kernel
    obtain ⟨xs,chain⟩ := (read_isSome_iff _ blankMemory _).mp ends 2 reads
    rw [show (rootRequest 'A' 1).parent_cluster_number = ROOT_CLUSTER_NUMBER from rfl,ringDrive_root,
      show (ringTable 2).cluster = cellNumber 3 by decide] at chain
    obtain ⟨rest,rfl,_⟩ := Chain.ptr_cons cells_pointers chain
    exact Chain.head_unpointed cells_pointers chain (List.mem_cons_self ..) ring
  · rw [ringDrive_mounted]
    exact Option.isNone_iff_eq_none.mp (by decide +kernel)

end Sosis.Fat32
