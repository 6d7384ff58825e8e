import Sosis.Fat32Effects

-- What the one early return inside the copy loop of write costs: it is taken after
-- the entry and some cells were stored, and before the FAT is.
namespace Sosis.Fat32
open ByteRecords LinkedCells TransitionRuns

theorem Refused.not_runsOut {s : DriverState} {a : FsAction} (refused : a.Refused s) : ¬ a.RunsOut s := by
  intro out
  cases a with
  | write memory request =>
    obtain ⟨_,⟨i,c,writable⟩,_⟩ := out
    exact refused i c writable
  | delete request => exact out

theorem write_failed {s s' : DriverState} {memory : Memory} {request : FAT32DriverRequest} {code : Int}
    (ran : write s memory request = some (code,s')) (failed : code ≠ 0) :
    s' = s ∧ ¬ (FsAction.write memory request).RunsOut s ∨
      (∃ c, s.cluster_map c = 0 ∧ s'.cluster_map c ≠ 0) ∧ (FsAction.write memory request).RunsOut s := by
  by_cases passes : ∃ i c, Writable s request i c
  · obtain ⟨i,c,writable⟩ := passes
    by_cases folder : request.buffer_size = 0
    · rw [writable.write_folder memory folder] at ran
      cases ran
      exact absurd rfl failed
    · obtain ⟨last,rest,appended,complete,short⟩ := writable.write_file memory folder
      by_cases enough : ceil request.buffer_size.toNat ≤ (freeCells s.cluster_map).card
      · rw [(complete enough).2] at ran
        cases ran
        exact absurd rfl failed
      · rw [(short (Nat.lt_of_not_le enough)).2] at ran
        cases ran
        exact Or.inr ⟨⟨c,appended.fresh c (by simp),appended.taken c (by simp)⟩,
          folder,⟨i,c,writable⟩,Nat.lt_of_not_le enough⟩
  · have refused : ∀ i c, ¬ Writable s request i c := fun i c writable => passes ⟨i,c,writable⟩
    obtain ⟨_,_,answer⟩ := write_refused refused
    rw [answer memory] at ran
    cases ran
    exact Or.inl ⟨rfl,fun out => passes out.2.1⟩

theorem failed_unchanged_iff {s s' : DriverState} {a : FsAction} {code : Int}
    (responded : a.respond s = some (code,s')) (failed : code ≠ 0) : s' = s ↔ ¬ a.RunsOut s := by
  cases a with
  | write memory request =>
    rcases write_failed responded failed with ⟨same,enough⟩ | ⟨⟨c,free,taken⟩,out⟩
    · exact iff_of_true same enough
    · refine iff_of_false (fun same => taken ?_) fun enough => enough out
      rw [same]
      exact free
  | delete request =>
    refine iff_of_true ?_ id
    rcases delete_parts responded with ⟨_,same⟩ | ⟨success,_⟩
    · exact same
    · exact absurd success failed

-- Formatting leaves 509 free clusters; one more than these is asked for.
def oversized : FAT32DriverRequest := rootRequest 'A' 1042433

theorem formatMap_free : (freeCells formatMap).card = 509 := by decide +kernel

theorem oversized_writable : ∃ i c, Writable (create_fat32 blankDrive) oversized i c :=
  ⟨2,3,by decide +kernel,by decide +kernel,by decide +kernel,by decide +kernel⟩

theorem oversized_runsOut : (FsAction.write blankMemory oversized).RunsOut (create_fat32 blankDrive) := by
  refine ⟨by decide,oversized_writable,?_⟩
  have size : oversized.buffer_size.toNat = 1042433 := rfl
  rw [show (create_fat32 blankDrive).cluster_map = formatMap from rfl,formatMap_free,ceil_eq,size]
  omega

theorem oversized_fails : ∃ s', (FsAction.write blankMemory oversized).respond (create_fat32 blankDrive) = some (-1,s') := by
  obtain ⟨data,⟨i,c,writable⟩,few⟩ := oversized_runsOut
  obtain ⟨s',_,_,_,short⟩ := writable.write_file blankMemory data
  exact ⟨s',(short few).2⟩

theorem failed_unchanged_iff_oversized : ∃ s',
    (FsAction.write blankMemory oversized).respond (create_fat32 blankDrive) = some (-1,s') ∧
    (s' = create_fat32 blankDrive ↔ ¬ (FsAction.write blankMemory oversized).RunsOut (create_fat32 blankDrive)) := by
  obtain ⟨s',responded⟩ := oversized_fails
  exact ⟨s',responded,failed_unchanged_iff responded (by decide)⟩

theorem oversized_changes : ∃ s',
    (FsAction.write blankMemory oversized).respond (create_fat32 blankDrive) = some (-1,s') ∧
    s' ≠ create_fat32 blankDrive := by
  obtain ⟨s',responded⟩ := oversized_fails
  refine ⟨s',responded,fun same => ?_⟩
  have ran : write (create_fat32 blankDrive) blankMemory oversized = some (-1,s') := responded
  rcases write_failed ran (by decide) with ⟨_,enough⟩ | ⟨⟨c,free,taken⟩,_⟩
  · exact enough oversized_runsOut
  · exact taken (by rw [same]; exact free)

-- The FAT on the drive and the boot sector determine what a reboot loads.
theorem boot_sector (s : DriverState) : (fun i : Fin BLOCK_SIZE => read_blocks s.disk BOOT_SECTOR 1 i) =
    fun i : Fin BLOCK_SIZE => s.cluster 0 i := by
  funext i
  have bound : i.val < 512 := i.isLt
  have start : blockBase BOOT_SECTOR = 0 := rfl
  simp only [read_blocks,start,DriverState.cluster,clusterAt,clip,drop_apply,BLOCK_SIZE,CLUSTER_SIZE]
  rw [if_pos (by omega),if_pos (by omega)]

theorem is_empty_storage_iff (s : DriverState) :
    is_empty_storage s = false ↔ ∀ i : Fin BLOCK_SIZE, s.cluster 0 i = fs_signature i := by
  simp only [is_empty_storage,bne_eq_false_iff_eq,memcmp_eq_zero]
  rw [boot_sector]
  exact funext_iff

theorem create_fat32_signed (s : DriverState) : is_empty_storage (create_fat32 s) = false := by
  rw [is_empty_storage_iff]
  intro i
  have bound : i.val < 512 := i.isLt
  unfold create_fat32
  rw [DriverState.writeDirectory_other _ (by rw [slot_root]; decide),DriverState.writeFat_other _ (by decide)]
  have start : blockBase 0 = 0 := rfl
  simp only [DriverState.cluster,clusterAt,clip,drop_apply,write_blocks,start,BLOCK_SIZE,CLUSTER_SIZE]
  rw [if_pos (by omega),if_pos (by omega)]
  congr 1
  omega

theorem initialized_formatted {s : DriverState} (unsigned : is_empty_storage s = true) :
    (⟨initialize_filesystem_fat32 s,{2}⟩ : Volume) = formatted s := by
  simp only [initialize_filesystem_fat32,unsigned,if_true]
  rfl

theorem formatted_stored (s : DriverState) :
    (formatted s).driver.cluster 1 = fatBytes (formatted s).driver.cluster_map := by
  unfold formatted create_fat32
  rw [DriverState.writeDirectory_other _ (by rw [slot_root]; decide),DriverState.writeFat_cluster,if_pos rfl]
  rfl

theorem fatBytes_injective : Function.Injective fatBytes := by
  intro left right same
  have decoded := congrArg clusterMapCodec.decode same
  unfold fatBytes at decoded
  rwa [clusterMap_clip,clusterMap_clip] at decoded

def codes (s : DriverState) : List FsAction → List (Option Int)
  | [] => []
  | a :: rest => match a.respond s with
    | none => [none]
    | some (code,s) => some code :: codes s rest

-- The cached FAT is the stored one, and a reboot at this point is not observable.
structure RebootInvisible (s : DriverState) : Prop where
  stored : read_clusters s.disk FAT_CLUSTER_NUMBER 1 = fatBytes s.cluster_map
  state : initialize_filesystem_fat32 s = s
  codes : ∀ later, codes (initialize_filesystem_fat32 s) later = codes s later
  data : ∀ later memory request,
    (replay (initialize_filesystem_fat32 s) later).map (fun s => (read s memory request,read_directory s memory request)) =
    (replay s later).map fun s => (read s memory request,read_directory s memory request)

theorem rebootInvisible_iff {s : DriverState} (signed : is_empty_storage s = false) :
    RebootInvisible s ↔ s.cluster 1 = fatBytes s.cluster_map := by
  have cluster : read_clusters s.disk FAT_CLUSTER_NUMBER 1 = s.cluster 1 := read_clusters_eq ..
  constructor
  · intro invisible
    rw [← cluster]
    exact invisible.stored
  · intro stored
    have same : initialize_filesystem_fat32 s = s := by
      simp only [initialize_filesystem_fat32,signed,Bool.false_eq_true,if_false,cluster,stored]
      rw [fatBytes,clusterMap_clip]
    exact ⟨cluster.trans stored,same,fun later => by rw [same],fun later memory request => by rw [same]⟩

theorem Effect.boot_kept {v v' : Volume} {a : FsAction} {code : Int} (intact : Intact v) (effect : Effect v a code v') :
    v'.driver.cluster 0 = v.driver.cluster 0 := by
  have wrote {memory : Memory} {request : FAT32DriverRequest} {d c : Cell} {i : Fin DIRECTORY_ENTRY_COUNT}
      {rest : List Cell} (h : Wrote v v' memory request d i c rest) : v'.driver.cluster 0 = v.driver.cluster 0 := by
    have low := intact.range d h.directory
    refine h.inserted.clusterFrame 0 (by simp only; omega) (by decide) fun b member => ?_
    have := intact.fresh_range (h.inserted.fresh b member)
    omega
  cases effect with
  | refused => rfl
  | folder _ h => exact wrote h
  | file _ h => exact wrote h
  | short _ h => exact wrote h
  | deleted h =>
    have low := intact.range _ h.directory
    refine h.removed.clusterFrame 0 (by simp only; omega) (by decide) fun b member => ?_
    have := intact.chain_range h.removed.live h.removed.chain b (h.removed.within b member)
    omega

theorem stored_exact {v v' : Volume} {a : FsAction} (intact : Intact v)
    (stored : v.driver.cluster 1 = fatBytes v.driver.cluster_map) (step : v.ClearStep a v') :
    v'.driver.cluster 1 = fatBytes v'.driver.cluster_map ↔ ¬ a.RunsOut v.driver := by
  obtain ⟨code,_,effect⟩ := ClearStep.effect intact step
  cases effect with
  | refused _ refused => exact iff_of_true stored (Refused.not_runsOut refused)
  | folder empty _ _ written => exact iff_of_true written fun out => out.1 empty
  | file _ _ _ _ enough written => exact iff_of_true written fun out => absurd out.2.2 (Nat.not_lt.mpr enough)
  | @short v' memory request d i c rest data wrote _ _ few skipped =>
    refine iff_of_false (fun written => ?_) fun enough => enough ⟨data,⟨i,c,wrote.writable⟩,few⟩
    rw [skipped,stored] at written
    have same := congrFun (fatBytes_injective written) c
    rw [wrote.inserted.fresh c (by simp)] at same
    exact wrote.taken c (by simp) same.symm
  | deleted _ written => exact iff_of_true written id

theorem rebootInvisible_always_iff {s : DriverState} {history : List (Transition Volume FsAction)} {v : Volume}
    (unsigned : is_empty_storage s = true)
    (run : Run Volume.NamedStep ⟨initialize_filesystem_fat32 s,{2}⟩ history v) :
    (∀ t ∈ history, RebootInvisible t.after.driver) ↔ ∀ t ∈ history, ¬ t.action.RunsOut t.before.driver := by
  rw [initialized_formatted unsigned] at run
  have keeps : ∀ (v : Volume) (a : FsAction) (v' : Volume), Intact v ∧ is_empty_storage v.driver = false →
      v.NamedStep a v' → Intact v' ∧ is_empty_storage v'.driver = false := by
    rintro v a v' ⟨intact,signed⟩ step
    obtain ⟨code,_,effect⟩ := ClearStep.effect intact (NamedStep.clear step)
    refine ⟨effect.intact intact,?_⟩
    rw [is_empty_storage_iff] at signed ⊢
    rw [effect.boot_kept intact]
    exact signed
  have exact : ∀ (v : Volume) (a : FsAction) (v' : Volume), Intact v ∧ is_empty_storage v.driver = false →
      RebootInvisible v.driver → v.NamedStep a v' → (RebootInvisible v'.driver ↔ ¬ a.RunsOut v.driver) := by
    intro v a v' support invisible step
    rw [rebootInvisible_iff (keeps v a v' support step).2]
    exact stored_exact support.1 ((rebootInvisible_iff support.2).mp invisible) (NamedStep.clear step)
  refine Run.always_iff ⟨formatted_intact s,create_fat32_signed s⟩ ?_ (fun v a v' support _ _ => keeps v a v' support) exact run
  exact (rebootInvisible_iff (create_fat32_signed s)).mpr (formatted_stored s)

theorem rebootInvisible_always_iff_folder : ∃ history v,
    Run Volume.NamedStep ⟨initialize_filesystem_fat32 blankDrive,{2}⟩ history v ∧
    history.map Transition.action = [.write blankMemory (rootRequest 'A' 0)] ∧
    ((∀ t ∈ history, RebootInvisible t.after.driver) ↔ ∀ t ∈ history, ¬ t.action.RunsOut t.before.driver) := by
  have unsigned : is_empty_storage blankDrive = true := by decide +kernel
  obtain ⟨history,v,run,actions,_⟩ := rootRun (formatted_intact blankDrive) [.write blankMemory (rootRequest 'A' 0)] (by
    intro a member
    cases List.mem_singleton.mp member
    exact ⟨rfl,rootRequest_named _ _ (by decide)⟩)
  rw [← initialized_formatted unsigned] at run
  exact ⟨history,v,run,actions,rebootInvisible_always_iff unsigned run⟩

theorem oversized_drifts : ∃ history v,
    Run Volume.NamedStep ⟨initialize_filesystem_fat32 blankDrive,{2}⟩ history v ∧ is_empty_storage blankDrive = true ∧
    history.map Transition.action = [.write blankMemory oversized] ∧ ¬ ∀ t ∈ history, RebootInvisible t.after.driver := by
  have unsigned : is_empty_storage blankDrive = true := by decide +kernel
  have intact := formatted_intact blankDrive
  have named : oversized.Named := rootRequest_named _ _ (by decide)
  obtain ⟨code,v,ran,effect⟩ := request_effect intact (.write blankMemory oversized) ⟨2,rfl,rfl⟩ trivial
  have step : (formatted blankDrive).NamedStep (.write blankMemory oversized) v := ⟨named,⟨2,rfl,rfl⟩,code,ran⟩
  rw [initialized_formatted unsigned]
  refine ⟨_,v,.single step,unsigned,rfl,fun always => ?_⟩
  have invisible := always _ (List.mem_singleton.mpr rfl)
  have signed : is_empty_storage v.driver = false := by
    have before := create_fat32_signed blankDrive
    rw [is_empty_storage_iff] at before ⊢
    rw [effect.boot_kept intact]
    exact before
  exact (stored_exact intact (formatted_stored _) (NamedStep.clear step)).mp ((rebootInvisible_iff signed).mp invisible)
    oversized_runsOut

end Sosis.Fat32
