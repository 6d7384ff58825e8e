import Sosis.Fat32Abstraction

-- Every request is a request of the folder store, so every history is a history of it.
namespace Sosis.Fat32
open ByteRecords FirstFit LinkedCells TransitionRuns FolderStore

section write
variable {v v' : Volume} {st : FileStore} {memory : Memory} {request : FAT32DriverRequest} {d c : Cell}
  {i : Fin DIRECTORY_ENTRY_COUNT} {rest : List Cell}

theorem Intact.write_refused (intact : Intact v) (dir : d ∈ v.dirs) (parent : request.parent_cluster_number = cellNumber d)
    (refused : ∀ i c, ¬ Writable v.driver request i c) (memory : Memory) :
    findEntry (v.driver.table d) request.name request.ext ≠ none ∧ write v.driver memory request = some (1,v.driver) ∨
    findEntry (v.driver.table d) request.name request.ext = none ∧
      (findIdxEmptyEntry (v.driver.table d) = none ∨ findEmptySpace v.driver.cluster_map = none) ∧
      write v.driver memory request = some (-1,v.driver) := by
  have table : v.driver.directory request.parent_cluster_number = v.driver.table d := parent_table parent
  have header := intact.header d dir
  cases absent : findEntry (v.driver.table d) request.name request.ext with
  | some _ => exact Or.inl ⟨by simp,by simp [write,table,header,absent]⟩
  | none =>
    refine Or.inr ⟨rfl,?_⟩
    cases vacant : findIdxEmptyEntry (v.driver.table d) with
    | none => exact ⟨Or.inl rfl,by simp [write,table,header,absent,vacant]⟩
    | some i =>
      cases room : findEmptySpace v.driver.cluster_map with
      | none => exact ⟨Or.inr rfl,by simp [write,table,header,absent,vacant,room]⟩
      | some c => exact absurd ⟨by rw [table]; exact header,by rw [table]; exact absent,by rw [table]; exact vacant,room⟩ (refused i c)

-- What became of the data: all of it, what had room, or an entry that poses as a folder.
theorem Refines.wrote_data (refines : Refines v st) (wrote : Wrote v v' memory request d i c rest)
    (data : request.buffer_size ≠ 0) (kept : v'.dirs = v.dirs)
    (length : (c :: rest).length = min (ceil request.buffer_size.toNat) st.free) :
    ∃ item, fatMedium.Kept st d (submitted memory request) item ∧ v'.Represents ⟨d,i⟩ item := by
  have file := wrote.not_folder refines.intact kept
  have attr := wrote.attr_after data
  have size : (v'.entry ⟨d,i⟩).filesize.toNat = (submitted memory request).length := by
    rw [wrote.size_after,submitted_length]
  by_cases marked : (v.driver.table d i).attr = ATTR_SUBDIRECTORY
  · refine ⟨_,.masked ?_,file,attr.trans marked,size,c :: rest,wrote.inserted.chain,?_⟩
    · by_contra whole
      exact wrote.inserted.not_live_before (refines.worn ⟨d,i⟩ wrote.inserted.slot marked whole).1
    · rw [fatMedium_blocks,submitted_length]
      exact length
  have plain : (v'.entry ⟨d,i⟩).attr ≠ ATTR_SUBDIRECTORY := fun is => marked (attr.symm.trans is)
  rcases Nat.lt_or_ge st.free (ceil request.buffer_size.toNat) with few | enough
  · have shorter : CLUSTER_SIZE * st.free < request.buffer_size.toNat := by
      rw [ceil_eq] at few
      simp only [CLUSTER_SIZE]
      omega
    have taken : ((submitted memory request).take (CLUSTER_SIZE * st.free)).length = CLUSTER_SIZE * st.free := by
      rw [List.length_take,submitted_length]
      omega
    refine ⟨_,.cut (by rw [fatMedium_blocks,submitted_length]; exact few),file,plain,size,?_,wrote.stores data ?_ ?_⟩
    · rw [submitted_length,show fatMedium.block = CLUSTER_SIZE from rfl,taken]
      exact shorter
    · rw [show fatMedium.block = CLUSTER_SIZE from rfl,taken,length,ceil_eq (CLUSTER_SIZE * st.free)]
      simp only [CLUSTER_SIZE]
      omega
    · intro k inside
      rw [List.getElem_take,submitted_at]
  · refine ⟨_,.file (by rw [fatMedium_blocks,submitted_length]; exact enough),file,plain,size,wrote.stores data ?_ ?_⟩
    · rw [length,submitted_length]
      omega
    · intro k inside
      exact submitted_at memory request inside

theorem Refines.write (refines : Refines v st) (dir : d ∈ v.dirs) (parent : request.parent_cluster_number = cellNumber d)
    (clear : v.Clear request) {code : Int} (ran : v.respond (.write memory request) = some (code,v')) :
    ∃ st', fatMedium.Responds st (meaning (.write memory request,code)) st' ∧ Refines v' st' := by
  have intact := refines.intact
  have vacancy := refines.vacant_iff dir clear parent
  obtain ⟨code',v'',ran',effect⟩ := write_effect parent dir intact.steady memory
  rw [ran'] at ran
  cases ran
  have answered := respond_driver ran'
  simp only [meaning,FsAction.meant,parent,parentCell_number,FsAction.answer]
  -- a write that stored an entry, with as many clusters as there was room for
  have stored {c : Cell} {i : Fin DIRECTORY_ENTRY_COUNT} {rest : List Cell} (wrote : Wrote v v' memory request d i c rest)
      (data : request.buffer_size ≠ 0) (kept : v'.dirs = v.dirs)
      (length : (c :: rest).length = min (ceil request.buffer_size.toNat) st.free) :
      ∃ st', fatMedium.Responds st (.put d request.fileName (submitted memory request),
        if ceil request.buffer_size.toNat ≤ st.free then .done else .full) st' ∧ Refines v' st' := by
    obtain ⟨item,becomes,represents⟩ := refines.wrote_data wrote data kept length
    have slot := wrote.writable.vacant
    have absent := wrote.writable.absent
    rw [parent_table parent] at slot absent
    have nonempty : submitted memory request ≠ [] := by
      intro empty
      have none := submitted_length memory request
      rw [empty] at none
      exact data (BitVec.eq_of_toNat_eq none.symm)
    have counted := wrote.free_card
    have positive : 0 < st.free := by
      rw [refines.free,← counted]
      simp
    have step := Medium.Responds.stored (vacancy.mpr absent) (refines.roomy slot) positive nonempty becomes
    rw [fatMedium_blocks,submitted_length] at step
    refine ⟨_,step,refines.inserted wrote represents (refines.folders.trans kept.symm) ?_ (fun _ _ => Iff.rfl) fun attr whole => ?_⟩
    · rw [← refines.free,length] at counted
      omega
    · have marked := (wrote.attr_after data).symm.trans attr
      exact absurd (refines.worn ⟨d,i⟩ wrote.inserted.slot marked whole).1 wrote.inserted.not_live_before
  cases effect with
  | refused failed refused =>
    rcases intact.write_refused dir parent refused memory with ⟨present,ran⟩ | ⟨absent,why,ran⟩
    · cases ran.symm.trans answered
      exact ⟨st,.taken fun vacant => present (vacancy.mp vacant),refines⟩
    · cases ran.symm.trans answered
      refine ⟨st,.full (vacancy.mpr absent) (why.imp (refines.crowded dir) refines.free_zero.mpr),refines⟩
  | @folder _ _ _ d' i c empty wrote grown =>
    obtain rfl : d' = d := cellNumber_injective (wrote.parent.symm.trans parent)
    have slot := wrote.writable.vacant
    have absent := wrote.writable.absent
    rw [parent_table parent] at slot absent
    have counted := wrote.free_card
    rw [← refines.free] at counted
    have notYet : c ∉ st.folders := by
      rw [refines.folders]
      exact fun member => intact.dir_taken member (wrote.inserted.fresh c (by simp))
    have nothing : submitted memory request = [] := List.eq_nil_of_length_eq_zero (by rw [submitted_length,empty]; rfl)
    have member : c ∈ v'.dirs := by rw [grown]; exact Set.mem_insert _ _
    have at_ : (v'.entry ⟨d',i⟩).cluster = cellNumber c := by rw [wrote.entry,addEntry_cluster]
    rw [nothing]
    refine ⟨_,.folder (vacancy.mpr absent) (refines.roomy slot) (by rw [← counted]; simp) notYet,
      refines.inserted wrote ⟨member,at_⟩ (by rw [grown,refines.folders]) ?_ ?_ fun _ _ => ⟨c,member,at_⟩⟩
    · simp only [List.length_singleton] at counted
      omega
    · intro x dirX
      refine and_iff_left ?_
      rintro rfl
      exact notYet (refines.folders ▸ dirX)
  | @file _ _ _ d' i c rest data wrote kept complete enough =>
    obtain rfl : d' = d := cellNumber_injective (wrote.parent.symm.trans parent)
    rw [← refines.free] at enough
    have result := stored wrote data kept (by rw [complete,Nat.min_eq_left enough])
    rw [if_pos enough] at result
    exact result
  | @short _ _ _ d' i c rest data wrote kept less few =>
    obtain rfl : d' = d := cellNumber_injective (wrote.parent.symm.trans parent)
    have all := wrote.short_takes_all data answered
    rw [← refines.free] at few all
    have result := stored wrote data kept (by rw [all,Nat.min_eq_right (Nat.le_of_lt few)])
    rw [if_neg (Nat.not_le_of_lt few)] at result
    exact result

end write

section delete
variable {v v' : Volume} {st : FileStore} {request : FAT32DriverRequest} {d : Cell}

theorem Refines.delete (refines : Refines v st) (dir : d ∈ v.dirs) (parent : request.parent_cluster_number = cellNumber d)
    (clear : v.Clear request) {code : Int} (ran : v.respond (.delete request) = some (code,v')) :
    ∃ st', fatMedium.Responds st (meaning (.delete request,code)) st' ∧ Refines v' st' := by
  have intact := refines.intact
  have vacancy := refines.vacant_iff dir clear parent
  have table : v.driver.directory request.parent_cluster_number = v.driver.table d := parent_table parent
  obtain ⟨code',v'',ran',effect⟩ := delete_effect dir parent intact clear
  rw [ran'] at ran
  cases ran
  have answered := respond_driver ran'
  simp only [meaning,FsAction.meant,parent,parentCell_number,FsAction.answer]
  cases effect with
  | refused failed refused =>
    cases found : findEntry (v.driver.table d) request.name request.ext with
    | none =>
      have ran := @delete_absent v.driver request (by rw [table]; exact found)
      cases ran.symm.trans answered
      exact ⟨st,.absent (vacancy.mpr found),refines⟩
    | some i =>
      have foundHere : findEntry (v.driver.directory request.parent_cluster_number) request.name request.ext = some i := by
        rw [table]; exact found
      obtain ⟨folder,occupied⟩ := refused i foundHere
      have ran := delete_occupied foundHere folder occupied
      cases ran.symm.trans answered
      rw [table] at folder occupied
      obtain ⟨item,here⟩ := Option.ne_none_iff_exists'.mp fun vacant => absurd (found.symm.trans (vacancy.mp vacant)) (by simp)
      obtain ⟨j,live,named,represents,found'⟩ := refines.found here
      cases found.symm.trans found'
      cases item with
      | folder e =>
        obtain ⟨member,at_⟩ := represents
        have child : v.driver.directory (v.driver.table d i).cluster = v.driver.table e := by
          rw [show (v.driver.table d i).cluster = cellNumber e from at_,DriverState.directory_cell]
        rw [child] at occupied
        refine ⟨st,.occupied here (Set.nonempty_iff_ne_empty.mpr fun none => ?_),refines⟩
        rw [(refines.empty_iff member).mpr none] at occupied
        cases occupied
      | masked size blocks => exact ⟨st,.posing here,refines⟩
      | file content => exact absurd folder represents.2.1
      | cut size content => exact absurd folder represents.2.1
  | @deleted _ _ d' i c rest gone deleted =>
    obtain rfl : d' = d := cellNumber_injective (deleted.parent.symm.trans parent)
    have found := deleted.found
    have live := deleted.removed.live
    have counted := deleted.free_card intact
    rw [← refines.free] at counted
    have after := deleted_table intact dir parent found answered
    obtain ⟨item,here⟩ := Option.ne_none_iff_exists'.mp fun vacant => absurd (found.symm.trans (vacancy.mp vacant)) (by simp)
    obtain ⟨j,_,named,represents,found'⟩ := refines.found here
    cases found.symm.trans found'
    -- a file gives back the clusters of its content
    have returned {content : List Byte} (plain : (v.entry ⟨d',i⟩).attr ≠ ATTR_SUBDIRECTORY) (stores : v.Stores ⟨d',i⟩ content) :
        gone.length = fatMedium.blocks content.length := by
      obtain ⟨xs,chain,length,_⟩ := stores
      rw [deleted.released,if_neg plain,Chain.unique cells_pointers deleted.removed.chain chain,length,fatMedium_blocks]
    have removed (item' : Item Cell Byte) (same : item = item') (file : ¬ v.Folder ⟨d',i⟩)
        (size : gone.length = fatMedium.released item')
        (marked : (v.entry ⟨d',i⟩).attr = ATTR_SUBDIRECTORY → d' ∈ st.worn) :
        ∃ st', fatMedium.Responds st (.remove d' request.fileName,.done) st' ∧ Refines v' st' := by
      subst same
      refine ⟨_,.removed here fun e is => file (represents.folder_iff.mpr ⟨e,is⟩),?_⟩
      exact refines.deleted deleted after (refines.folders.trans (deleted.dirs_eq file).symm) (by rw [counted,size]) subset_rfl marked
    cases item with
    | folder e =>
      obtain ⟨member,at_⟩ := represents
      obtain rfl : e = c := cellNumber_injective (at_.symm.trans deleted.cluster)
      have attr := (intact.folder _ live e member at_).1
      refine ⟨_,.emptied here ((refines.empty_iff member).mp (deleted.childless attr)),refines.deleted deleted after ?_ ?_
        (Set.subset_insert _ _) fun _ => Set.mem_insert _ _⟩
      · rw [deleted.removed.shrunk,refines.folders]
        ext b
        simp only [Set.mem_sdiff,Set.mem_singleton_iff,Set.mem_ofPred_eq,at_,ne_eq,cellNumber_injective.eq_iff]
      · rw [counted,deleted.released,if_pos attr]
        rfl
    | masked size blocks =>
      refine removed _ rfl represents.1 (by rw [deleted.released,if_pos represents.2.1]; rfl) fun attr => ?_
      by_contra whole
      exact represents.1 (refines.worn _ live.1 attr whole).2
    | file content =>
      exact removed _ rfl represents.1 (returned represents.2.1 represents.2.2.2) fun attr => absurd attr represents.2.1
    | cut size content =>
      exact removed _ rfl represents.1 (returned represents.2.1 represents.2.2.2.2) fun attr => absurd attr represents.2.1

end delete

theorem Refines.step {v v' : Volume} {st : FileStore} {a : FsAction × Int} (refines : Refines v st) (step : v.Answered a v') :
    ∃ st', fatMedium.Responds st (meaning a) st' ∧ Refines v' st' := by
  obtain ⟨action,code⟩ := a
  obtain ⟨clear,⟨d,dir,parent⟩,ran⟩ := step
  cases action with
  | write memory request => exact refines.write dir parent clear ran
  | delete request => exact refines.delete dir parent clear ran

theorem formatted_refines (s : DriverState) : Refines (formatted s) emptyStore where
  intact := formatted_intact s
  folders := rfl
  held _ _ _ here := absurd here (by simp [emptyStore])
  all x live := absurd live (formatted_dead s x)
  free := formatMap_free.symm
  worn x holds attr _ := by
    rw [formatted_slot s holds] at attr
    exact absurd attr (by decide)

-- What read makes of the reading: the code, and what it puts into the buffer. It stores
-- whole clusters, so the bytes up to the next multiple of a cluster are not promised.
def Answers (memory : Memory) (request : FAT32DriverRequest) (result : Int × Memory) : Store.Reading Byte → Prop
  | .absent => result = (3,memory)
  | .small => result = (2,memory)
  | .folder => result = (1,memory)
  | .content content => result.1 = 0 ∧
      (∀ (k : Nat) (inside : k < content.length), result.2.at request.buf k = content[k]) ∧
      ∀ a, CLUSTER_SIZE * ceil content.length ≤ (a - request.buf).toNat → result.2 a = memory a

section read
variable {v : Volume} {st : FileStore} {request : FAT32DriverRequest} {d : Cell} {i : Fin DIRECTORY_ENTRY_COUNT}

theorem Volume.Stores.answers {content : List Byte} (stores : v.Stores ⟨d,i⟩ content) (small : content.length < 2^32)
    (memory : Memory) {xs : List Cell} (chain : v.Chained ⟨d,i⟩ xs) :
    Answers memory request (0,storeClusters v.driver memory request.buf xs) (.content content) := by
  obtain ⟨ys,chain',length,bytes⟩ := stores
  cases Chain.unique cells_pointers chain chain'
  have few := Chain.length_le cells_pointers chain
  rw [Fintype.card_fin] at few
  refine ⟨rfl,fun k inside => ?_,fun a beyond => ?_⟩
  · obtain ⟨c,at_,byte⟩ := bytes k inside
    obtain ⟨place,rfl⟩ := List.getElem?_eq_some_iff.mp at_
    rw [storeClusters_at chain _ _ (Nat.lt_trans inside small),dif_pos place]
    exact byte
  · have fits : CLUSTER_SIZE * xs.length ≤ 2^32 := by
      simp only [CLUSTER_SIZE,CLUSTER_MAP_SIZE] at *
      omega
    rw [← length] at beyond
    change storeClusters v.driver memory request.buf xs a = memory a
    rw [storeClusters_apply _ _ _ _ _ fits,dif_neg]
    simp only [CLUSTER_SIZE] at *
    omega

theorem Refines.read (refines : Refines v st) (dir : d ∈ v.dirs) (parent : request.parent_cluster_number = cellNumber d)
    (clear : v.Clear request) (memory : Memory) : ∃ result, read v.driver memory request = some result ∧
      Answers memory request result (st.read d request.fileName request.buffer_size.toNat) := by
  have intact := refines.intact
  unfold Store.read
  cases here : st.entry d request.fileName with
  | none =>
    have absent := (refines.vacant_iff dir clear parent).mp here
    exact ⟨(3,memory),by simp [Fat32.read,parent_table parent,absent],rfl⟩
  | some item =>
    obtain ⟨i,live,named,represents,_⟩ := refines.found here
    obtain ⟨c,rest,_,chain,_⟩ := intact.chained _ live
    have ran := @Intact.read_live v ⟨d,i⟩ request intact live parent named _ chain memory
    refine ⟨_,ran,?_⟩
    have less {size : Nat} (same : (v.entry ⟨d,i⟩).filesize.toNat = size) :
        request.buffer_size < (v.entry ⟨d,i⟩).filesize ↔ request.buffer_size.toNat < size := by
      rw [← same]
      exact Iff.rfl
    cases item with
    | folder e =>
      obtain ⟨attr,empty⟩ := intact.folder _ live e represents.1 represents.2
      have never : ¬ request.buffer_size < (v.entry ⟨d,i⟩).filesize := by
        rw [empty]
        exact BitVec.not_lt_zero
      rw [if_neg never,if_pos attr]
      rfl
    | file content =>
      obtain ⟨_,attr,size,stores⟩ := represents
      by_cases tight : request.buffer_size.toNat < content.length
      · rw [if_pos ((less size).mpr tight)]
        simp only [if_pos tight]
        rfl
      · rw [if_neg fun is => tight ((less size).mp is),if_neg attr]
        simp only [if_neg tight]
        exact stores.answers (by rw [← size]; exact (v.entry ⟨d,i⟩).filesize.isLt) memory chain
    | masked size blocks =>
      obtain ⟨_,attr,same,_⟩ := represents
      by_cases tight : request.buffer_size.toNat < size
      · rw [if_pos ((less same).mpr tight)]
        simp only [if_pos tight]
        rfl
      · rw [if_neg fun is => tight ((less same).mp is),if_pos attr]
        simp only [if_neg tight]
        rfl
    | cut size content =>
      obtain ⟨_,attr,same,shorter,stores⟩ := represents
      by_cases tight : request.buffer_size.toNat < size
      · rw [if_pos ((less same).mpr tight)]
        simp only [if_pos tight]
        rfl
      · rw [if_neg fun is => tight ((less same).mp is),if_neg attr]
        simp only [if_neg tight]
        refine stores.answers (Nat.lt_trans shorter ?_) memory chain
        rw [← same]
        exact (v.entry ⟨d,i⟩).filesize.isLt

end read

theorem Refines.run {v w : Volume} {st : FileStore} {history : List (Transition Volume (FsAction × Int))}
    (refines : Refines v st) (run : Run Volume.Answered v history w) :
    ∃ steps last, Run fatMedium.Responds st steps last ∧ Refines w last ∧
      List.Forall₂ (Paired Refines meaning) history steps :=
  Run.simulated refines (fun _ _ _ _ related step => related.step step) run

-- A history of requests is a history of the folder store, answer by answer, and read
-- returns at its end what is in the store.
theorem history_refines {s : DriverState} {history : List (Transition Volume (FsAction × Int))} {v : Volume}
    (run : Run Volume.Answered (formatted s) history v) :
    ∃ steps st, Run fatMedium.Responds emptyStore steps st ∧ List.Forall₂ (Paired Refines meaning) history steps ∧
      Refines v st ∧ ∀ request memory, v.Addressed request → v.Clear request →
        ∃ result, read v.driver memory request = some result ∧
          Answers memory request result
            (st.read (parentCell request.parent_cluster_number) request.fileName request.buffer_size.toNat) := by
  obtain ⟨steps,st,run',refines,pairs⟩ := (formatted_refines s).run run
  refine ⟨steps,st,run',pairs,refines,fun request memory addressed clear => ?_⟩
  obtain ⟨d,dir,parent⟩ := addressed
  rw [parent,parentCell_number]
  exact refines.read dir parent clear memory

theorem Run.answered {v w : Volume} {history : List (Transition Volume FsAction)} (run : Run Volume.NamedStep v history w) :
    ∃ history', Run Volume.Answered v history' w ∧ history'.map (fun t => t.action.1) = history.map Transition.action := by
  induction run with
  | nil => exact ⟨[],.nil,rfl⟩
  | @snoc earlier middle action after prior taken ih =>
    obtain ⟨history',run',actions⟩ := ih
    obtain ⟨named,addressed,code,ran⟩ := taken
    refine ⟨history' ++ [⟨middle,(action,code),after⟩],.snoc run' ⟨Or.inl named,addressed,ran⟩,?_⟩
    simp [actions]

theorem history_refines_vacated : ∃ history v, Run Volume.Answered (formatted blankDrive) history v ∧
    history.map (fun t => t.action.1) = vacatedSlot ++ [.write blankMemory (rootRequest 'B' 1)] ∧
    ∃ steps st, Run fatMedium.Responds emptyStore steps st ∧ List.Forall₂ (Paired Refines meaning) history steps ∧
      Refines v st ∧ ∀ request memory, v.Addressed request → v.Clear request →
        ∃ result, read v.driver memory request = some result ∧
          Answers memory request result
            (st.read (parentCell request.parent_cluster_number) request.fileName request.buffer_size.toNat) := by
  obtain ⟨history,v,run,actions,_⟩ := rootRun (formatted_intact blankDrive)
    (vacatedSlot ++ [.write blankMemory (rootRequest 'B' 1)]) (by
      intro a member
      rcases List.mem_append.mp member with before | last
      · exact vacatedSlot_named a before
      · cases List.mem_singleton.mp last
        exact ⟨rfl,rootRequest_named _ _ (by decide)⟩)
  obtain ⟨history',run',actions'⟩ := Run.answered run
  exact ⟨history',v,run',actions'.trans actions,history_refines run'⟩

-- What the store sees as a removal is a delete that was answered with 0.
theorem Volume.Answered.removes {v v' : Volume} {a : FsAction × Int} {d : Cell} {n : FileName} (step : v.Answered a v')
    (meant : meaning a = (.remove d n,.done)) : ∃ other : FAT32DriverRequest, a = (.delete other,0) ∧
      other.parent_cluster_number = cellNumber d ∧ other.fileName = n := by
  obtain ⟨_,⟨e,_,at_⟩,_⟩ := step
  obtain ⟨action,code⟩ := a
  cases action with
  | write => simp [meaning,FsAction.meant] at meant
  | delete other =>
    simp only [meaning,FsAction.meant,FsAction.answer,Prod.mk.injEq,Request.remove.injEq] at meant
    obtain ⟨⟨folder,name⟩,done⟩ := meant
    rw [show other.parent_cluster_number = cellNumber e from at_,parentCell_number] at folder
    subst folder
    refine ⟨other,?_,at_,name⟩
    by_contra failed
    have nonzero : code ≠ 0 := fun zero => failed (by rw [zero])
    rw [if_neg nonzero] at done
    split at done <;> simp at done

-- The bytes `memory` held at the buffer of `request` when it was written.
def ReadsSubmitted (s : DriverState) (memory : Memory) (request : FAT32DriverRequest) : Prop :=
  ∀ (reader : Memory) (buf buffer_size : Word), ∃ result,
    read s reader {request with buf := buf, buffer_size := buffer_size} = some result ∧
    if buffer_size < request.buffer_size then result = (2,reader)
    else result.1 = 0 ∧ ∀ k < request.buffer_size.toNat, result.2.at buf k = memory.at request.buf k

section kept
variable {s : DriverState} {front back : List (Transition Volume (FsAction × Int))} {before after v : Volume}
  {memory : Memory} {request : FAT32DriverRequest}

-- A write that was given a slot had a name.
theorem Answered.named {v v' : Volume} (intact : Intact v) (step : v.Answered (.write memory request,0) v')
    (data : request.buffer_size ≠ 0) : request.Named := by
  obtain ⟨clear,⟨d,dir,parent⟩,ran⟩ := step
  rcases clear with named | full
  · exact named
  obtain ⟨code,v'',ran',effect⟩ := write_effect parent dir intact.steady memory
  cases ran.symm.trans ran'
  cases effect with
  | refused failed => exact absurd rfl failed
  | folder empty => exact absurd empty data
  | @file _ _ _ d' i _ _ _ wrote =>
    cases cellNumber_injective (wrote.parent.symm.trans parent)
    exact absurd (full d dir parent i wrote.inserted.slot.2) wrote.inserted.not_live_before

theorem Refines.reads {st : FileStore} {d : Cell} (refines : Refines v st) (named : request.Named)
    (parent : request.parent_cluster_number = cellNumber d)
    (there : st.entry d request.fileName = some (.file (submitted memory request))) :
    v.Addressed request ∧ ReadsSubmitted v.driver memory request := by
  obtain ⟨i,live,_⟩ := refines.held _ _ _ there
  refine ⟨⟨d,live.1.1,parent⟩,fun reader buf buffer_size => ?_⟩
  obtain ⟨result,ran,answers⟩ := @Refines.read v st {request with buf := buf, buffer_size := buffer_size} d refines
    live.1.1 parent (Or.inl named) reader
  refine ⟨result,ran,?_⟩
  have same : FAT32DriverRequest.fileName {request with buf := buf, buffer_size := buffer_size} = request.fileName := rfl
  rw [same,Store.read,there] at answers
  simp only [submitted_length] at answers
  by_cases tight : buffer_size < request.buffer_size
  · rw [if_pos tight]
    rw [if_pos (show buffer_size.toNat < request.buffer_size.toNat from tight)] at answers
    exact answers
  · rw [if_neg tight]
    rw [if_neg (show ¬ buffer_size.toNat < request.buffer_size.toNat from tight)] at answers
    refine ⟨answers.1,fun k inside => ?_⟩
    have byte := answers.2.1 k (by rw [submitted_length]; exact inside)
    rw [submitted_at] at byte
    exact byte

-- The folder must not have lost a folder before: the write might get the slot of that one.
theorem written_held
    (run : Run Volume.Answered (formatted s) (front ++ ⟨before,(.write memory request,0),after⟩ :: back) v)
    (data : request.buffer_size ≠ 0)
    (whole : ∀ t ∈ front, ∀ other : FAT32DriverRequest, t.action = (.delete other,0) →
      other.parent_cluster_number = request.parent_cluster_number → t.after.dirs = t.before.dirs)
    (kept : ∀ t ∈ back, ∀ other : FAT32DriverRequest, t.action = (.delete other,0) →
      ¬ (other.parent_cluster_number = request.parent_cluster_number ∧ other.name = request.name ∧ other.ext = request.ext)) :
    request.Named ∧ ∃ (last : FileStore) (d : Cell), Refines v last ∧ request.parent_cluster_number = cellNumber d ∧
      last.entry d request.fileName = some (.file (submitted memory request)) := by
  obtain ⟨middle,run₁,later⟩ := run.split
  obtain ⟨rfl,written,run₂⟩ := later.uncons
  simp only at written run₂
  obtain ⟨steps,st,ran,refines,pairs⟩ := (formatted_refines s).run run₁
  obtain ⟨st',stepped,refines'⟩ := refines.step written
  obtain ⟨steps',last,ran',refines'',pairs'⟩ := refines'.run run₂
  obtain ⟨_,⟨d,dir,parent⟩,_⟩ := written
  change request.parent_cluster_number = cellNumber d at parent
  have files : d ∉ st.worn := by
    refine Medium.Run.whole ran (by simp [emptyStore]) fun t' member n e act there => ?_
    obtain ⟨t,inFront,pair⟩ := paired_mem pairs member
    obtain ⟨other,same,sameParent,_⟩ := (run₁.recorded inFront).1.removes (pair.action.symm.trans act)
    have step := (ran.recorded member).1
    rw [act] at step
    have gone := step.folder_gone there
    obtain ⟨_,_,_,represents⟩ := pair.before.held _ _ _ there
    rw [pair.after.folders,whole t inFront other same (sameParent.trans parent.symm)] at gone
    exact gone represents.1
  have nonempty : submitted memory request ≠ [] := by
    intro empty
    have none := submitted_length memory request
    rw [empty] at none
    exact data (BitVec.eq_of_toNat_eq none.symm)
  have there : st'.entry d request.fileName = some (.file (submitted memory request)) := by
    simp only [meaning,FsAction.meant,parent,parentCell_number] at stepped
    exact stepped.put_done nonempty files
  have stays := Medium.Run.keeps ran' there fun t' member act => by
    obtain ⟨t,inBack,pair⟩ := paired_mem pairs' member
    obtain ⟨other,same,sameParent,name⟩ := (run₂.recorded inBack).1.removes (pair.action.symm.trans act)
    exact kept t inBack other same ⟨sameParent.trans parent.symm,Prod.ext_iff.mp name⟩
  have named := Answered.named refines.intact ((@Run.recorded _ _ _ _ _ _ ⟨before,(.write memory request,0),after⟩ run (by simp)).1) data
  exact ⟨named,last,d,refines'',parent,stays⟩

-- From the write to the delete of its name, whatever else is requested.
theorem written_until_deleted
    (run : Run Volume.Answered (formatted s) (front ++ ⟨before,(.write memory request,0),after⟩ :: back) v)
    (data : request.buffer_size ≠ 0)
    (whole : ∀ t ∈ front, ∀ other : FAT32DriverRequest, t.action = (.delete other,0) →
      other.parent_cluster_number = request.parent_cluster_number → t.after.dirs = t.before.dirs)
    (kept : ∀ t ∈ back, ∀ other : FAT32DriverRequest, t.action = (.delete other,0) →
      ¬ (other.parent_cluster_number = request.parent_cluster_number ∧ other.name = request.name ∧ other.ext = request.ext)) :
    v.Addressed request ∧ ReadsSubmitted v.driver memory request := by
  obtain ⟨named,last,d,refines,parent,there⟩ := written_held run data whole kept
  exact refines.reads named parent there

end kept

theorem letter_written : ∃ v, (formatted blankDrive).Answered (.write blankMemory (rootRequest 'A' 1),0) v ∧ Intact v := by
  have intact := formatted_intact blankDrive
  have answer : (write (formatted blankDrive).driver blankMemory (rootRequest 'A' 1)).map Prod.fst = some 0 := by decide +kernel
  have named : (rootRequest 'A' 1).Named := rootRequest_named _ _ (by decide)
  have addressed : (formatted blankDrive).Addressed (rootRequest 'A' 1) := ⟨2,rfl,rfl⟩
  obtain ⟨code,v,ran,effect⟩ := request_effect intact (.write blankMemory (rootRequest 'A' 1)) addressed
    (FsAction.clear_of_named named)
  have written := respond_driver ran
  simp only [FsAction.respond] at written
  rw [written,Option.map_some,Option.some.injEq] at answer
  obtain rfl : code = 0 := answer
  exact ⟨v,⟨Or.inl named,addressed,ran⟩,effect.intact intact⟩

-- A folder comes and goes after the write.
theorem written_until_deleted_sibling : ∃ before after back v,
    Run Volume.Answered (formatted blankDrive) (⟨before,(.write blankMemory (rootRequest 'A' 1),0),after⟩ :: back) v ∧
    back.map (fun t => t.action.1) = [.write blankMemory (rootRequest 'B' 0),.delete (rootRequest 'B' 0)] ∧
    v.Addressed (rootRequest 'A' 1) ∧ ReadsSubmitted v.driver blankMemory (rootRequest 'A' 1) := by
  obtain ⟨v',first,intact⟩ := letter_written
  obtain ⟨history,v,run,actions,_⟩ := rootRun intact
    [.write blankMemory (rootRequest 'B' 0),.delete (rootRequest 'B' 0)] (by
      intro a member
      simp only [List.mem_cons,List.not_mem_nil,or_false] at member
      rcases member with rfl | rfl <;> exact ⟨rfl,rootRequest_named _ _ (by decide)⟩)
  obtain ⟨back,later,actions'⟩ := Run.answered run
  have whole := Run.cons first later
  refine ⟨_,v',back,v,whole,actions'.trans actions,
    @written_until_deleted blankDrive [] back _ v' v _ _ whole (by decide) (by simp) fun t member other same names => ?_⟩
  have listed : t.action.1 ∈ back.map (fun t => t.action.1) := List.mem_map_of_mem member
  rw [actions',actions,same] at listed
  simp only [List.mem_cons,List.not_mem_nil,or_false,reduceCtorEq,false_or,FsAction.delete.injEq] at listed
  rw [listed] at names
  exact absurd (congrFun names.2.1 0) (by decide)

end Sosis.Fat32
