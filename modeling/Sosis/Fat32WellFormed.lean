import Sosis.Fat32Effects

-- When the FAT and the directories account for each other completely: nothing
-- shared, nothing leaked, and every chain as long as its entry says.
namespace Sosis.Fat32
open ByteRecords LinkedCells TransitionRuns

-- An entry is a folder's when the history made its cluster a directory.
def Volume.Folder (v : Volume) (x : Place) : Prop := ∃ d ∈ v.dirs, (v.entry x).cluster = cellNumber d

structure WellFormed (v : Volume) : Prop where
  cell0 : v.driver.cluster_map 0 = CLUSTER_0_VALUE
  cell1 : v.driver.cluster_map 1 = CLUSTER_1_VALUE
  cell2 : v.driver.cluster_map 2 = FAT32_FAT_END_OF_FILE
  chained : ∀ x, v.Live x → ∃ xs, v.Chained x xs ∧ xs.Nodup ∧ ∀ c ∈ xs, 3 ≤ c.val
  apart : ∀ x y xs ys, v.Live x → v.Live y → x ≠ y → v.Chained x xs → v.Chained y ys → ∀ c ∈ xs, c ∉ ys
  covered : ∀ c : Cell, 3 ≤ c.val → v.driver.cluster_map c ≠ 0 →
    ∃! x, v.Live x ∧ ∃ xs, v.Chained x xs ∧ c ∈ xs
  file : ∀ x xs, v.Live x → v.Chained x xs → ¬ v.Folder x → xs.length = ceil (v.entry x).filesize.toNat
  folder : ∀ x xs, v.Live x → v.Chained x xs → v.Folder x → xs.length = 1

-- What well-formedness asks beyond the invariant that every request keeps.
structure Tight (v : Volume) : Prop where
  covered : ∀ c : Cell, 3 ≤ c.val → v.driver.cluster_map c ≠ 0 → ∃ x xs, v.Live x ∧ v.Chained x xs ∧ c ∈ xs
  file : ∀ x xs, v.Live x → v.Chained x xs → ¬ v.Folder x → xs.length = ceil (v.entry x).filesize.toNat

theorem Intact.folder_chain {v : Volume} (intact : Intact v) {x : Place} {xs : List Cell}
    (chain : v.Chained x xs) (folder : v.Folder x) : xs.length = 1 := by
  obtain ⟨d,dir,at_⟩ := folder
  have alone : v.Chained x [d] := by
    unfold Volume.Chained
    rw [at_]
    exact Chain.single (intact.single d dir)
  rw [Chain.unique cells_pointers chain alone]
  rfl

theorem wellFormed_iff {v : Volume} (intact : Intact v) : WellFormed v ↔ Tight v := by
  constructor
  · intro well
    refine ⟨fun c low taken => ?_,well.file⟩
    obtain ⟨x,⟨live,xs,chain,member⟩,_⟩ := well.covered c low taken
    exact ⟨x,xs,live,chain,member⟩
  · intro tight
    refine ⟨intact.cell0,intact.cell1,intact.cell2,fun x live => ?_,?_,fun c low taken => ?_,tight.file,?_⟩
    · obtain ⟨c,rest,_,chain,low⟩ := intact.chained x live
      exact ⟨_,chain,chain.nodup cells_pointers,low⟩
    · intro x y xs ys liveX liveY other chainX chainY c inX inY
      exact other (intact.apart x y xs ys liveX liveY chainX chainY c inX inY)
    · obtain ⟨x,xs,live,chain,member⟩ := tight.covered c low taken
      refine ⟨x,⟨live,xs,chain,member⟩,?_⟩
      rintro y ⟨liveY,ys,chainY,memberY⟩
      exact intact.apart y x ys xs liveY live chainY chain c memberY member
    · intro x xs _ chain folder
      exact intact.folder_chain chain folder

theorem formatted_tight (s : DriverState) : Tight (formatted s) := by
  refine ⟨fun c low taken => absurd ?_ taken,fun x _ live => absurd live (formatted_dead s x)⟩
  have notZero : c ≠ 0 := by rintro rfl; simp at low
  have notOne : c ≠ 1 := by rintro rfl; exact absurd low (by decide)
  have notTwo : c ≠ 2 := by rintro rfl; exact absurd low (by decide)
  rw [formatted_map,formatMap,if_neg notZero,if_neg notOne,if_neg notTwo]

section inserted
variable {v v' : Volume} {x y : Place} {cs : List Cell}

-- A fresh cell is on no old chain, so being a folder does not change for old entries.
theorem Inserted.folder_old (h : Inserted v v' x cs) (intact : Intact v) (live : v.Live y) :
    v'.Folder y ↔ v.Folder y := by
  unfold Volume.Folder
  rw [(h.live_old intact live).2]
  constructor
  · rintro ⟨d,dir,at_⟩
    exact ⟨d,h.folder_dir intact live dir at_,at_⟩
  · rintro ⟨d,dir,at_⟩
    exact ⟨d,h.dirs_mono dir,at_⟩

theorem Inserted.tight (h : Inserted v v' x cs) (intact : Intact v) (tight : Tight v)
    (length : ¬ v'.Folder x → cs.length = ceil (v'.entry x).filesize.toNat) : Tight v' := by
  refine ⟨fun c low taken => ?_,fun y ys live chain file => ?_⟩
  · by_cases isNew : c ∈ cs
    · exact ⟨x,cs,h.live_new,h.chain,isNew⟩
    · rw [h.mapFrame c isNew] at taken
      obtain ⟨y,ys,live,chain,member⟩ := tight.covered c low taken
      exact ⟨y,ys,(h.live_old intact live).1,h.chain_old intact live chain,member⟩
  · rcases h.live_cases intact live with rfl | ⟨_,old,kept⟩
    · rw [Chain.unique cells_pointers chain h.chain]
      exact length file
    · rw [kept]
      exact tight.file y ys old (h.chain_before intact old chain) fun folder => file ((h.folder_old intact old).mpr folder)

end inserted

section removed
variable {v v' : Volume} {x y : Place} {xs gone : List Cell}

theorem Removed.folder_old (h : Removed v v' x xs gone) (intact : Intact v) (live : v.Live y) (other : y ≠ x) :
    v'.Folder y ↔ v.Folder y := by
  unfold Volume.Folder
  rw [(h.live_old intact live other).2]
  constructor
  · rintro ⟨d,dir,at_⟩
    exact ⟨d,(h.dir_before dir).1,at_⟩
  · rintro ⟨d,dir,at_⟩
    refine ⟨d,?_,at_⟩
    rw [h.shrunk]
    refine ⟨dir,fun same => other ?_⟩
    have aloneY : v.Chained y [d] := by
      unfold Volume.Chained
      rw [at_]
      exact Chain.single (intact.single d dir)
    have aloneX : v.Chained x [d] := by
      unfold Volume.Chained
      rw [← same]
      exact Chain.single (intact.single d dir)
    exact intact.apart y x [d] [d] live h.live aloneY aloneX d (by simp) (by simp)

theorem Removed.tight (h : Removed v v' x xs gone) (intact : Intact v) (tight : Tight v)
    (all : ∀ c ∈ xs, c ∈ gone) : Tight v' := by
  refine ⟨fun c low taken => ?_,fun y ys live chain file => ?_⟩
  · have notGone : c ∉ gone := fun member => taken (h.freed c member)
    rw [h.mapFrame c notGone] at taken
    obtain ⟨y,ys,live,chain,member⟩ := tight.covered c low taken
    have other : y ≠ x := by
      rintro rfl
      rw [Chain.unique cells_pointers chain h.chain] at member
      exact notGone (all c member)
    exact ⟨y,ys,(h.live_old intact live other).1,h.chain_old intact live other chain,member⟩
  · obtain ⟨other,old,kept⟩ := h.live_cases intact live
    rw [kept]
    exact tight.file y ys old (h.chain_before intact old other chain) fun folder =>
      file ((h.folder_old intact old other).mpr folder)

theorem Removed.leaks (h : Removed v v' x xs gone) (intact : Intact v) {c : Cell} (member : c ∈ xs)
    (kept : c ∉ gone) : ¬ Tight v' := by
  intro tight
  have low := intact.chain_range h.live h.chain c member
  have taken := intact.chain_taken h.live h.chain member
  rw [← h.mapFrame c kept] at taken
  obtain ⟨y,ys,live,chain,inY⟩ := tight.covered c low taken
  obtain ⟨other,old,_⟩ := h.live_cases intact live
  exact other (intact.apart y x ys xs old h.live (h.chain_before intact old other chain) h.chain c inY member)

end removed

theorem Tight.single_iff {v : Volume} (tight : Tight v) (intact : Intact v) {x : Place} {c : Cell} {rest : List Cell}
    (live : v.Live x) (chain : v.Chained x (c :: rest)) :
    rest = [] ↔ (v.entry x).filesize.toNat ≤ CLUSTER_SIZE := by
  by_cases folder : v.Folder x
  · have one := intact.folder_chain chain folder
    obtain ⟨d,dir,at_⟩ := folder
    have size := (intact.folder x live d dir at_).2
    simp only [List.length_cons,Nat.add_eq_right,List.length_eq_zero_iff] at one
    simp [one,size]
  · have length := tight.file x _ live chain folder
    rw [ceil_eq,List.length_cons] at length
    rw [← List.length_eq_zero_iff]
    simp only [CLUSTER_SIZE]
    omega

-- A write that stops short leaves a chain of too few clusters.
theorem Wrote.short_leaks {v v' : Volume} {memory : Memory} {request : FAT32DriverRequest} {d c : Cell}
    {i : Fin DIRECTORY_ENTRY_COUNT} {rest : List Cell} (wrote : Wrote v v' memory request d i c rest) (intact : Intact v)
    (kept : v'.dirs = v.dirs) (length : (c :: rest).length < ceil request.buffer_size.toNat) : ¬ Tight v' := by
  intro tight'
  have notFolder : ¬ v'.Folder ⟨d,i⟩ := by
    rintro ⟨b,dir,at_⟩
    rw [wrote.entry,addEntry_cluster] at at_
    have same : c = b := cellNumber_injective at_
    subst same
    rw [kept] at dir
    exact intact.dir_taken dir (wrote.inserted.fresh c (by simp))
  have exactly := tight'.file ⟨d,i⟩ _ wrote.inserted.live_new wrote.inserted.chain notFolder
  rw [wrote.entry,addEntry_here] at exactly
  exact absurd exactly (Nat.ne_of_lt length)

-- A delete leaves no cell behind unless it takes a file of more than one cluster for a
-- directory.
theorem Deleted.tight_iff {v v' : Volume} {request : FAT32DriverRequest} {d c : Cell} {i : Fin DIRECTORY_ENTRY_COUNT}
    {rest gone : List Cell} (deleted : Deleted v v' request d i c rest gone) (intact : Intact v) (tight : Tight v) :
    Tight v' ↔ ¬ (FsAction.delete request).CutsTail v.driver := by
  have live := deleted.removed.live
  have size := tight.single_iff intact live deleted.removed.chain
  have here : v.driver.directory request.parent_cluster_number = v.driver.table d := parent_table deleted.parent
  have child : v.driver.directory (v.driver.table d i).cluster = v.driver.table c := by
    have at_ : (v.driver.table d i).cluster = cellNumber c := deleted.cluster
    rw [at_,DriverState.directory_cell]
  by_cases cuts : (v.entry ⟨d,i⟩).attr = ATTR_SUBDIRECTORY ∧ rest ≠ []
  · obtain ⟨folder,more⟩ := cuts
    obtain ⟨b,tail,list⟩ := List.exists_cons_of_ne_nil more
    have distinct := List.nodup_cons.mp (deleted.removed.chain.nodup cells_pointers)
    refine iff_of_false (deleted.removed.leaks intact (by simp [list] : b ∈ c :: rest) ?_) fun whole => whole ?_
    · rw [deleted.released,if_pos folder,List.mem_singleton]
      rintro rfl
      exact distinct.1 (by simp [list])
    · refine ⟨i,by rw [here]; exact deleted.found,by rw [here]; exact folder,?_,?_⟩
      · rw [here,child]; exact deleted.childless folder
      · rw [here]
        exact Nat.lt_of_not_le fun small => more (size.mpr small)
  · refine iff_of_true (deleted.removed.tight intact tight fun b member => ?_) ?_
    · rw [deleted.released]
      split
      · rename_i folder
        have none : rest = [] := by_contra fun more => cuts ⟨folder,more⟩
        rwa [none] at member
      · exact member
    · rintro ⟨j,found,folder,_,large⟩
      rw [here,deleted.found] at found
      cases found
      rw [here] at folder large
      exact cuts ⟨folder,fun none => Nat.not_lt.mpr (size.mp none) large⟩

theorem tight_exact {v v' : Volume} {a : FsAction} (intact : Intact v) (tight : Tight v) (step : v.ClearStep a v') :
    Tight v' ↔ ¬ a.RunsOut v.driver ∧ ¬ a.CutsTail v.driver := by
  obtain ⟨code,_,effect⟩ := ClearStep.effect intact step
  cases effect with
  | refused _ refused =>
    refine iff_of_true tight ⟨fun out => ?_,fun cuts => ?_⟩
    · cases a with
      | write memory request =>
        obtain ⟨_,⟨i,c,writable⟩,_⟩ := out
        exact refused i c writable
      | delete request => exact out
    · cases a with
      | write memory request => exact cuts
      | delete request =>
        obtain ⟨i,found,_,empty,_⟩ := cuts
        rw [(refused i found).2] at empty
        cases empty
  | @folder v' memory request d i c empty wrote grown =>
    refine iff_of_true (wrote.inserted.tight intact tight fun file => ?_) ⟨fun out => out.1 empty,id⟩
    refine absurd ⟨c,?_,?_⟩ file
    · rw [grown]; exact Set.mem_insert c _
    · rw [wrote.entry,addEntry_cluster]
  | @file v' memory request d i c rest data wrote kept length enough =>
    refine iff_of_true (wrote.inserted.tight intact tight fun _ => ?_) ⟨fun out => ?_,id⟩
    · rw [wrote.entry,addEntry_here]
      exact length
    · exact absurd out.2.2 (Nat.not_lt.mpr enough)
  | short data wrote kept length few =>
    exact iff_of_false (wrote.short_leaks intact kept length) fun both => both.1 ⟨data,⟨_,_,wrote.writable⟩,few⟩
  | deleted deleted =>
    rw [deleted.tight_iff intact tight]
    exact ⟨fun whole => ⟨id,whole⟩,fun both => both.2⟩

theorem wellFormed_exact {v v' : Volume} {a : FsAction} (intact : Intact v) (well : WellFormed v)
    (step : v.NamedStep a v') : WellFormed v' ↔ ¬ a.RunsOut v.driver ∧ ¬ a.CutsTail v.driver := by
  rw [wellFormed_iff (ClearStep.intact intact (NamedStep.clear step))]
  exact tight_exact intact ((wellFormed_iff intact).mp well) (NamedStep.clear step)

theorem formatted_wellFormed (s : DriverState) : WellFormed (formatted s) :=
  (wellFormed_iff (formatted_intact s)).mpr (formatted_tight s)

theorem wellFormed_always_iff {s : DriverState} {history : List (Transition Volume FsAction)} {v : Volume}
    (run : Run Volume.NamedStep (formatted s) history v) :
    (∀ t ∈ history, WellFormed t.after) ↔
      ∀ t ∈ history, ¬ t.action.RunsOut t.before.driver ∧ ¬ t.action.CutsTail t.before.driver := by
  have exact : ∀ (v : Volume) (a : FsAction) (v' : Volume), Intact v → WellFormed v → v.NamedStep a v' →
      (WellFormed v' ↔ ¬ a.RunsOut v.driver ∧ ¬ a.CutsTail v.driver) := fun _ _ _ => wellFormed_exact
  exact Run.always_iff (formatted_intact s) (formatted_wellFormed s)
    (fun _ _ _ intact _ _ step => ClearStep.intact intact (NamedStep.clear step)) exact run

-- A folder, its removal, and a file of two clusters in the slot the folder left.
def reusedSlot : List FsAction := vacatedSlot ++ [.write blankMemory (rootRequest 'B' 2049)]

def deleteReused : FsAction := .delete (rootRequest 'B' 0)

theorem reusedSlot_named : ∀ a ∈ reusedSlot,
    a.request.parent_cluster_number = ROOT_CLUSTER_NUMBER ∧ a.request.Named := by
  intro a member
  rcases List.mem_append.mp member with before | last
  · exact vacatedSlot_named a before
  · cases List.mem_singleton.mp last
    exact ⟨rfl,rootRequest_named _ _ (by decide)⟩

theorem wellFormed_always_iff_reusedSlot : ∃ history v, Run Volume.NamedStep (formatted blankDrive) history v ∧
    history.map Transition.action = reusedSlot ∧
    ((∀ t ∈ history, WellFormed t.after) ↔
      ∀ t ∈ history, ¬ t.action.RunsOut t.before.driver ∧ ¬ t.action.CutsTail t.before.driver) := by
  obtain ⟨history,v,run,actions,_⟩ := rootRun (formatted_intact blankDrive) reusedSlot reusedSlot_named
  exact ⟨history,v,run,actions,wellFormed_always_iff run⟩

-- The slot still says `subdirectory`, so the delete frees the first of the file's
-- two clusters and the second stays allocated without an entry.
theorem reusedSlot_leaks : ∃ history v, Run Volume.NamedStep (formatted blankDrive) history v ∧
    history.map Transition.action = reusedSlot ++ [deleteReused] ∧ ¬ ∀ t ∈ history, WellFormed t.after := by
  obtain ⟨history,v,run,actions,replayed⟩ := rootRun (formatted_intact blankDrive) reusedSlot reusedSlot_named
  have intact := Run.intact (run.mono fun _ _ _ => NamedStep.clear)
  obtain ⟨_,v',ran,_⟩ := request_effect intact deleteReused ⟨2,intact.root,rfl⟩
    (Or.inl (rootRequest_named 'B' 0 (by decide)))
  have step : v.NamedStep deleteReused v' :=
    ⟨rootRequest_named 'B' 0 (by decide),⟨2,intact.root,rfl⟩,_,ran⟩
  refine ⟨_,v',.snoc run step,by rw [List.map_append,actions]; rfl,fun always => ?_⟩
  have well := run.last_of_always (formatted_wellFormed _) fun t member => always t (List.mem_append_left _ member)
  have after := always ⟨v,deleteReused,v'⟩ (List.mem_append_right _ (List.mem_singleton.mpr rfl))
  have cuts : (replay (create_fat32 blankDrive) reusedSlot).any (fun s => deleteReused.CutsTail s) = true := by
    decide +kernel
  rw [show replay (create_fat32 blankDrive) reusedSlot = some v.driver from replayed] at cuts
  exact ((wellFormed_exact intact well step).mp after).2 (by simpa using cuts)

end Sosis.Fat32
