import Sosis.Fat32Effects

-- Histories whose requests may carry any name. An all-zero name can hit a dead slot,
-- and a delete of it walks cell 0; what still holds then is that pointers do not
-- cross and that no directory in use is handed out again.
namespace Sosis.Fat32
open ByteRecords LinkedCells TransitionRuns

structure Sound (v : Volume) : Prop where
  steady : Steady v
  straight : Straight v.driver.cluster_map
  target : ∀ b j, v.driver.cluster_map b = cellNumber j → j.val ≠ 0 → j.val ≠ 1 ∧ j ∉ v.dirs
  head : ∀ x, v.Holds x → (v.entry x).cluster ≠ 0 → ∃ c, (v.entry x).cluster = cellNumber c ∧ c.val ≠ 1 ∧
    v.driver.cluster_map c ≠ 0 ∧ ∀ b, v.driver.cluster_map b ≠ cellNumber c
  distinct : ∀ x y, v.Holds x → v.Holds y → (v.entry x).cluster ≠ 0 →
    (v.entry y).cluster = (v.entry x).cluster → x = y

theorem formatted_sound (s : DriverState) : Sound (formatted s) := by
  have steady := (formatted_intact s).steady
  have noPointer : ∀ b j : Cell, formatMap b = cellNumber j → j.val = 0 := by
    intro b j points
    have number := congrArg BitVec.toNat points
    rw [cellNumber_toNat] at number
    have bound : j.val < 512 := j.isLt
    unfold formatMap at number
    split at number
    · rw [show CLUSTER_0_VALUE.toNat = 0x0FFFFFF0 from rfl] at number; omega
    · split at number
      · rw [show CLUSTER_1_VALUE.toNat = 0x0FFFFFFF from rfl] at number; omega
      · split at number
        · rw [show FAT32_FAT_END_OF_FILE.toNat = 0x0FFFFFFF from rfl] at number; omega
        · exact number.symm
  have empty : ∀ x, (formatted s).Holds x → ((formatted s).entry x).cluster = 0 := by
    intro x holds
    rw [formatted_slot s holds]
    rfl
  exact ⟨steady,⟨fun b j points nonzero => absurd (noPointer b j points) nonzero,
      fun b _ j nonzero points => absurd (noPointer b j points) nonzero⟩,
    fun b j points nonzero => absurd (noPointer b j points) nonzero,
    fun x holds used => absurd (empty x holds) used,fun x _ holds _ used => absurd (empty x holds) used⟩

section wrote
variable {v v' : Volume} {memory : Memory} {request : FAT32DriverRequest} {d c : Cell}
  {i : Fin DIRECTORY_ENTRY_COUNT} {rest : List Cell}

theorem Wrote.dirs_cases (h : Wrote v v' memory request d i c rest) {b : Cell} (dir : b ∈ v'.dirs) :
    b ∈ v.dirs ∨ b = c ∧ rest = [] ∧ ∀ j : Fin DIRECTORY_ENTRY_COUNT, 2 ≤ j.val → v'.entry ⟨b,j⟩ = .zero := by
  rcases h.inserted.dir_cases dir with old | ⟨list,_,clean⟩
  · exact Or.inl old
  · cases list
    exact Or.inr ⟨rfl,rfl,clean⟩

theorem Wrote.pointer_cases (h : Wrote v v' memory request d i c rest) {b j : Cell}
    (points : v'.driver.cluster_map b = cellNumber j) :
    b ∉ c :: rest ∧ v.driver.cluster_map b = cellNumber j ∨ b ∈ c :: rest ∧ j ∈ c :: rest := by
  by_cases isNew : b ∈ c :: rest
  · rcases h.inserted.chain.cell_of_mem isNew with ends | ⟨next,member,onward⟩
    · exact absurd (points.symm.trans ends) (cellNumber_ne_end j)
    · cases cellNumber_injective (points.symm.trans onward)
      exact Or.inr ⟨isNew,member⟩
  · rw [h.inserted.mapFrame b isNew] at points
    exact Or.inl ⟨isNew,points⟩

theorem Wrote.slot_cases (h : Wrote v v' memory request d i c rest) (steady : Steady v) {y : Place} (holds : v'.Holds y) :
    y = ⟨d,i⟩ ∨ v.Holds y ∧ v'.entry y = v.entry y ∨ (v'.entry y).cluster = 0 := by
  by_cases here : y = ⟨d,i⟩
  · exact Or.inl here
  · rcases h.dirs_cases holds.1 with old | ⟨_,_,clean⟩
    · exact Or.inr (Or.inl ⟨⟨old,holds.2⟩,h.inserted.entry_frame steady ⟨old,holds.2⟩ here⟩)
    · refine Or.inr (Or.inr ?_)
      rw [show v'.entry y = .zero from clean y.index holds.2]
      rfl

theorem Wrote.head_unpointed (h : Wrote v v' memory request d i c rest) {b : Cell} (member : b ∈ c :: rest) :
    v'.driver.cluster_map b ≠ cellNumber c := by
  have chain := h.inserted.chain
  exact chain.head_unpointed cells_pointers member

theorem Wrote.kept (h : Wrote v v' memory request d i c rest) {b : Cell} (taken : v.driver.cluster_map b ≠ 0) :
    v'.driver.cluster_map b = v.driver.cluster_map b :=
  h.inserted.mapFrame b fun member => taken (h.inserted.fresh b member)

theorem Wrote.start (h : Wrote v v' memory request d i c rest) : (v'.entry ⟨d,i⟩).cluster = cellNumber c := by
  rw [h.entry,addEntry_cluster]

theorem Wrote.steady (h : Wrote v v' memory request d i c rest) (steady : Steady v) : Steady v' where
  fatTaken := by
    rw [h.kept steady.fatTaken]
    exact steady.fatTaken
  dirTaken := by
    intro b dir
    rcases h.dirs_cases dir with old | ⟨rfl,_⟩
    · rw [h.kept (steady.dirTaken b old)]
      exact steady.dirTaken b old
    · exact h.taken b (List.mem_cons_self ..)
  dirNotFat := by
    intro b dir
    rcases h.dirs_cases dir with old | ⟨rfl,_⟩
    · exact steady.dirNotFat b old
    · exact steady.fresh_not_fat (h.inserted.fresh b (List.mem_cons_self ..))

-- A pointer into the cells written would have made them taken before.
theorem Wrote.straight (h : Wrote v v' memory request d i c rest) (straight : Straight v.driver.cluster_map) :
    Straight v'.driver.cluster_map where
  occupied := by
    intro b j points nonzero
    rcases h.pointer_cases points with ⟨_,old⟩ | ⟨_,member⟩
    · have taken := straight.occupied b j old nonzero
      rw [h.kept taken]
      exact taken
    · exact h.taken j member
  single := by
    intro b b' j nonzero left right
    have fresh := h.inserted.fresh
    rcases h.pointer_cases left with ⟨_,oldL⟩ | ⟨inL,member⟩ <;>
      rcases h.pointer_cases right with ⟨_,oldR⟩ | ⟨inR,memberR⟩
    · exact straight.single b b' j nonzero oldL oldR
    · exact absurd (fresh j memberR) (straight.occupied b j oldL nonzero)
    · exact absurd (fresh j member) (straight.occupied b' j oldR nonzero)
    · exact h.inserted.chain.pointer_unique cells_pointers inL inR (left.trans right.symm)

theorem Sound.start_taken (sound : Sound v) {x : Place} (holds : v.Holds x) (used : (v.entry x).cluster ≠ 0)
    {b : Cell} (start : (v.entry x).cluster = cellNumber b) : v.driver.cluster_map b ≠ 0 := by
  obtain ⟨e,at_,_,taken,_⟩ := sound.head x holds used
  cases cellNumber_injective (start.symm.trans at_)
  exact taken

theorem Wrote.sound (h : Wrote v v' memory request d i c rest) (sound : Sound v) : Sound v' where
  steady := h.steady sound.steady
  straight := h.straight sound.straight
  target := by
    intro b j points nonzero
    have fresh := h.inserted.fresh
    rcases h.pointer_cases points with ⟨_,old⟩ | ⟨inChain,member⟩
    · have former := sound.target b j old nonzero
      refine ⟨former.1,fun dir => ?_⟩
      rcases h.dirs_cases dir with oldDir | ⟨rfl,_⟩
      · exact former.2 oldDir
      · exact sound.straight.occupied b j old nonzero (fresh j (List.mem_cons_self ..))
    · refine ⟨sound.steady.fresh_not_fat (fresh j member),fun dir => ?_⟩
      rcases h.dirs_cases dir with oldDir | ⟨rfl,_⟩
      · exact sound.steady.dirTaken j oldDir (fresh j member)
      · exact h.head_unpointed inChain points
  head := by
    intro y holds used
    have freshC := h.inserted.fresh c (List.mem_cons_self ..)
    rcases h.slot_cases sound.steady holds with rfl | ⟨old,same⟩ | zero
    · refine ⟨c,h.start,sound.steady.fresh_not_fat freshC,h.taken c (List.mem_cons_self ..),fun b points => ?_⟩
      rcases h.pointer_cases points with ⟨_,oldPointer⟩ | ⟨member,_⟩
      · refine sound.straight.occupied b c oldPointer ?_ freshC
        exact fun zero => used (h.start.trans (cellNumber_eq_zero.mpr zero))
      · exact h.head_unpointed member points
    · rw [same] at used ⊢
      obtain ⟨e,at_,notFat,taken,unpointed⟩ := sound.head y old used
      refine ⟨e,at_,notFat,?_,fun b points => ?_⟩
      · rw [h.kept taken]
        exact taken
      · rcases h.pointer_cases points with ⟨_,oldPointer⟩ | ⟨_,member⟩
        · exact unpointed b oldPointer
        · exact taken (h.inserted.fresh e member)
    · exact absurd zero used
  distinct := by
    intro y z holdsY holdsZ used same
    have freshC := h.inserted.fresh c (List.mem_cons_self ..)
    rcases h.slot_cases sound.steady holdsY with rfl | ⟨oldY,sameY⟩ | zero
    · rcases h.slot_cases sound.steady holdsZ with rfl | ⟨oldZ,sameZ⟩ | zeroZ
      · rfl
      · rw [sameZ] at same
        exact absurd freshC (sound.start_taken oldZ (by rw [same]; exact used) (same.trans h.start))
      · exact absurd (same.symm.trans zeroZ) used
    · rcases h.slot_cases sound.steady holdsZ with rfl | ⟨oldZ,sameZ⟩ | zeroZ
      · rw [sameY] at used same
        exact absurd freshC (sound.start_taken oldY used (same.symm.trans h.start))
      · rw [sameY] at used
        rw [sameY,sameZ] at same
        exact sound.distinct y z oldY oldZ used same
      · exact absurd (same.symm.trans zeroZ) used
    · exact absurd zero used

end wrote

-- A delete has freed the cells `gone`: the start of an entry and cells reached from
-- it by pointers.
structure Freed (v v' : Volume) (x : Place) (c : Cell) (gone : List Cell) : Prop where
  holds : v.Holds x
  start : (v.entry x).cluster = cellNumber c
  first : c ∈ gone
  linked : ∀ j ∈ gone, j = c ∨ j.val ≠ 0 ∧ ∃ b ∈ gone, v.driver.cluster_map b = cellNumber j
  freed : ∀ b ∈ gone, v'.driver.cluster_map b = 0
  mapFrame : ∀ b, b ∉ gone → v'.driver.cluster_map b = v.driver.cluster_map b
  vacated : (v'.entry x).cluster = 0
  tableFrame : ∀ i, i ≠ x.index → v'.driver.table x.dir i = v.driver.table x.dir i
  clusterFrame : ∀ n, n ≠ x.dir.val → n ≠ 1 → (∀ b ∈ gone, b.val ≠ n) → v'.driver.cluster n = v.driver.cluster n
  shrunk : ∀ b ∈ v'.dirs, b ∈ v.dirs ∧ b ≠ c

section freed
variable {v v' : Volume} {x : Place} {c : Cell} {gone : List Cell}

theorem Freed.unpointed (h : Freed v v' x c gone) (sound : Sound v) (nonzero : c.val ≠ 0) (b : Cell) :
    v.driver.cluster_map b ≠ cellNumber c := by
  have used : (v.entry x).cluster ≠ 0 := by
    rw [h.start,Ne,cellNumber_eq_zero]
    exact nonzero
  obtain ⟨e,at_,_,_,unpointed⟩ := sound.head x h.holds used
  cases cellNumber_injective (at_.symm.trans h.start)
  exact unpointed b

theorem Freed.dir_kept (h : Freed v v' x c gone) (sound : Sound v) {b : Cell} (dir : b ∈ v'.dirs) : b ∉ gone := by
  intro member
  obtain ⟨old,notStart⟩ := h.shrunk b dir
  rcases h.linked b member with same | ⟨nonzero,e,_,points⟩
  · exact notStart same
  · exact (sound.target e b points nonzero).2 old

theorem Freed.entry_frame (h : Freed v v' x c gone) (sound : Sound v) {y : Place} (holds : v'.Holds y) (other : y ≠ x) :
    v'.entry y = v.entry y := by
  have old := (h.shrunk y.dir holds.1).1
  unfold Volume.entry
  by_cases here : y.dir = x.dir
  · rw [here]
    refine h.tableFrame y.index fun same => other ?_
    obtain ⟨_,_⟩ := y
    cases here
    cases same
    rfl
  · have kept := h.clusterFrame y.dir.val (fun same => here (Fin.ext same)) (sound.steady.dirNotFat _ old)
      (fun b member same => h.dir_kept sound holds.1 (Fin.ext same ▸ member))
    rw [DriverState.table_congr kept]

theorem Freed.pointer_old (h : Freed v v' x c gone) {b j : Cell} (points : v'.driver.cluster_map b = cellNumber j)
    (nonzero : j.val ≠ 0) : b ∉ gone ∧ v.driver.cluster_map b = cellNumber j := by
  have out : b ∉ gone := by
    intro member
    rw [h.freed b member] at points
    exact nonzero (cellNumber_eq_zero.mp points.symm)
  rw [h.mapFrame b out] at points
  exact ⟨out,points⟩

-- A cell of another entry, or one that is still pointed at, was not freed.
theorem Freed.target_kept (h : Freed v v' x c gone) (sound : Sound v) {b j : Cell} (out : b ∉ gone)
    (points : v.driver.cluster_map b = cellNumber j) (nonzero : j.val ≠ 0) : j ∉ gone := by
  intro member
  rcases h.linked j member with rfl | ⟨_,e,inGone,pointsE⟩
  · exact h.unpointed sound nonzero b points
  · exact out (sound.straight.single b e j nonzero points pointsE ▸ inGone)

theorem Freed.slot_kept (h : Freed v v' x c gone) (sound : Sound v) {y : Place} (holds : v'.Holds y)
    (used : (v'.entry y).cluster ≠ 0) : y ≠ x ∧ v.Holds y ∧ v'.entry y = v.entry y := by
  have other : y ≠ x := by
    rintro rfl
    exact used h.vacated
  exact ⟨other,⟨(h.shrunk y.dir holds.1).1,holds.2⟩,h.entry_frame sound holds other⟩

theorem Freed.fat_kept (h : Freed v v' x c gone) (sound : Sound v) : (1 : Cell) ∉ gone := by
  intro member
  rcases h.linked 1 member with same | ⟨nonzero,b,_,points⟩
  · obtain ⟨e,at_,notFat,_,_⟩ := sound.head x h.holds (by
      rw [h.start,← same,Ne,cellNumber_eq_zero]
      decide)
    cases cellNumber_injective (at_.symm.trans h.start)
    exact notFat (by rw [← same]; rfl)
  · exact (sound.target b 1 points nonzero).1 rfl

theorem Freed.steady (h : Freed v v' x c gone) (sound : Sound v) : Steady v' where
  fatTaken := by
    rw [h.mapFrame 1 (h.fat_kept sound)]
    exact sound.steady.fatTaken
  dirTaken := by
    intro b dir
    rw [h.mapFrame b (h.dir_kept sound dir)]
    exact sound.steady.dirTaken b (h.shrunk b dir).1
  dirNotFat := fun b dir => sound.steady.dirNotFat b (h.shrunk b dir).1

theorem Freed.straight (h : Freed v v' x c gone) (sound : Sound v) : Straight v'.driver.cluster_map where
  occupied := by
    intro b j points nonzero
    obtain ⟨out,old⟩ := h.pointer_old points nonzero
    rw [h.mapFrame j (h.target_kept sound out old nonzero)]
    exact sound.straight.occupied b j old nonzero
  single := fun b b' j nonzero left right =>
    sound.straight.single b b' j nonzero (h.pointer_old left nonzero).2 (h.pointer_old right nonzero).2

-- The start of another entry is nobody's target, so the walk did not reach it.
theorem Freed.start_kept (h : Freed v v' x c gone) (sound : Sound v) {y : Place} (other : y ≠ x) (old : v.Holds y)
    (used : (v.entry y).cluster ≠ 0) {e : Cell} (at_ : (v.entry y).cluster = cellNumber e)
    (unpointed : ∀ b, v.driver.cluster_map b ≠ cellNumber e) : e ∉ gone := by
  intro member
  rcases h.linked e member with isStart | ⟨_,b,_,points⟩
  · exact other (sound.distinct y x old h.holds used (by rw [h.start,at_,isStart]))
  · exact unpointed b points

theorem Freed.sound (h : Freed v v' x c gone) (sound : Sound v) : Sound v' where
  steady := h.steady sound
  straight := h.straight sound
  target := by
    intro b j points nonzero
    have former := sound.target b j (h.pointer_old points nonzero).2 nonzero
    exact ⟨former.1,fun dir => former.2 (h.shrunk j dir).1⟩
  head := by
    intro y holds used
    obtain ⟨other,old,same⟩ := h.slot_kept sound holds used
    rw [same] at used ⊢
    obtain ⟨e,at_,notFat,taken,unpointed⟩ := sound.head y old used
    have nonzero : e.val ≠ 0 := fun zero => used (at_.trans (cellNumber_eq_zero.mpr zero))
    refine ⟨e,at_,notFat,?_,fun b points => unpointed b (h.pointer_old points nonzero).2⟩
    rw [h.mapFrame e (h.start_kept sound other old used at_ unpointed)]
    exact taken
  distinct := by
    intro y z holdsY holdsZ used same
    obtain ⟨_,oldY,sameY⟩ := h.slot_kept sound holdsY used
    obtain ⟨_,oldZ,sameZ⟩ := h.slot_kept sound holdsZ (by rw [same]; exact used)
    rw [sameY] at used
    rw [sameY,sameZ] at same
    exact sound.distinct y z oldY oldZ used same

end freed

-- Cell 0 free, the walk from it stays there.
theorem deleteLoop_zero {fuel : Nat} {s : DriverState} (free : s.cluster_map 0 = 0) : deleteLoop fuel s 0 = none := by
  induction fuel generalizing s with
  | zero =>
    unfold deleteLoop
    rw [dif_pos (show (0 : Word).toNat < CLUSTER_MAP_SIZE by decide)]
    exact if_neg (show s.cluster_map 0 ≠ FAT32_FAT_END_OF_FILE from free ▸ end_ne_zero.symm)
  | succ fuel ih =>
    unfold deleteLoop
    rw [dif_pos (show (0 : Word).toNat < CLUSTER_MAP_SIZE by decide)]
    have notEnd : s.cluster_map 0 ≠ FAT32_FAT_END_OF_FILE := free ▸ end_ne_zero.symm
    refine (if_neg notEnd).trans ?_
    change deleteLoop fuel (releaseState s 0) (s.cluster_map 0) = none
    rw [free]
    exact ih (by rw [releaseState_map,if_pos rfl])

section delete
variable {v : Volume} {request : FAT32DriverRequest} {d c : Cell} {i : Fin DIRECTORY_ENTRY_COUNT}

theorem Freed.of_parts (r : DriverState) (gone : List Cell) (sound : Sound v) (dir : d ∈ v.dirs)
    (parent : request.parent_cluster_number = cellNumber d)
    (found : findEntry (v.driver.table d) request.name request.ext = some i)
    (start : (v.entry ⟨d,i⟩).cluster = cellNumber c) (first : c ∈ gone)
    (linked : ∀ j ∈ gone, j = c ∨ j.val ≠ 0 ∧ ∃ b ∈ gone, v.driver.cluster_map b = cellNumber j)
    (freed : ∀ b ∈ gone, r.cluster_map b = 0)
    (mapFrame : ∀ b, b ∉ gone → r.cluster_map b = v.driver.cluster_map b)
    (clusterFrame : ∀ n, (∀ b ∈ gone, b.val ≠ n) → r.cluster n = v.driver.cluster n) :
    Freed v ⟨removedState v.driver request i r,{b | b ∈ v.dirs ∧ cellNumber b ≠ findCluster v.driver request}⟩
      ⟨d,i⟩ c gone := by
  have table : (removedState v.driver request i r).table d = deleteEntry (v.driver.table d) i :=
    removed_table sound.steady dir parent r
  have here := deleteEntry_here (v.driver.table d) i
  rw [← table] at here
  refine ⟨⟨dir,(findEntry_some.mp found).1⟩,start,first,linked,freed,mapFrame,here.2.2.2,?_,?_,?_⟩
  · intro j other
    exact (congrFun table j).trans (deleteEntry_other _ other)
  · intro n notDir notFat out
    exact (removed_frame parent r notDir notFat).trans (clusterFrame n out)
  · rintro b ⟨old,notStart⟩
    rw [findCluster_found parent found,start] at notStart
    exact ⟨old,fun same => notStart (congrArg cellNumber same)⟩

end delete

theorem AddressedStep.sound {v v' : Volume} {a : FsAction} (sound : Sound v) (step : v.AddressedStep a v') : Sound v' := by
  obtain ⟨⟨d,dir,parent⟩,code,ran⟩ := step
  cases a with
  | write memory request =>
    obtain ⟨code',v'',ran',effect⟩ :=
      write_effect (show request.parent_cluster_number = cellNumber d from parent) dir sound.steady memory
    rw [ran'] at ran
    cases ran
    cases effect with
    | refused => exact sound
    | folder _ wrote => exact wrote.sound sound
    | file _ wrote => exact wrote.sound sound
    | short _ wrote => exact wrote.sound sound
  | delete request =>
    obtain ⟨⟨code',s⟩,deleted,same⟩ := Option.map_eq_some_iff.mp ran
    cases same
    have table : v.driver.directory request.parent_cluster_number = v.driver.table d := parent_table parent
    rcases delete_parts deleted with ⟨failed,rfl⟩ | ⟨rfl,i,found,way⟩
    · have kept : (FsAction.delete request).directories v code v.driver = v.dirs := if_neg failed
      rw [kept]
      exact sound
    · rw [table] at found way
      have shrunk : ∀ s, (FsAction.delete request).directories v 0 s =
          {b | b ∈ v.dirs ∧ cellNumber b ≠ findCluster v.driver request} := by
        intro s
        simp only [FsAction.directories,if_true]
      rw [shrunk]
      rcases way with ⟨c,start,rfl⟩ | ⟨r,walked,rfl⟩
      · refine (Freed.of_parts _ [c] sound dir parent found start (by simp) (by simp) ?_ ?_ ?_).sound sound
        · simp
        · intro b out
          exact Function.update_of_ne (by simpa using out) _ _
        · intro n out
          exact DriverState.writeDirectory_other _ fun same => out c (by simp) (by rw [same,slot_cellNumber])
      · have holds : v.Holds ⟨d,i⟩ := ⟨dir,(findEntry_some.mp found).1⟩
        obtain ⟨c,start⟩ : ∃ c, (v.entry ⟨d,i⟩).cluster = cellNumber c := deleteLoop_inside walked
        have walkedHere : deleteLoop walkFuel v.driver (cellNumber c) = some r := start ▸ walked
        have head : v.driver.cluster_map c ≠ 0 ∧ (c.val ≠ 0 → ∀ b, v.driver.cluster_map b ≠ cellNumber c) := by
          by_cases zero : c.val = 0
          · refine ⟨fun free => ?_,fun nonzero => absurd zero nonzero⟩
            rw [cellNumber_eq_zero.mpr zero,deleteLoop_zero ((show c = 0 from Fin.ext zero) ▸ free)] at walkedHere
            cases walkedHere
          · obtain ⟨e,at_,_,taken,unpointed⟩ := sound.head _ holds (by
              rw [start,Ne,cellNumber_eq_zero]
              exact zero)
            cases cellNumber_injective (at_.symm.trans start)
            exact ⟨taken,fun _ => unpointed⟩
        obtain ⟨rest,released,linked⟩ := deleteLoop_some sound.straight head.2 head.1 walkedHere
        refine (Freed.of_parts r (c :: rest) sound dir parent found start (by simp) (fun j member => ?_) released.freed
          released.mapFrame released.clusterFrame).sound sound
        rcases List.mem_cons.mp member with isHead | inRest
        · exact Or.inl isHead
        · exact Or.inr (linked j inRest)

theorem Run.sound {s : DriverState} {history : List (Transition Volume FsAction)} {v : Volume}
    (run : Run Volume.AddressedStep (formatted s) history v) : Sound v :=
  run.invariant (formatted_sound s) fun _ _ _ sound step => AddressedStep.sound sound step

end Sosis.Fat32
