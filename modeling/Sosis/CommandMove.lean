import Sosis.CommandCopyPath
import Sosis.Fat32Tree

-- mv of one file: what the copy and the deletes behind it leave of the drive.
namespace Sosis.Command
open ByteRecords Fat32 FirstFit LinkedCells

-- A copy appears at `c`, the file goes, and nothing else changes but what the copy
-- replaces.
structure OneMove (w w' : Volume) (y c : Place) (d : Cell) : Prop where
  intact : Intact w'
  sized : Sized w'
  linked : Linked w → Linked w'
  dirs : w'.dirs = {b ∈ w.dirs | ∀ j, target w y d = some j → cellNumber b ≠ (w.entry ⟨d,j⟩).cluster}
  dir : d ∈ w'.dirs
  arrived : c.dir = d
  vacant : vacancy (w.driver.table d) (target w y d) = some c.index
  carried : Carried w w' y c
  others : ∀ z, w.Live z → z ≠ y → ¬ Twin w w y d z → Undisturbed w w' z
  nothingElse : ∀ z, w'.Live z → z = c ∨ w.Live z ∧ z ≠ y ∧ ¬ Twin w w y d z
  source : w'.driver.table y.dir = deleteEntry (w.driver.table y.dir) y.index
  tables : ∀ b ∈ w'.dirs, b ≠ d → b ≠ y.dir → w'.driver.table b = w.driver.table b
  attr : ∀ j, (w'.driver.table d j).attr = (w.driver.table d j).attr
  used : ∀ j, (w'.driver.table d j).user_attribute = UATTR_NOT_EMPTY ↔
    j = c.index ∨ (w.driver.table d j).user_attribute = UATTR_NOT_EMPTY ∧ target w y d ≠ some j
  free : ∀ gone xs, w.Reclaims d (target w y d) gone → w.Chained y xs → (freeCells w'.driver.cluster_map).card +
    ceil (w.entry y).filesize.toNat = (freeCells w.driver.cluster_map).card + gone.length + xs.length

theorem Vacated.linked {w w' : Volume} {d : Cell} {name : Name} {ext : Ext} (h : Vacated w d name ext w') (intact : Intact w)
    (linked : Linked w) : Linked w' := by
  cases h with
  | absent => exact linked
  | blocked => exact linked
  | deleted deleted => exact deleted.removed.linked intact linked

theorem Arrives.linked {w w₀ w₁ : Volume} {y : Place} {d : Cell} {i : Fin DIRECTORY_ENTRY_COUNT}
    (arrives : Arrives w w₀ w₁ y d i) (intact : Intact w) (linked : Linked w) : Linked w₁ := by
  obtain ⟨_,_,_,_,wrote,_⟩ := arrives.wrote
  refine wrote.inserted.linked (arrives.vacated.intact intact) (arrives.vacated.linked intact linked) ?_
  exact fun b dir notOld => absurd (arrives.kept ▸ dir) notOld

section move
variable {w w₀ w₁ w₂ : Volume} {st : Shell} {y : Place} {d : Cell} {i : Fin DIRECTORY_ENTRY_COUNT} {frames : Nat → Frame}

-- The copy, then the deletes of the file at its old place.
theorem Arrives.moved (arrives : Arrives w w₀ w₁ y d i) (intact : Intact w) (live : w.Live y) (file : ¬ w.Folder y)
    (plain : (w.entry y).attr ≠ ATTR_SUBDIRECTORY) (elsewhere : y.dir ≠ d)
    (vacated : Vacated w₁ y.dir (w.entry y).name (w.entry y).ext w₂) (dir : d ∈ w.dirs) : OneMove w w₂ y ⟨d,i⟩ d := by
  have intact₁ := arrives.intact
  have intact₂ := vacated.intact intact₁
  have still := arrives.undisturbed intact live fun twin => elsewhere twin.1
  have found := intact₁.find_self still.live
  rw [still.entry] at found
  have plain₁ : (w₁.entry ⟨y.dir,y.index⟩).attr ≠ ATTR_SUBDIRECTORY := by
    rw [show w₁.entry ⟨y.dir,y.index⟩ = w.entry y from still.entry]
    exact plain
  obtain ⟨buf,c,rest,deleted,table⟩ := vacated.file found plain₁
  have dirs : w₂.dirs = w₁.dirs := vacated.dirs_eq fun j at_ => by
    cases found.symm.trans at_
    exact still.file arrives.dirs_subset file
  have absent : findEntry (w₂.driver.table y.dir) (w.entry y).name (w.entry y).ext = none := by
    rcases vacated.absent_or intact₁ (intact.named y live) with absent | ⟨_,j,at_,folder,_⟩
    · exact absent
    · cases found.symm.trans at_
      exact absurd folder plain₁
  have carried := arrives.carried intact
  have keeps := vacated.undisturbed intact₁ carried.live fun here => absurd here.symm elsewhere
  have inDirs : d ∈ w₁.dirs := by
    rw [arrives.kept]
    exact arrives.vacated.dir_kept dir
  have tables {b : Cell} (member : b ∈ w₂.dirs) (other : b ≠ y.dir) : w₂.driver.table b = w₁.driver.table b :=
    vacated.table_elsewhere intact₁ member other
  have ownDir : d ∈ w₂.dirs := dirs ▸ inDirs
  refine ⟨intact₂,vacated.sized intact₁ arrives.sized,fun linked => vacated.linked intact₁ (arrives.linked intact linked),
    dirs.trans arrives.dirs,ownDir,rfl,arrives.vacant,
    carried.trans (keeps.carried intact₁ intact₂ dirs.subset carried.live carried.file),?_,?_,?_,?_,?_,?_,?_⟩
  · intro z liveZ other notTwin
    have first := arrives.undisturbed intact liveZ notTwin
    refine first.trans (vacated.undisturbed intact₁ first.live fun here same => other ?_) arrives.dirs_subset
    rw [first.entry] at same
    exact intact.unique z y liveZ live here same
  · intro z liveZ
    rcases arrives.nothingElse intact (vacated.live_before intact₁ liveZ) with here | ⟨before,notTwin⟩
    · exact Or.inl here
    · refine Or.inr ⟨before,?_,notTwin⟩
      rintro rfl
      refine vacated.gone intact₁ absent liveZ ⟨rfl,?_⟩
      rw [still.entry]
      exact ⟨rfl,rfl⟩
  · rw [table,arrives.table intact (still.live.1.1) elsewhere]
  · intro b member notD notY
    rw [tables member notY]
    exact arrives.table intact (dirs ▸ member) notD
  · intro j
    rw [tables ownDir elsewhere.symm]
    exact (arrives.slots j).1
  · intro j
    rw [tables ownDir elsewhere.symm]
    exact (arrives.slots j).2
  · intro gone xs reclaims chain
    obtain ⟨gone',reclaims',free⟩ := arrives.free intact
    cases reclaims.unique reclaims'
    obtain rfl : xs = c :: rest := Chain.unique cells_pointers (still.chain xs chain) deleted.removed.chain
    rw [deleted.free_card intact₁]
    omega

theorem Movable.moves (h : Movable w y d) (intact : Intact w) (sized : Sized w) (live : w.Live y) (file : ¬ w.Folder y)
    (dir : d ∈ w.dirs) (drive : st.driver = w.driver) (frames : Nat → Frame) (fuel : Nat) :
    ∃ st' w' c, transfer frames (fuel+1) true st (w.entry y).name (w.entry y).ext (cellNumber y.dir) (cellNumber d) =
        some st' ∧ st'.driver = w'.driver ∧ OneMove w w' y c d := by
  obtain ⟨data,readable⟩ := h.readable
  have plain := readable.file (intact.find_self live)
  obtain ⟨st₁,w₀,w₁,i,copied,drive₁,_,arrives⟩ := h.copies intact sized live file dir drive frames fuel
  have still := arrives.undisturbed intact live fun twin => h.elsewhere twin.1
  obtain ⟨w₂,removed,vacated⟩ := remove_vacates arrives.intact still.live.1.1 (intact.named y live) drive₁
    (frames (fuel+1)).remove_buf
  refine ⟨{st₁ with driver := w₂.driver},w₂,⟨d,i⟩,?_,rfl,arrives.moved intact live file plain h.elsewhere vacated dir⟩
  unfold transfer
  rw [copied,Option.bind_eq_bind,Option.bind_some,if_pos rfl]
  exact removed

end move

end Sosis.Command
