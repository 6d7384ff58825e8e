import Mathlib.Data.Finset.Option
import Sosis.Fat32Lookup

-- Names over a history whose requests may carry any name. A directory ends here with
-- the delete of a live entry, not with every delete that happens to free its cluster.
namespace Sosis.Fat32
open ByteRecords LinkedCells TransitionRuns

structure Ledger where
  driver : DriverState
  dirs : Finset Cell

def cellOf (w : Word) : Option Cell := if bound : w.toNat < CLUSTER_MAP_SIZE then some ⟨_,bound⟩ else none

-- The entry a delete finds is one in use.
def struck (s : DriverState) (request : FAT32DriverRequest) : Bool :=
  let dir_table := s.directory request.parent_cluster_number
  (findEntry dir_table request.name request.ext).any fun i => (dir_table i).user_attribute == UATTR_NOT_EMPTY

def FsAction.folders (l : Ledger) (code : Int) (s : DriverState) : FsAction → Finset Cell
  | .write _ request =>
    if code = 0 ∧ request.buffer_size = 0 then l.dirs ∪ (cellOf (findCluster s request)).toFinset else l.dirs
  | .delete request =>
    if code = 0 ∧ struck l.driver request then l.dirs \ (cellOf (findCluster l.driver request)).toFinset else l.dirs

namespace Ledger

def volume (l : Ledger) : Volume := ⟨l.driver,l.dirs⟩

def respond (l : Ledger) (a : FsAction) : Option (Int × Ledger) :=
  (a.respond l.driver).map fun (code,s) => (code,⟨s,a.folders l code s⟩)

def Addressed (l : Ledger) (request : FAT32DriverRequest) : Prop :=
  ∃ d ∈ l.dirs, request.parent_cluster_number = cellNumber d

instance (l : Ledger) : DecidablePred l.Addressed := fun _ => inferInstanceAs (Decidable (∃ d ∈ l.dirs, _))

def Step (l : Ledger) (a : FsAction) (l' : Ledger) : Prop :=
  l.Addressed a.request ∧ ∃ code, l.respond a = some (code,l')

end Ledger

def formattedLedger (s : DriverState) : Ledger := ⟨create_fat32 s,{2}⟩

structure NamesUnique (l : Ledger) : Prop where
  unique : ∀ x y, l.volume.Live x → l.volume.Live y → x.dir = y.dir →
    (l.volume.entry x).Named (l.volume.entry y).name (l.volume.entry y).ext → x = y
  named : ∀ x, l.volume.Live x → ¬ (l.volume.entry x).Unnamed

-- What was written under the name is at the cluster that the name leads to.
def Recorded (s : DriverState) (a : FsAction) (s' : DriverState) : Prop :=
  match a with
  | .write memory request => write s memory request = some (0,s') →
      ∃ c, findCluster s' request = cellNumber c ∧
        (request.buffer_size = 0 → s'.table c =
          init_directory_table zeroTable request.name request.parent_cluster_number) ∧
        (request.buffer_size ≠ 0 → s'.cluster c = clip (memory.at request.buf))
  | .delete _ => True

variable {v v' : Volume} {l l' : Ledger} {a : FsAction}

theorem cellOf_eq {w : Word} {d : Cell} : cellOf w = some d ↔ cellNumber d = w := by
  unfold cellOf
  constructor
  · intro found
    obtain ⟨bound,same⟩ := Option.dite_none_right_eq_some.mp found
    cases same
    exact cellNumber_of_lt w bound
  · rintro rfl
    rw [dif_pos (by rw [cellNumber_toNat]; exact d.isLt)]
    exact congrArg some (Fin.ext (cellNumber_toNat d))

theorem mem_cellOf {w : Word} {d : Cell} : d ∈ (cellOf w).toFinset ↔ cellNumber d = w := by
  rw [Option.mem_toFinset,Option.mem_def,cellOf_eq]

theorem folders_write (memory : Memory) (request : FAT32DriverRequest) (code : Int) (s : DriverState) :
    (((FsAction.write memory request).folders l code s : Finset Cell) : Set Cell) =
      (FsAction.write memory request).directories l.volume code s := by
  simp only [FsAction.folders,FsAction.directories]
  split
  · ext d
    rw [Finset.mem_coe,Finset.mem_union,mem_cellOf]
    rfl
  · rfl

theorem folders_delete {request : FAT32DriverRequest} {code : Int} (used : code = 0 → struck l.driver request = true)
    (s : DriverState) : (((FsAction.delete request).folders l code s : Finset Cell) : Set Cell) =
      (FsAction.delete request).directories l.volume code s := by
  simp only [FsAction.folders,FsAction.directories]
  by_cases zero : code = 0
  · rw [if_pos ⟨zero,used zero⟩,if_pos zero]
    ext d
    rw [Finset.mem_coe,Finset.mem_sdiff,mem_cellOf]
    rfl
  · rw [if_neg (fun both => zero both.1),if_neg zero]
    rfl

-- Where no dead slot answers to the name, both ways of counting directories agree.
theorem Ledger.Step.clear (intact : Intact l.volume) (clear : a.Clear l.volume) (step : l.Step a l') :
    l.volume.ClearStep a l'.volume := by
  obtain ⟨⟨d,dir,parent⟩,code,ran⟩ := step
  obtain ⟨⟨code',s⟩,responded,same⟩ := Option.map_eq_some_iff.mp ran
  cases same
  have agree : ((a.folders l code s : Finset Cell) : Set Cell) = a.directories l.volume code s := by
    cases a with
    | write memory request => exact folders_write memory request code s
    | delete request =>
      refine folders_delete (fun zero => ?_) s
      rcases delete_parts responded with ⟨failed,_⟩ | ⟨_,i,found,_⟩
      · exact absurd zero failed
      · have table : l.driver.directory request.parent_cluster_number = l.driver.table d := parent_table (v := l.volume) parent
        rw [table] at found
        have live := Clear.live (v := l.volume) dir parent intact clear found
        simp only [struck,table,found,Option.any_some]
        exact beq_iff_eq.mpr live.2
  refine ⟨clear,⟨d,dir,parent⟩,code,?_⟩
  simp only [Volume.respond,Ledger.volume,responded,Option.map_some,agree]

theorem ClearStep.recorded (intact : Intact v) (step : v.ClearStep a v') : Recorded v.driver a v'.driver := by
  obtain ⟨code,ran,effect⟩ := ClearStep.effect intact step
  have responded := respond_driver ran
  cases effect with
  | @refused code a failed =>
    cases a with
    | delete request => trivial
    | write memory request =>
      intro written
      cases written.symm.trans responded
      exact absurd rfl failed
  | @folder _ memory request d i c empty wrote =>
    intro _
    refine ⟨c,wrote.findCluster_after,fun _ => ?_,fun data => absurd empty data⟩
    have made := responded.symm.trans (wrote.writable.write_folder memory empty)
    rw [(Prod.mk.inj (Option.some.inj made)).2]
    exact folderState_table (intact.steady.fresh_not_fat (wrote.inserted.fresh c (by simp)))
  | @file _ memory request d i c rest data wrote =>
    intro _
    refine ⟨c,wrote.findCluster_after,fun empty => absurd empty data,fun _ => ?_⟩
    have whole : drop (memory.at request.buf) (0*CLUSTER_SIZE) = memory.at request.buf := by
      funext k
      simp
    exact (wrote.stored data 0 (by simp)).trans (congrArg clip whole)
  | short =>
    intro written
    cases written.symm.trans responded
  | deleted => trivial

def Ledger.Intact (l : Ledger) : Prop := Fat32.Intact l.volume

theorem Ledger.Intact.namesUnique (intact : l.Intact) : NamesUnique l := ⟨Fat32.Intact.unique intact,Fat32.Intact.named intact⟩

theorem formattedLedger_volume (s : DriverState) : (formattedLedger s).volume = formatted s := by
  simp [formattedLedger,formatted,Ledger.volume]

theorem formattedLedger_intact (s : DriverState) : (formattedLedger s).Intact := by
  unfold Ledger.Intact
  rw [formattedLedger_volume]
  exact formatted_intact s

theorem names_kept {s : DriverState} {history : List (Transition Ledger FsAction)} {l : Ledger}
    (run : Run Ledger.Step (formattedLedger s) history l) (clear : ∀ t ∈ history, t.action.Clear t.before.volume) :
    ∀ t ∈ history, NamesUnique t.after ∧ Recorded t.before.driver t.action t.after.driver := by
  have kept : ∀ (l : Ledger) (a : FsAction) (l' : Ledger), l.Intact → a.Clear l.volume → l.Step a l' → l'.Intact :=
    fun _ _ _ intact clear step => ClearStep.intact intact (step.clear intact clear)
  intro t member
  obtain ⟨step,earlier,reached,inside⟩ := run.recorded member
  have intact := reached.invariant_of (formattedLedger_intact s) kept fun u before => clear u (inside u before)
  have clearStep := step.clear intact (clear t member)
  exact ⟨(kept _ _ _ intact (clear t member) step).namesUnique,ClearStep.recorded intact clearStep⟩

def Ledger.replay (l : Ledger) : List FsAction → Option Ledger
  | [] => some l
  | a :: rest => if l.Addressed a.request then (l.respond a).bind fun answer => answer.2.replay rest else none

theorem Ledger.replay_run {actions : List FsAction} (replayed : l.replay actions = some l') :
    ∃ history, Run Ledger.Step l history l' ∧ history.map Transition.action = actions := by
  induction actions generalizing l with
  | nil =>
    cases replayed
    exact ⟨[],.nil,rfl⟩
  | cons a rest ih =>
    obtain ⟨addressed,later⟩ := Option.ite_none_right_eq_some.mp replayed
    obtain ⟨⟨code,middle⟩,ran,later⟩ := Option.bind_eq_some_iff.mp later
    obtain ⟨history,run,actions⟩ := ih later
    have step : l.Step a middle := ⟨addressed,code,ran⟩
    exact ⟨_,.cons step run,by simp [actions]⟩

theorem names_kept_vacated : ∃ history l, Run Ledger.Step (formattedLedger blankDrive) history l ∧
    history.map Transition.action = vacatedSlot ∧
    ∀ t ∈ history, NamesUnique t.after ∧ Recorded t.before.driver t.action t.after.driver := by
  have defined : ((formattedLedger blankDrive).replay vacatedSlot).isSome = true := by decide +kernel
  obtain ⟨l,replayed⟩ := Option.isSome_iff_exists.mp defined
  obtain ⟨history,run,actions⟩ := Ledger.replay_run replayed
  refine ⟨history,l,run,actions,names_kept run fun t member => ?_⟩
  have named := vacatedSlot_named t.action (actions ▸ List.mem_map_of_mem member)
  exact FsAction.clear_of_named named.2

-- Two live entries X, as the bytes of a file.
def twinMemory : Memory := fun a =>
  if a = 64 ∨ a = 96 then BitVec.ofNat 8 'X'.toNat else if a = 76 ∨ a = 108 then UATTR_NOT_EMPTY else 0

-- The zero name first frees cluster 0, where folder B is then made, and later, through
-- the slot that folder C has left, frees it under B; file D gets it.
def clobberedFolder : List FsAction := vacatedSlot ++ [
  .delete zeroName,
  .write blankMemory (rootRequest 'B' 0),
  .write blankMemory (rootRequest 'C' 0),
  .delete (rootRequest 'C' 0),
  .delete zeroName,
  .write twinMemory (rootRequest 'D' 2048)]

theorem clobberedFolder_repeats : ∃ history l, Run Ledger.Step (formattedLedger blankDrive) history l ∧
    history.map Transition.action = clobberedFolder ∧
    ¬ ∀ t ∈ history, NamesUnique t.after ∧ Recorded t.before.driver t.action t.after.driver := by
  have repeats : ((formattedLedger blankDrive).replay clobberedFolder).any (fun l => 0 ∈ l.dirs ∧
      (l.driver.table 0 2).user_attribute = UATTR_NOT_EMPTY ∧ (l.driver.table 0 3).user_attribute = UATTR_NOT_EMPTY ∧
      (l.driver.table 0 2).Named (l.driver.table 0 3).name (l.driver.table 0 3).ext) = true := by decide +kernel
  obtain ⟨l,replayed,repeats⟩ := (Option.any_eq_true _ _).mp repeats
  obtain ⟨dir,live2,live3,same⟩ := of_decide_eq_true repeats
  obtain ⟨history,run,actions⟩ := Ledger.replay_run replayed
  refine ⟨history,l,run,actions,fun always => ?_⟩
  have names : NamesUnique l :=
    run.last_of_always (formattedLedger_intact blankDrive).namesUnique fun t member => (always t member).1
  have equal := names.unique ⟨0,2⟩ ⟨0,3⟩ ⟨⟨dir,by decide⟩,live2⟩ ⟨⟨dir,by decide⟩,live3⟩ rfl same
  cases equal

end Sosis.Fat32
