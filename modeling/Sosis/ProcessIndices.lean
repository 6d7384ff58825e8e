import Sosis.KernelRuns

-- Which elements of _process_list each call reads or writes, by the index as the int
-- the code computes it.
namespace Sosis.Kernel
open FirstFit TransitionRuns
open Fat32 (Word FAT32DriverRequest)

def InList (i : Int) : Prop := 0 ≤ i ∧ i < PROCESS_COUNT_MAX

instance : DecidablePred InList := fun _ => inferInstanceAs (Decidable (_ ∧ _))

namespace KernelState

def activeAt (k : KernelState) (idx : Int) : Option Bool :=
  if inList : InList idx then some (k.active ⟨idx.toNat,by obtain ⟨_,_⟩ := inList; omega⟩) else none

-- idx--, wrapped to the end
def below (idx : Int) : Int := if idx - 1 = -1 then (PROCESS_COUNT_MAX : Int) - 1 else idx - 1

-- The search loops: the indices read, the last of which the loop stops at. The result is
-- `none` while the loop still goes on after so many turns. Outside the array anything may
-- be read, and the search is taken to stop.
def inactiveSearch (k : KernelState) : Nat → Int → Option (List Int × Int)
  | 0,_ => none
  | turns+1,idx =>
    if k.activeAt idx = some true then
      (k.inactiveSearch turns (below idx)).map fun found => (idx :: found.1,found.2)
    else some ([idx],idx)

def activeSearch (k : KernelState) : Nat → Int → Option (List Int × Int)
  | 0,_ => none
  | turns+1,idx =>
    if k.activeAt idx = some false then
      (k.activeSearch turns ((idx+1).tmod PROCESS_COUNT_MAX)).map fun found => (idx :: found.1,found.2)
    else some ([idx],idx)

def inactiveIndices (k : KernelState) (turns : Nat) : Option (List Int × Int) :=
  if k.active_process_count = 0 then some ([],0)
  else k.inactiveSearch turns (below k.cur_idx)

def createIndices (k : KernelState) (request : FAT32DriverRequest) (turns : Nat) : Option (List Int) :=
  if k.active_process_count ≥ PROCESS_COUNT_MAX then some []
  else if request.buf ≥ KERNEL_VIRTUAL_ADDRESS_BASE then some []
  else if !k.paging.paging_allocate_check (page_frame_count_needed request) ||
      page_frame_count_needed request > BitVec.ofNat 32 PROCESS_PAGE_FRAME_COUNT_MAX then some []
  else (k.inactiveIndices turns).map fun found => found.1 ++ [found.2]

-- The loop reads pids up to the one it looks for, whose block it then works on.
def destroyIndices (k : KernelState) (pid : Word) : List Int :=
  match firstFit (fun i => k.pid i == pid) 0 with
  | none => (List.range PROCESS_COUNT_MAX).map Int.ofNat
  | some i => (List.range (i.val+1)).map Int.ofNat ++ [(i.val : Int)]

def switchIndices (k : KernelState) (turns : Nat) : Option (List Int) :=
  (k.activeSearch turns ((k.cur_idx+1).tmod PROCESS_COUNT_MAX)).map fun found => found.1 ++ [k.cur_idx,found.2]

def tickIndices (k : KernelState) (frame : InterruptFrame) (turns : Nat) : Option (List Int) :=
  if k.active_process_count > 1 then
    let ctx : Context := ⟨frame.cpu,frame.int_stack.eip,frame.int_stack.eflags,none⟩
    match k.scheduler_save_context_to_current_running_pcb ctx with
    | none => some [k.cur_idx]
    | some k' => (k'.switchIndices turns).map (k.cur_idx :: ·)
  else some []

def touches (k : KernelState) (turns : Nat) : KernelAction → Option (List Int)
  | .init => k.createIndices shellRequest turns
  | .first => k.switchIndices turns
  | .tick frame => k.tickIndices frame turns
  | .create request => k.createIndices request turns
  | .destroy pid => some (k.destroyIndices pid)

-- The call's loops end, and it stays inside the array.
def Indexed (k : KernelState) (a : KernelAction) : Prop :=
  ∃ turns indices, k.touches turns a = some indices ∧ ∀ i ∈ indices, InList i

def Obeys (k : KernelState) (a : KernelAction) : Prop := k.Follows a ∧ k.Spares a

instance (k : KernelState) : DecidablePred k.Obeys := fun _ => inferInstanceAs (Decidable (_ ∧ _))

variable {k k' : KernelState}

theorem slot_inList (i : Slot) : InList i.val := ⟨Int.natCast_nonneg _,by exact_mod_cast i.isLt⟩

theorem activeAt_slot (i : Slot) : k.activeAt i.val = some (k.active i) := by
  unfold activeAt
  rw [dif_pos (slot_inList i)]
  rfl

theorem below_slot (i : Slot) : below i.val = ((i-1 : Slot).val : Int) := by
  have bound := i.isLt
  unfold below
  simp only [PROCESS_COUNT_MAX,Fin.sub_def,Fin.val_one] at bound ⊢
  split <;> omega

theorem succ_slot (i : Slot) : ((i.val : Int)+1).tmod PROCESS_COUNT_MAX = ((i+1 : Slot).val : Int) := by
  rw [Int.tmod_eq_emod_of_nonneg (by omega)]
  simp only [PROCESS_COUNT_MAX,Fin.add_def,Fin.val_one]
  omega

-- The searches of the model are these loops, on indices inside the array.
theorem inactiveSearch_ends {turns : Nat} {idx i : Slot} (found : k.inactiveFrom turns idx = some i) :
    ∃ seen, k.inactiveSearch turns idx.val = some (seen,(i.val : Int)) ∧ ∀ j ∈ seen, InList j := by
  induction turns generalizing idx with
  | zero => cases found
  | succ turns ih =>
    unfold inactiveFrom at found
    unfold inactiveSearch
    rw [activeAt_slot,below_slot]
    split at found
    · rename_i active
      obtain ⟨seen,searched,inside⟩ := ih found
      refine ⟨idx.val :: seen,?_,List.forall_mem_cons.mpr ⟨slot_inList idx,inside⟩⟩
      rw [if_pos (congrArg some active),searched]
      rfl
    · rename_i inactive
      cases found
      refine ⟨[i.val],if_neg fun same => inactive (Option.some.inj same),?_⟩
      exact List.forall_mem_singleton.mpr (slot_inList i)

theorem activeSearch_ends {turns : Nat} {idx i : Slot} (found : k.activeFrom turns idx = some i) :
    ∃ seen, k.activeSearch turns idx.val = some (seen,(i.val : Int)) ∧ ∀ j ∈ seen, InList j := by
  induction turns generalizing idx with
  | zero => cases found
  | succ turns ih =>
    unfold activeFrom at found
    unfold activeSearch
    rw [activeAt_slot,succ_slot]
    split at found
    · rename_i active
      cases found
      refine ⟨[i.val],if_neg fun same => ?_,List.forall_mem_singleton.mpr (slot_inList i)⟩
      rw [active] at same
      cases same
    · rename_i inactive
      obtain ⟨seen,searched,inside⟩ := ih found
      refine ⟨idx.val :: seen,?_,List.forall_mem_cons.mpr ⟨slot_inList idx,inside⟩⟩
      rw [if_pos (by simpa using inactive),searched]
      rfl

-- Fewer than 16 processes are counted, so one of the slots is not active.
theorem exists_inactive (count : k.active_process_count = k.actives.card) (room : k.active_process_count < PROCESS_COUNT_MAX) :
    ∃ j, k.active j = false := by
  by_contra full
  have all : k.actives = Finset.univ := by
    refine Finset.eq_univ_iff_forall.mpr fun j => mem_actives.mpr ?_
    by_contra inactive
    exact full ⟨j,by simpa using inactive⟩
  rw [count,all,Finset.card_univ,Fintype.card_fin] at room
  exact absurd room (lt_irrefl _)

-- Where nothing runs yet nothing but the creation of the first process is done, so the
-- search never starts from -2.
theorem createIndices_inside (lodged : Lodged k) (request : FAT32DriverRequest)
    (order : k.cur_idx = -1 → k.active_process_count = 0) :
    ∃ indices, k.createIndices request PROCESS_COUNT_MAX = some indices ∧ ∀ i ∈ indices, InList i := by
  unfold createIndices
  split
  · exact ⟨[],rfl,fun _ none => by cases none⟩
  · rename_i room
    split
    · exact ⟨[],rfl,fun _ none => by cases none⟩
    · split
      · exact ⟨[],rfl,fun _ none => by cases none⟩
      · unfold inactiveIndices
        split
        · exact ⟨[0],rfl,List.forall_mem_singleton.mpr (by decide)⟩
        · rename_i some_
          obtain ⟨cur,idx,_⟩ := lodged.running.resolve_left fun none => some_ (order none)
          obtain ⟨j,inactive⟩ := exists_inactive lodged.table.count (not_le.mp room)
          obtain ⟨i,found⟩ := inactiveFrom_finds (cur-1) inactive
          obtain ⟨seen,searched,inside⟩ := inactiveSearch_ends found
          refine ⟨seen ++ [(i.val : Int)],?_,?_⟩
          · simp only [idx]
            rw [below_slot,searched]
            rfl
          · exact List.forall_mem_append.mpr ⟨inside,List.forall_mem_singleton.mpr (slot_inList i)⟩

theorem switchIndices_inside {cur j : Slot} (idx : k.cur_idx = cur.val) (active : k.active j = true) :
    ∃ indices, k.switchIndices PROCESS_COUNT_MAX = some indices ∧ ∀ i ∈ indices, InList i := by
  obtain ⟨i,found⟩ := activeFrom_finds (cur+1) active
  obtain ⟨seen,searched,inside⟩ := activeSearch_ends found
  refine ⟨seen ++ [(cur.val : Int),(i.val : Int)],?_,?_⟩
  · unfold switchIndices
    rw [idx,succ_slot,searched]
    rfl
  · refine List.forall_mem_append.mpr ⟨inside,List.forall_mem_cons.mpr ⟨slot_inList cur,?_⟩⟩
    exact List.forall_mem_singleton.mpr (slot_inList i)

theorem tickIndices_inside (lodged : Lodged k) (frame : InterruptFrame) (runs : k.cur_idx ≠ -1) :
    ∃ indices, k.tickIndices frame PROCESS_COUNT_MAX = some indices ∧ ∀ i ∈ indices, InList i := by
  unfold tickIndices
  split
  · obtain ⟨cur,idx,active,_⟩ := lodged.running.resolve_left runs
    dsimp only
    split
    · exact ⟨_,rfl,List.forall_mem_singleton.mpr (idx ▸ slot_inList cur)⟩
    · rename_i middle saves
      obtain ⟨i,saved⟩ := save_cases saves
      have still : middle.active cur = true := (congrArg Metadata.active (saved.metadata cur)).trans active
      obtain ⟨indices,switched,inside⟩ := switchIndices_inside (saved.cur_idx.trans idx) still
      refine ⟨k.cur_idx :: indices,by rw [switched]; rfl,List.forall_mem_cons.mpr ⟨idx ▸ slot_inList cur,inside⟩⟩
  · exact ⟨[],rfl,fun _ none => by cases none⟩

theorem destroyIndices_inside (k : KernelState) (pid : Word) : ∀ i ∈ k.destroyIndices pid, InList i := by
  have counted (n : Nat) (small : n ≤ PROCESS_COUNT_MAX) : ∀ i ∈ (List.range n).map Int.ofNat, InList i := by
    intro i member
    obtain ⟨j,less,rfl⟩ := List.mem_map.mp member
    exact ⟨Int.natCast_nonneg _,Int.ofNat_lt.mpr ((List.mem_range.mp less).trans_le small)⟩
  unfold destroyIndices
  split
  · exact counted _ (le_refl _)
  · rename_i i _
    exact List.forall_mem_append.mpr ⟨counted _ i.isLt,List.forall_mem_singleton.mpr (slot_inList i)⟩

-- The store of READY in front of the array.
theorem first_outside (none : k.cur_idx = -1) : ¬ k.Indexed .first := by
  rintro ⟨turns,indices,touched,inside⟩
  obtain ⟨found,_,same⟩ := Option.map_eq_some_iff.mp touched
  have before : InList k.cur_idx := inside _ (by rw [← same]; simp)
  rw [none] at before
  exact absurd before (by decide)

theorem indexed_exact (lodged : Lodged k) {a : KernelAction} (follows : k.Follows a) : k.Indexed a ↔ a ≠ .first := by
  cases a with
  | init => exact iff_of_true ⟨_,createIndices_inside lodged shellRequest fun _ => follows.2⟩ (by simp)
  | first => exact iff_of_false (first_outside follows.1) (by simp)
  | tick frame => exact iff_of_true ⟨_,tickIndices_inside lodged frame follows.1⟩ (by simp)
  | create request =>
    exact iff_of_true ⟨_,createIndices_inside lodged request fun none => absurd none follows⟩ (by simp)
  | destroy pid => exact iff_of_true ⟨0,_,rfl,destroyIndices_inside k pid⟩ (by simp)

theorem indexed_iff {history : List (Transition KernelState KernelAction)} (run : Run (Next Obeys) boot history k)
    {a : KernelAction} (obeys : k.Obeys a) : k.Indexed a ↔ a ≠ .first := by
  have kept : ∀ (k : KernelState) (a : KernelAction) (k' : KernelState), Lodged k → Next Obeys k a k' → Lodged k' := by
    rintro k a k' lodged ⟨⟨follows,spares⟩,ran⟩
    exact lodged.kept follows spares ran
  exact indexed_exact (run.invariant boot_lodged kept) obeys.1

theorem boots_obeying (actions : List KernelAction) (a : KernelAction)
    (checked : ((boot.operates Obeys actions).any fun k => decide (k.Obeys a)) = true) :
    ∃ history k, Run (Next Obeys) boot history k ∧ history.map Transition.action = actions ∧ k.Obeys a := by
  obtain ⟨k,operated,obeys⟩ := (Option.any_eq_true _ _).mp checked
  obtain ⟨history,run,actions⟩ := operates_run operated
  exact ⟨history,k,run,actions,of_decide_eq_true obeys⟩

theorem indexed_iff_helper : ∃ history k, Run (Next Obeys) boot history k ∧ history.map Transition.action = [.init,.first] ∧
    k.Obeys (.create helperRequest) ∧ (k.Indexed (.create helperRequest) ↔ KernelAction.create helperRequest ≠ .first) := by
  obtain ⟨history,k,run,actions,obeys⟩ := boots_obeying [.init,.first] (.create helperRequest) (by decide +kernel)
  exact ⟨history,k,run,actions,obeys,indexed_iff run obeys⟩

theorem first_not_indexed : ∃ history k, Run (Next Obeys) boot history k ∧ history.map Transition.action = [.init] ∧
    k.Obeys .first ∧ ¬ k.Indexed .first := by
  obtain ⟨history,k,run,actions,obeys⟩ := boots_obeying [.init] .first (by decide +kernel)
  exact ⟨history,k,run,actions,obeys,first_outside obeys.1.1⟩

end KernelState

end Sosis.Kernel
