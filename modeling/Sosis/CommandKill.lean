import Sosis.ProcessTable
import Sosis.PrefixFill
import Sosis.IntegerText
import Sosis.CommandRemove

-- kill of command-shell.c, over what system call 15 leaves in its array.
namespace Sosis.Kernel.KernelState
open PrefixFill

def getActivePCB (k : KernelState) (ptr : Slot → ProcessControlBlock) : Option ((Slot → ProcessControlBlock) × Nat) :=
  (List.finRange PROCESS_COUNT_MAX).foldlM (push k.active k.process_list) (ptr,0)

def ActivePid (k : KernelState) (pid : Fat32.Word) : Prop := ∃ i, k.active i = true ∧ k.pid i = pid

def activeSlots (k : KernelState) : List Slot := (List.finRange PROCESS_COUNT_MAX).filter k.active

variable {k : KernelState}

theorem mem_activeSlots {i : Slot} : i ∈ k.activeSlots ↔ k.active i = true := by simp [activeSlots]

theorem activeSlots_length : k.activeSlots.length = k.actives.card := by
  have same : k.actives = k.activeSlots.toFinset := Finset.ext fun i => by rw [mem_actives,List.mem_toFinset,mem_activeSlots]
  have distinct : k.activeSlots.Nodup := (List.nodup_finRange PROCESS_COUNT_MAX).filter _
  rw [same,List.toFinset_card_of_nodup distinct]

theorem activeSlots_fit : k.activeSlots.length ≤ PROCESS_COUNT_MAX :=
  calc k.activeSlots.length ≤ (List.finRange PROCESS_COUNT_MAX).length := List.length_filter_le _ _
    _ = PROCESS_COUNT_MAX := List.length_finRange

-- No store behind the sixteen elements; those it does not need are left as they were.
theorem getActivePCB_eq (ptr : Slot → ProcessControlBlock) :
    k.getActivePCB ptr = some (filledWith ptr 0 (k.activeSlots.map k.process_list),k.actives.card) := by
  have room : 0 + k.activeSlots.length ≤ PROCESS_COUNT_MAX := (Nat.zero_add _).trans_le activeSlots_fit
  rw [getActivePCB,foldlM_push room,Nat.zero_add,← activeSlots_length]
  rfl

end Sosis.Kernel.KernelState

namespace Sosis.Command
open ByteRecords FirstFit PrefixFill
open Fat32 (Word)
open Kernel (KernelState ProcessControlBlock Slot)

-- `destroyed` is what system call 14 is given. `kernel` is `none` if that call does not come
-- back, and then nothing is printed.
structure Killed where
  destroyed : Option Word
  kernel : Option KernelState
  reports : List Report

-- `list_pcb` is what the bytes of the array hold when kill is entered.
def kill (k : KernelState) (list_pcb : Slot → ProcessControlBlock) (command : List Byte) : Option Killed :=
  if countWords command ≠ 2 then
    some ⟨none,some k,[⟨chars "Error: ",0x04⟩,⟨chars "Invalid syntax\nkill <pid>\n",0x07⟩]⟩
  else do
    let pidStr ← getWord command 1 3
    let pid := string_to_int pidStr
    let (list_pcb,_) ← k.getActivePCB list_pcb
    match firstFit (fun i => (list_pcb i).metadata.pid == pid && (list_pcb i).metadata.active) 0 with
    | some _ =>
      let kernel := (k.process_destroy pid).map Prod.snd
      return ⟨some pid,kernel,if kernel.isSome then [⟨chars "Process Destroy Successful\n\n",0x07⟩] else []⟩
    | none => return ⟨none,some k,[⟨chars "Error: ",0x04⟩,⟨chars "No such Process with Match PID\n\n",0x07⟩]⟩

abbrev KillLine := RmLine

def KillsExactly (k : KernelState) (list_pcb : Slot → ProcessControlBlock) (command : List Byte) (pid : Word) : Prop :=
  ∃ r, kill k list_pcb command = some r ∧ (∀ p, r.destroyed = some p ↔ p = pid ∧ k.ActivePid pid) ∧
    (¬ k.ActivePid pid →
      r.kernel = some k ∧ r.reports = [⟨chars "Error: ",0x04⟩,⟨chars "No such Process with Match PID\n\n",0x07⟩])

-- An element behind those that system call 15 fills in, from whatever stood on the stack.
def Leftover (k : KernelState) (list_pcb : Slot → ProcessControlBlock) (pid : Word) : Prop :=
  ∃ j : Slot, k.actives.card ≤ j.val ∧ (list_pcb j).metadata.pid = pid ∧ (list_pcb j).metadata.active = true

section run
variable {k : KernelState} {list_pcb : Slot → ProcessControlBlock} {command arg : List Byte}

theorem kill_overflows (k : KernelState) (list_pcb : Slot → ProcessControlBlock) (line : KillLine command arg)
    (long : ¬ arg.length ≤ 2) : kill k list_pcb command = none := by
  have none : getWord command 1 3 = none := getWord_spills line.argument long
  simp [kill,line.words,none]

-- What stands in the array when kill searches it.
def listed (k : KernelState) (list_pcb : Slot → ProcessControlBlock) : Slot → ProcessControlBlock :=
  filledWith list_pcb 0 (k.activeSlots.map k.process_list)

theorem listed_exact (pid : Word) :
    (∃ j, (listed k list_pcb j).metadata.pid = pid ∧ (listed k list_pcb j).metadata.active = true) ↔
      k.ActivePid pid ∨ Leftover k list_pcb pid := by
  have size : (k.activeSlots.map k.process_list).length = k.actives.card := by
    rw [List.length_map,KernelState.activeSlots_length]
  have fits : (k.activeSlots.map k.process_list).length ≤ Kernel.PROCESS_COUNT_MAX := by
    rw [List.length_map]
    exact KernelState.activeSlots_fit
  have split := exists_filled (fun pcb : ProcessControlBlock => pcb.metadata.pid = pid ∧ pcb.metadata.active = true)
    list_pcb fits
  rw [size] at split
  refine split.trans (or_congr ?_ Iff.rfl)
  constructor
  · rintro ⟨_,mem,same,active⟩
    obtain ⟨i,_,rfl⟩ := List.mem_map.mp mem
    exact ⟨i,active,same⟩
  · rintro ⟨i,active,same⟩
    exact ⟨k.process_list i,List.mem_map_of_mem (KernelState.mem_activeSlots.mpr active),same,active⟩

theorem kill_found (line : KillLine command arg) (fits : arg.length ≤ 2)
    (there : k.ActivePid (string_to_int arg) ∨ Leftover k list_pcb (string_to_int arg)) :
    ∃ kernel reports, kill k list_pcb command = some ⟨some (string_to_int arg),kernel,reports⟩ := by
  obtain ⟨j,same,active⟩ := (listed_exact _).mpr there
  have word : getWord command 1 3 = some arg := getWord_fits line.argument fits
  rw [kill,if_neg (not_not.mpr line.words),word,KernelState.getActivePCB_eq]
  simp only [Option.bind_eq_bind,Option.bind_some]
  cases found : firstFit _ 0 with
  | none =>
    have missed := firstFit_none.mp found j (Nat.zero_le _)
    rw [listed] at same active
    simp [same,active] at missed
  | some i => exact ⟨_,_,rfl⟩

theorem kill_missed (line : KillLine command arg) (fits : arg.length ≤ 2)
    (missing : ¬ (k.ActivePid (string_to_int arg) ∨ Leftover k list_pcb (string_to_int arg))) :
    kill k list_pcb command =
      some ⟨none,some k,[⟨chars "Error: ",0x04⟩,⟨chars "No such Process with Match PID\n\n",0x07⟩]⟩ := by
  have word : getWord command 1 3 = some arg := getWord_fits line.argument fits
  rw [kill,if_neg (not_not.mpr line.words),word,KernelState.getActivePCB_eq]
  simp only [Option.bind_eq_bind,Option.bind_some]
  cases found : firstFit _ 0 with
  | none => rfl
  | some i =>
    have hit := (firstFit_some.mp found).2.1
    rw [Bool.and_eq_true,beq_iff_eq] at hit
    exact absurd ((listed_exact _).mp ⟨i,hit⟩) missing

theorem kill_exact_iff (k : KernelState) (list_pcb : Slot → ProcessControlBlock) (line : KillLine command arg) :
    KillsExactly k list_pcb command (string_to_int arg) ↔
      arg.length ≤ 2 ∧ (k.ActivePid (string_to_int arg) ∨ ¬ Leftover k list_pcb (string_to_int arg)) := by
  by_cases fits : arg.length ≤ 2
  · by_cases there : k.ActivePid (string_to_int arg) ∨ Leftover k list_pcb (string_to_int arg)
    · obtain ⟨kernel,reports,ran⟩ := kill_found line fits there
      constructor
      · rintro ⟨r,ran',issued,-⟩
        rw [ran] at ran'
        cases ran'
        exact ⟨fits,.inl ((issued _).mp rfl).2⟩
      · rintro ⟨-,either⟩
        have active := either.elim id fun fresh => there.resolve_right fresh
        refine ⟨_,ran,fun p => ?_,fun inactive => absurd active inactive⟩
        rw [Option.some_inj,and_iff_left active]
        exact eq_comm
    · have ran := kill_missed line fits there
      obtain ⟨inactive,fresh⟩ := not_or.mp there
      refine iff_of_true ⟨_,ran,fun p => ?_,fun _ => ⟨rfl,rfl⟩⟩ ⟨fits,.inr fresh⟩
      exact iff_of_false nofun fun issued => inactive issued.2
  · have overflow := kill_overflows k list_pcb line fits
    constructor
    · rintro ⟨r,ran,-⟩
      rw [overflow] at ran
      cases ran
    · exact fun ⟨fits',_⟩ => absurd fits' fits

end run

def killHelper : List Byte := chars "kill 2"

theorem killHelper_line : KillLine killHelper (chars "2") := ⟨by decide +kernel,by decide +kernel⟩

theorem killHelper_pid : string_to_int (chars "2") = 2 := by decide +kernel

-- The shell is process 1 and the helper process 2.
def withHelper : Option KernelState := Kernel.kernel_setup.bind (·.replay [.create KernelState.helperRequest])

theorem helper_killed : ∃ k, withHelper = some k ∧ k.ActivePid 2 ∧ KillsExactly k (fun _ => .zero) killHelper 2 := by
  have ran : withHelper.any (fun k => ∃ i, k.active i = true ∧ k.pid i = 2) = true := by decide +kernel
  simp only [Option.any_eq_true,decide_eq_true_eq] at ran
  obtain ⟨k,booted,active⟩ := ran
  have exact_line := kill_exact_iff k (fun _ => .zero) killHelper_line
  rw [killHelper_pid] at exact_line
  exact ⟨k,booted,active,exact_line.mpr ⟨by decide,.inl active⟩⟩

-- The second of two calls with the same pid finds what system call 15 gave the first one.
theorem helper_killed_again : ∃ k k' list_pcb, withHelper = some k ∧ k.getActivePCB (fun _ => .zero) = some (list_pcb,2) ∧
    k.process_destroy 2 = some (true,k') ∧ ¬ k'.ActivePid 2 ∧ ¬ KillsExactly k' list_pcb killHelper 2 := by
  have ran : withHelper.any (fun k => (k.getActivePCB fun _ => .zero).any fun filled => filled.2 = 2 ∧
      (k.process_destroy 2).any fun destroyed => destroyed.1 = true ∧
        ¬ (∃ i, destroyed.2.active i = true ∧ destroyed.2.pid i = 2) ∧
        (kill destroyed.2 filled.1 killHelper).any fun r => r.destroyed = some 2) = true := by decide +kernel
  simp only [Option.any_eq_true,decide_eq_true_eq] at ran
  obtain ⟨k,booted,⟨list_pcb,_⟩,filled,rfl,⟨_,k'⟩,destroyed,rfl,inactive,r,again,issued⟩ := ran
  refine ⟨k,k',list_pcb,booted,filled,destroyed,inactive,?_⟩
  rintro ⟨r',ran,only,-⟩
  rw [again] at ran
  cases ran
  exact inactive ((only 2).mp issued).2

end Sosis.Command
