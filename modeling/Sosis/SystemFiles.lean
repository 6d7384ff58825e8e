import Sosis.Fat32Refinement
import Sosis.ProgramImage
import Sosis.SystemRuns

-- Files between processes: what one process has in its memory when it writes a file is
-- what another finds in its own when it reads that file.
namespace Sosis.Kernel
open AddressSpaces LinkedCells TransitionRuns PagingState FolderStore
open ByteRecords (Byte Bytes)
open Fat32 (Word Memory Disk Volume Cell FsAction FileStore FAT32DriverRequest Refines CLUSTER_SIZE)

namespace System

section running
variable {m m' : System} {i : Slot} {a b : Word} {bytes : Bytes} {n : Nat}

end running

section files
variable {m m' : System} {cpu : CPURegister} {around : Surroundings} {request : FAT32DriverRequest} {x : SystemAction}

def fileAction (m : System) : SystemAction → Option FsAction
  | .store _ _ => none
  | .interrupt frame _ => if frame.int_number = SYSCALL then m.fileCall frame.cpu else none

theorem call_drive {c c' : Computer} {a : KernelAction} (ran : c.operate (.call a) = some c') : c'.drive = c.drive := by
  have creates {request : FAT32DriverRequest} (ran : c.create request = some c') : c'.drive = c.drive := by
    rcases Computer.creation_cases ran with rfl | ⟨_,_,loaded⟩
    · rfl
    · exact loaded.drive
  cases a with
  | init => exact creates ran
  | create request => exact creates ran
  | first | tick | destroy =>
    obtain ⟨_,_,rfl⟩ := Option.map_eq_some_iff.mp ran
    rfl

-- Nothing else than a write or a delete changes the drive.
theorem operate_drive (ran : m.operate x = .ok m') (plain : m.fileAction x = none) : m'.drive = m.drive := by
  cases x with
  | store a v =>
    obtain ⟨computer,stored,rfl⟩ := map_ok.mp ran
    obtain ⟨_,_,rfl⟩ := Option.map_eq_some_iff.mp (orStop_ok.mp stored)
    rfl
  | interrupt frame around =>
    simp only [operate,main_interrupt_handler] at ran
    simp only [fileAction] at plain
    split at ran
    · cases ran
    split at ran
    · cases ran
      rfl
    split at ran
    · obtain ⟨computer,ticked,rfl⟩ := call_ok.mp ran
      exact call_drive ticked
    split at ran
    · rename_i call
      rw [if_pos call] at plain
      obtain ⟨middle,serves,rewrites⟩ := syscall_cases ran
      rw [rewrites.drive]
      cases serves with
      | plain => rfl
      | file asked => exact absurd (asked.symm.trans plain) (by simp)
      | process _ _ called => exact call_drive called
    · cases ran
      rfl

end files

end System

-- The system together with the folders that its drive has.
structure Mounted where
  system : System
  dirs : Set Cell

namespace Mounted

def volume (g : Mounted) : Volume := ⟨g.system.drive,g.dirs⟩

def Next (g : Mounted) (x : SystemAction) (g' : Mounted) : Prop :=
  g.system.Next x g'.system ∧ match g.system.fileAction x with
    | none => g'.dirs = g.dirs
    | some a => ∃ code, g.volume.Answered (a,code) g'.volume

variable {g g' : Mounted} {x : SystemAction} {st : FileStore}

-- Each step is none for the folder store, or one of its requests.
theorem Next.refines (next : g.Next x g') (refines : Refines g.volume st) :
    g.system.fileAction x = none ∧ g'.volume = g.volume ∨ ∃ a code st', g.system.fileAction x = some a ∧
      g.volume.Answered (a,code) g'.volume ∧ Fat32.fatMedium.Responds st (Fat32.meaning (a,code)) st' ∧ Refines g'.volume st' := by
  obtain ⟨step,files⟩ := next
  have ran := step.ran
  cases action : g.system.fileAction x with
  | none =>
    rw [action] at files
    refine Or.inl ⟨rfl,?_⟩
    rw [volume,System.operate_drive ran action,show g'.dirs = g.dirs from files]
    rfl
  | some a =>
    rw [action] at files
    obtain ⟨code,answered⟩ := files
    obtain ⟨st',responds,refines'⟩ := refines.step answered
    exact Or.inr ⟨a,code,st',rfl,answered,responds,refines'⟩

-- The system keeps its memories apart, and its drive has this under the name.
structure Stocked (memory : Word → Byte) (d : Cell) (n : Fat32.FileName) (item : Item Cell Byte) (g : Mounted) : Prop where
  guarded : g.system.Guarded memory
  files : ∃ st, Refines g.volume st ∧ st.entry d n = some item

def Spares (d : Cell) (n : Fat32.FileName) (g : Mounted) (x : SystemAction) (g' : Mounted) : Prop :=
  ∀ other : FAT32DriverRequest, g.system.fileAction x = some (.delete other) → g.volume.Answered (.delete other,0) g'.volume →
    ¬ (other.parent_cluster_number = Fat32.cellNumber d ∧ other.fileName = n)

theorem Stocked.step {memory : Word → Byte} {d : Cell} {n : Fat32.FileName} {item : Item Cell Byte}
    (stocked : Stocked memory d n item g) (next : g.Next x g') (spares : Spares d n g x g') : Stocked memory d n item g' := by
  obtain ⟨guarded,st,refines,there⟩ := stocked
  refine ⟨(guarded.step next.1).1,?_⟩
  rcases next.refines refines with ⟨_,same⟩ | ⟨a,code,st',action,answered,responds,refines'⟩
  · exact ⟨st,same ▸ refines,there⟩
  · refine ⟨st',refines',responds.keeps there fun removal => ?_⟩
    obtain ⟨other,same,parent,name⟩ := answered.removes removal
    cases same
    exact spares other action answered ⟨parent,name⟩

section passing
variable {memory : Word → Byte} {frame : InterruptFrame} {around : Surroundings} {request : FAT32DriverRequest} {i : Slot}
  {d : Cell}

theorem Next.called (next : g.Next (.interrupt frame around) g') (call : frame.int_number = SYSCALL) :
    g.system.syscall frame.cpu around = .ok g'.system := by
  have ran := next.1.ran
  simp only [System.operate,System.main_interrupt_handler,call] at ran
  exact ran

-- The system keeps its memories apart, and its drive is a folder store.
structure Working (memory : Word → Byte) (g : Mounted) : Prop where
  guarded : g.system.Guarded memory
  refines : ∃ st, Refines g.volume st

theorem Working.step (working : Working memory g) (next : g.Next x g') : Working memory g' := by
  obtain ⟨guarded,st,refines⟩ := working
  refine ⟨(guarded.step next.1).1,?_⟩
  rcases next.refines refines with ⟨_,same⟩ | ⟨_,_,st',_,_,_,refines'⟩
  · exact ⟨st,same ▸ refines⟩
  · exact ⟨st',refines'⟩

end passing

section mounting
variable {m m' : System}

def plainly (m : System) (x : SystemAction) : Option System := if (m.fileAction x).isNone then m.next x else none

-- The shell sets up a byte and a request, writes it and starts a process; this one sets
-- up a request of its own and reads.
def preparesWrite : List SystemAction := [.store 0 7,.store 0x104 65,.store 0x10F 2,.store 0x113 1]
def preparesRead : List SystemAction :=
  [.store 0x184 66,.store 0x18F 2,System.called 13 0x180 0x240 0,System.timer,
    .store 0x1001 0x30,.store 0x1004 65,.store 0x100F 2,.store 0x1013 1]

def letterRequest (buf : Word) : FAT32DriverRequest := ⟨buf,fun i => if i = 0 then 65 else 0,fun _ => 0,2,1⟩

def Reads (m : System) (a : Word) (request : FAT32DriverRequest) : Bool := (m.request a).toOption.any fun found =>
  found.buf = request.buf ∧ found.name = request.name ∧ found.ext = request.ext ∧
    found.parent_cluster_number = request.parent_cluster_number ∧ found.buffer_size = request.buffer_size

-- The process in slot 15 reads what the shell wrote.
def passes : Bool :=
  (System.kernel_setup (fun _ => 0) (fun _ => 0)).any fun m₀ => (follow plainly (fun _ => true) preparesWrite m₀).any fun m =>
    decide (m.kernel.cur_idx = ((0 : Slot).val : Int)) && Reads m 0x100 (letterRequest 0) &&
    (m.next (System.called 2 0x100 0x200 0)).any fun m₁ => decide (m₁.computer.sees 0 0x200 = some 0) &&
      (follow plainly (fun _ => true) preparesRead m₁).any fun m₂ =>
        decide (m₂.kernel.cur_idx = ((15 : Slot).val : Int)) && Reads m₂ 0x1000 (letterRequest 0x3000) &&
        (readInto m₂.table m₂.drive m₂.seen (letterRequest 0x3000)).any fun result =>
          ((m₂.remember result.2).storeCode 0x2000 result.1).toOption.any fun m₃ => m₃.computer.sees 15 0x2000 = some 0

end mounting

end Mounted

end Sosis.Kernel
