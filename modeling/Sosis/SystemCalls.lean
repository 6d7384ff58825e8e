import Sosis.CommandLine
import Sosis.Fat32Find
import Sosis.MemoryIsolation
import Sosis.ShellPath

-- main_interrupt_handler and syscall of interrupt.c, over everything the kernel keeps and
-- the memory of the process it interrupts.
namespace Sosis.Kernel
open AddressSpaces ByteRecords
open Console (Session Terminal CommandBuffer)
open Command (ShellState PathShell)
open Fat32 (Word Memory DriverState DirectoryTable FAT32DriverRequest)

def IRQ_KEYBOARD : Word := 1
def PAGE_FAULT : Word := 0xE
def SYSCALL : Word := 0x30

-- struct FAT32DriverRequest, packed.
def requestCodec : Codec FAT32DriverRequest where
  size := 23
  encode request k :=
    if k < 4 then byteOf request.buf k
    else if inside : k-4 < 8 then request.name ⟨k-4,inside⟩
    else if inside : k-12 < 3 then request.ext ⟨k-12,inside⟩
    else if k < 19 then byteOf request.parent_cluster_number (k-15)
    else byteOf request.buffer_size (k-19)
  decode b := ⟨le32 b 0,fun i => b (4+i),fun i => b (12+i),le32 b 15,le32 b 19⟩
  exact request b agrees := by
    obtain ⟨buf,name,ext,parent,size⟩ := request
    simp only [FAT32DriverRequest.mk.injEq]
    refine ⟨?_,?_,?_,?_,?_⟩
    · exact le32_exact _ _ _ (agrees 0 (by decide)) (agrees 1 (by decide)) (agrees 2 (by decide)) (agrees 3 (by decide))
    · funext i
      rw [agrees (4+i) (by omega)]
      simp
    · funext i
      rw [agrees (12+i) (by omega)]
      simp [show ¬ 12 + i.val < 4 by omega,show ¬ 12 + i.val - 4 < 8 by omega]
    · exact le32_exact _ _ _ (agrees 15 (by decide)) (agrees 16 (by decide)) (agrees 17 (by decide)) (agrees 18 (by decide))
    · exact le32_exact _ _ _ (agrees 19 (by decide)) (agrees 20 (by decide)) (agrees 21 (by decide)) (agrees 22 (by decide))

def PROCESS_STATE.word : PROCESS_STATE → Word
  | .READY => 0
  | .RUNNING => 1
  | .BLOCKED => 2

-- What the kernel's code finds outside its own state: the byte at the keyboard's data
-- port, the registers of the clock, and where the linker put the page directories.
structure Surroundings where
  scancode : Byte
  cmos : Byte → Byte
  address : PageDirectoryPtr → Word

def wordBytes (w : Word) : List Byte := (List.range 4).map (byteOf w)

-- struct ProcessControlBlock with the padding of its alignment.
def ProcessControlBlock.bytes (address : PageDirectoryPtr → Word) (pcb : ProcessControlBlock) : List Byte :=
  wordBytes pcb.metadata.pid ++ wordBytes pcb.metadata.cur_state.word ++
    (if pcb.metadata.active then 1 else 0) :: List.ofFn pcb.metadata.name ++ [0,0,0] ++
    (pcb.context.words ((pcb.context.page_directory_virtual_addr.map address).getD 0)).flatMap wordBytes ++
    (List.ofFn pcb.memory.virtual_addr_used).flatMap wordBytes ++ wordBytes pcb.memory.page_frame_used_count

abbrev pcbSize : Nat := 116

def textBytes (text : String) : Bytes := fun k => (Command.chars text).getD k 0

-- printDirPath on the screen. The result is `none` while the loop still goes on after so
-- many turns.
def printDirPath (s : DriverState) : Nat → Word → Terminal → Option Terminal
  | 0,_,_ => none
  | turns+1,current_cluster,t =>
    if current_cluster = Fat32.parent_cluster s current_cluster then t.puts (textBytes "Root\n") 6 0xF
    else do
      let name := (s.directory current_cluster 0).name
      let t ← t.puts (fun k => (List.ofFn name).getD k 0) 8 0xF
      let t ← t.putchar (Console.charOf '/') 0xF
      printDirPath s turns (Fat32.parent_cluster s current_cluster) t

-- The loop of printAllFind, the results still to come.
def printFound (s : DriverState) : Nat → List Word → Terminal → Option Terminal
  | _,[],t => some t
  | i,cluster :: rest,t => do
    let t ← t.putchar (BitVec.ofNat 8 (i+1) + Console.charOf '0') 0xF
    let t ← t.puts (textBytes ". ") 2 0xF
    let t ← printDirPath s Fat32.walkFuel cluster t
    printFound s (i+1) rest t

def printAllFind (s : DriverState) (name : Fat32.Name) (ext : Fat32.Ext) (t : Terminal) : Option Terminal :=
  (Fat32.find s name ext []).bind fun result =>
    if result = [] then t.puts (textBytes "Tidak ditemukan file/folder dengan nama dan ext tersebut!") 57 0xF
    else printFound s 0 result t

-- The clusters of the buffer that write copies.
def copiesFrom (s : DriverState) (request : FAT32DriverRequest) : Nat :=
  let dir_table := s.directory request.parent_cluster_number
  if (dir_table 0).attr ≠ Fat32.ATTR_SUBDIRECTORY ∨ (Fat32.findEntry dir_table request.name request.ext).isSome ∨
      (Fat32.findIdxEmptyEntry dir_table).isNone then 0
  else min (Fat32.ceil request.buffer_size.toNat) (Fat32.freeCells s.cluster_map).card

-- Why a step has no result here. The source follows every pointer it is given: a page that
-- is not mapped is a page fault, which halts the machine in its handler; on the kernel's own
-- page, which every directory maps, it reads or stores over the kernel's variables.
inductive Stop where
  | pageFault
  | kernelPage
  | undefined
  deriving DecidableEq

def orStop {α : Type} (stop : Stop) : Option α → Except Stop α
  | none => .error stop
  | some a => .ok a

section stop
variable {α β : Type} {x : Except Stop α} {o : Option α} {a : α} {b : β}

theorem orStop_ok {stop : Stop} : orStop stop o = .ok a ↔ o = some a := by cases o <;> simp [orStop]

theorem bind_ok {f : α → Except Stop β} : x >>= f = .ok b ↔ ∃ a, x = .ok a ∧ f a = .ok b := by
  cases x <;> simp [bind,Except.bind]

theorem map_ok {f : α → β} : x.map f = .ok b ↔ ∃ a, x = .ok a ∧ f a = b := by cases x <;> simp [Except.map]

end stop

structure System where
  computer : Computer
  session : Session
  buffer : CommandBuffer
  shell_state : ShellState
  cwd_table : DirectoryTable

namespace System

def kernel (m : System) : KernelState := m.computer.kernel
def drive (m : System) : DriverState := m.computer.drive

-- The directory in CR3, and the memory under it.
def table (m : System) : PageDirectory := m.kernel.paging.directory m.kernel.cr3
def seen (m : System) : Memory := m.table.shown m.computer.memory

def stopAt (m : System) (a : Word) : Option Stop :=
  let entry := m.table (page_index a)
  if Own entry then none else if entry.flag.present_bit then some .kernelPage else some .pageFault

-- What the first of so many bytes runs into that is not on a page of the process.
def firstStop (m : System) (a : Word) (n : Nat) : Option Stop :=
  (List.range n).findSome? fun x => m.stopAt (a + BitVec.ofNat 32 x)

def reach (m : System) (a : Word) (n : Nat) : Except Stop Unit := (m.firstStop a n).elim (.ok ()) .error

def load (m : System) (a : Word) (n : Nat) : Except Stop Bytes := (m.reach a n).map fun _ => m.seen.at a

def remember (m : System) (seen : Memory) : System :=
  {m with computer := {m.computer with memory := settle m.table.back seen m.computer.memory}}

def store (m : System) (a : Word) (bytes : Bytes) (n : Nat) : Except Stop System :=
  (m.reach a n).map fun _ => m.remember (m.seen.store a bytes n)

def storeCode (m : System) (a : Word) (code : Int) : Except Stop System := m.store a (fun _ => BitVec.ofInt 8 code) 1
def storeWord (m : System) (a w : Word) : Except Stop System := m.store a (byteOf w) 4

def request (m : System) (a : Word) : Except Stop FAT32DriverRequest := (m.load a requestCodec.size).map requestCodec.decode

-- What the stores of read's loop run into.
def imageStop (m : System) : Nat → Word → Word → Option Stop
  | 0,_,_ => none
  | turns+1,buffer,cluster_number =>
    if cluster_number = Fat32.FAT32_FAT_END_OF_FILE then none
    else (m.firstStop buffer Fat32.CLUSTER_SIZE).or
      (if bound : cluster_number.toNat < Fat32.CLUSTER_MAP_SIZE then
        imageStop m turns (buffer + BitVec.ofNat 32 Fat32.CLUSTER_SIZE) (m.drive.cluster_map ⟨_,bound⟩)
      else none)

def readStop (m : System) (request : FAT32DriverRequest) : Stop :=
  let dir_table := m.drive.directory request.parent_cluster_number
  ((Fat32.findEntry dir_table request.name request.ext).bind fun idx =>
    m.imageStop Fat32.walkFuel request.buf (dir_table idx).cluster).getD .undefined

def read (m : System) (request : FAT32DriverRequest) : Except Stop (Int × Memory) :=
  orStop (m.readStop request) (readInto m.table m.drive m.seen request)

-- Up to the first NUL. After more than this addPath has run out of its array.
def string (m : System) : Nat → Word → Except Stop (List Byte)
  | 0,_ => .error .undefined
  | turns+1,a => (m.load a 1).bind fun b => if b 0 = 0 then .ok [] else (string m turns (a+1)).map (b 0 :: ·)

-- The path of system call 18, which is looked at only where it is added.
def newPath (m : System) (cpu : CPURegister) : Except Stop (List Byte) :=
  if cpu.edx = 0 then .ok [] else m.string (Command.pathSize+1) cpu.ecx

def withDrive (m : System) (drive : DriverState) : System := {m with computer := {m.computer with drive := drive}}
def withComputer (m : System) (computer : Computer) : System := {m with computer := computer}
def onTerminal (m : System) (print : Terminal → Option Terminal) : Except Stop System :=
  (orStop .undefined (print m.session.terminal)).map fun t => {m with session := {m.session with terminal := t}}

def call (m : System) (a : KernelAction) : Except Stop System := (orStop .undefined (m.computer.operate (.call a))).map m.withComputer

-- getActivePCB, which counts in the caller's memory.
def getActivePCB (m : System) (address : PageDirectoryPtr → Word) (ptr count : Word) : Except Stop System :=
  (m.storeWord count 0).bind fun m => ((List.finRange PROCESS_COUNT_MAX).filter m.kernel.active).foldlM (fun m i => do
    let n ← m.load count 4
    let pcb := (m.kernel.process_list i).bytes address
    let m ← m.store (ptr + le32 n 0 * BitVec.ofNat 32 pcbSize) (fun k => pcb.getD k 0) pcbSize
    let n ← m.load count 4
    m.storeWord count (le32 n 0 + 1)) m

-- for(int i=0;i<9;i++) of system call 23
def showClock (t : Terminal) (text : Bytes) : Terminal :=
  (List.range 9).foldl (fun t i => t.write_exact_loc 23 (BitVec.ofNat 8 (70+i)) (text i) 0xF 0) t

def syscall (m : System) (cpu : CPURegister) (around : Surroundings) : Except Stop System :=
  match cpu.eax.toNat with
  | 0 => do
    let request ← m.request cpu.ebx
    let (code,seen) ← m.read request
    (m.remember seen).storeCode cpu.ecx code
  | 1 => do
    let request ← m.request cpu.ebx
    let (code,seen) := Fat32.read_directory m.drive m.seen request
    m.reach request.buf (if code = 0 then Fat32.CLUSTER_SIZE else 0)
    (m.remember seen).storeCode cpu.ecx code
  | 2 => do
    let request ← m.request cpu.ebx
    let (code,drive) ← orStop .undefined (Fat32.write m.drive m.seen request)
    m.reach request.buf (Fat32.CLUSTER_SIZE * copiesFrom m.drive request)
    (m.withDrive drive).storeCode cpu.ecx code
  | 3 => do
    let request ← m.request cpu.ebx
    let (code,drive) ← orStop .undefined (Fat32.delete m.drive request)
    (m.withDrive drive).storeCode cpu.ecx code
  | 4 => do
    let (c,session) := m.session.get_keyboard_buffer
    let m ← m.store cpu.ebx (fun _ => c) 1
    let buffer ← orStop .undefined (m.buffer.typed c)
    let (commandShell,idxShell) ← orStop .undefined (buffer.get_command fun i => m.seen.at cpu.ecx i.val)
    let m := {m with session := session,buffer := buffer}
    let m ← m.store cpu.ecx (fun k => (List.ofFn commandShell).getD k 0) Console.commandSize
    m.storeWord cpu.edx (BitVec.ofNat 32 idxShell)
  | 5 => do
    let c ← m.load cpu.ebx 1
    m.onTerminal fun t => t.putchar (c 0) (cpu.ecx.truncate 8)
  | 6 => do
    let text ← m.load cpu.ebx cpu.ecx.toInt.toNat
    m.onTerminal fun t => t.puts text cpu.ecx cpu.edx
  | 7 => .ok {m with session := m.session.keyboard_state_activate}
  | 8 => m.onTerminal fun t => some t.clearScreen
  | 9 => do
    let name ← m.load cpu.ebx 8
    let ext ← m.load cpu.ecx 3
    m.onTerminal (printAllFind m.drive (fun i => name i) fun i => ext i)
  | 10 => m.call (.destroy 1)
  | 11 => do
    let request ← m.request cpu.ebx
    m.storeWord cpu.ecx (Fat32.findCluster m.drive request)
  | 12 => m.store cpu.ebx (Fat32.read_clusters m.drive.disk cpu.ecx 1) Fat32.CLUSTER_SIZE
  | 13 => do
    let request ← m.request cpu.ebx
    let (code,_) ← orStop .undefined (m.kernel.process_create_user_process request)
    let m ← m.call (.create request)
    m.storeWord cpu.ecx (BitVec.ofInt 32 code)
  | 14 => m.call (.destroy cpu.ebx)
  | 15 => m.getActivePCB around.address cpu.ebx cpu.ecx
  | 16 => do
    let m ← m.store cpu.ebx (fun _ => around.cmos 0x04) 1
    let m ← m.store (cpu.ebx + 1) (fun _ => around.cmos 0x02) 1
    m.store (cpu.ebx + 2) (fun _ => around.cmos 0x00) 1
  | 17 => (orStop .undefined m.buffer.clear_command).map fun buffer => {m with buffer := buffer}
  | 18 => do
    let path ← m.newPath cpu
    let p ← orStop .undefined (Command.update_shell_dir m.drive ⟨m.shell_state,m.cwd_table,[]⟩ cpu.ebx path (cpu.edx != 0))
    .ok {m with shell_state := p.shell_state,cwd_table := p.cwd_table}
  | 19 => m.storeWord cpu.ebx m.shell_state.cur_cluster
  | 20 => m.storeWord cpu.ebx (m.cwd_table 1).cluster
  | 21 => m.store cpu.ebx (fun k => (List.ofFn (Command.copy_dir m.shell_state)).getD k 0) Command.pathSize
  | 22 => m.store cpu.ebx (Fat32.directoryCodec.encode m.cwd_table) Fat32.CLUSTER_SIZE
  | 23 => do
    let text ← m.load cpu.ebx 9
    m.onTerminal fun t => some (showClock t text)
  | _ => .ok m

def main_interrupt_handler (m : System) (frame : InterruptFrame) (around : Surroundings) : Except Stop System :=
  if frame.int_number = PAGE_FAULT then .error .pageFault
  else if frame.int_number = PIC1_OFFSET + IRQ_KEYBOARD then
    .ok {m with session := m.session.keyboard_isr around.scancode}
  else if frame.int_number = PIC1_OFFSET + IRQ_TIMER then m.call (.tick frame)
  else if frame.int_number = SYSCALL then m.syscall frame.cpu around
  else .ok m

end System

end Sosis.Kernel
