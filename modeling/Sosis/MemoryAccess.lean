import Sosis.AddressSpaces
import Sosis.Ia32Paging
import Sosis.ProcessIndices
import Sosis.ProcessLoad

-- The kernel over physical memory: the page directories as the processor reads them,
-- the stores of the process that runs, and the bytes a creation loads. The page that
-- the kernel lies on holds the tables of the kernel's state, whose own accesses are
-- not followed byte by byte.
namespace Sosis.Kernel
open AddressSpaces TransitionRuns
open ByteRecords (Byte)
open Ia32 (Access PageOffset atPage pageNumber pageOffset translate permits)
open Fat32 (Word DriverState FAT32DriverRequest)

-- struct PageDirectoryEntryFlag and struct PageDirectoryEntry, from the highest bit
-- down: between the address and the flags are five fields that stay 0.
def PageDirectoryEntryFlag.byte (flag : PageDirectoryEntryFlag) : BitVec 8 :=
  BitVec.ofBool flag.use_pagesize_4_mb ++ (0 : BitVec 4) ++ BitVec.ofBool flag.user_bit ++ BitVec.ofBool flag.write_bit ++
    BitVec.ofBool flag.present_bit

def PageDirectoryEntry.word (entry : PageDirectoryEntry) : Word :=
  entry.lower_address ++ ((0 : BitVec 14) ++ entry.flag.byte)

def PageDirectory.words (table : PageDirectory) (number : PageIndex) : Word := (table number).word

def userRead : Access := ⟨true,false⟩
def userWrite : Access := ⟨true,true⟩
def kernelWrite : Access := ⟨false,true⟩

def PageDirectory.leads (table : PageDirectory) (access : Access) : Word → Option Word := translate table.words access

def PageDirectory.back (table : PageDirectory) (p : Word) : Option Word :=
  ((List.range PAGE_ENTRY_COUNT).find? fun j =>
    Own (table (BitVec.ofNat 10 j)) && (table (BitVec.ofNat 10 j)).lower_address == page_index p).map fun j =>
      atPage (BitVec.ofNat 10 j) (pageOffset p)

def PageDirectory.shown (table : PageDirectory) (memory : Word → Byte) (a : Word) : Byte :=
  (view (table.leads kernelWrite) memory a).getD 0

structure Computer where
  kernel : KernelState
  drive : DriverState
  memory : Word → Byte

-- A process stores from user mode, or the kernel does it for its system call, which
-- may also leave the drive in any state.
inductive ComputerAction where
  | call (a : KernelAction)
  | store (a : Word) (v : Byte)
  | drive (s : DriverState)

namespace Computer

def create (m : Computer) (request : FAT32DriverRequest) : Option Computer :=
  (m.kernel.process_create_user_process request).bind fun (code,kernel) =>
    if code ≠ PROCESS_CREATE_SUCCESS then some {m with kernel := kernel}
    else m.kernel.process_list_get_inactive_index.bind fun p_index =>
      (kernel.process_list p_index).context.page_directory_virtual_addr.bind fun page_dir =>
        let table := kernel.paging.directory page_dir
        (LoadState.load ⟨m.kernel,m.drive,table.shown m.memory⟩ kernel page_dir request).map fun (_,loaded) =>
          ⟨loaded.kernel,loaded.drive,settle table.back loaded.memory m.memory⟩

def operate (m : Computer) : ComputerAction → Option Computer
  | .call .init => m.create shellRequest
  | .call (.create request) => m.create request
  | .call a => (m.kernel.operate a).map fun kernel => {m with kernel := kernel}
  | .store a v => (put ((m.kernel.paging.directory m.kernel.cr3).leads userWrite) m.memory a v).map fun memory =>
      {m with memory := memory}
  | .drive s => some {m with drive := s}

def leads (m : Computer) (i : Slot) (access : Access) (a : Word) : Option Word :=
  (m.kernel.process_list i).context.page_directory_virtual_addr.bind fun page_dir =>
    (m.kernel.paging.directory page_dir).leads access a

def sees (m : Computer) (i : Slot) : Word → Option Byte := view (m.leads i userRead) m.memory

def ownStores (i : Slot) (seen : Word → Option Byte) (t : Transition Computer ComputerAction) : Word → Option Byte :=
  match t.action with
  | .store a v => if t.before.kernel.cur_idx = i.val then Function.update seen a (some v) else seen
  | _ => seen

end Computer

namespace KernelState

-- The pages of the request end below the kernel's, and the first of them gets a free
-- frame.
structure Secluded (k : KernelState) (request : FAT32DriverRequest) : Prop where
  pages : request.buf.toNat / PAGE_FRAME_SIZE + (page_frame_count_needed request).toNat ≤ 0x300
  hint : k.paging.freeCount ≠ 0 → k.paging.HintFree

def Secludes (k : KernelState) : KernelAction → Prop
  | .init => k.Secluded shellRequest
  | .create request => k.Secluded request
  | _ => True

end KernelState

namespace Computer

def Allows (m : Computer) : ComputerAction → Prop
  | .call a => m.kernel.Obeys a ∧ m.kernel.Secludes a
  | .store _ _ => m.kernel.cur_idx ≠ -1
  | .drive _ => True

def Next (m : Computer) (a : ComputerAction) (m' : Computer) : Prop := m.Allows a ∧ m.operate a = some m'

def power (s : DriverState) (memory : Word → Byte) : Computer := ⟨.boot,s,memory⟩

end Computer

section translation
variable {table : PageDirectory} {access : Access} {a p : Word}

theorem pageNumber_eq (a : Word) : pageNumber a = page_index a := by
  apply BitVec.eq_of_toNat_eq
  rw [page_index_toNat,pageNumber,BitVec.extractLsb'_toNat,Nat.shiftRight_eq_div_pow]
  have bound := a.isLt
  omega

theorem PageDirectoryEntry.word_address (entry : PageDirectoryEntry) : pageNumber entry.word = entry.lower_address :=
  BitVec.extractLsb'_append_eq_left

theorem PageDirectoryEntryFlag.byte_bits (flag : PageDirectoryEntryFlag) : flag.byte.getLsbD 0 = flag.present_bit ∧
    flag.byte.getLsbD 1 = flag.write_bit ∧ flag.byte.getLsbD 2 = flag.user_bit ∧
    flag.byte.getLsbD 7 = flag.use_pagesize_4_mb := by
  obtain ⟨present,write,user,size⟩ := flag
  cases present <;> cases write <;> cases user <;> cases size <;> decide

theorem PageDirectoryEntry.word_flag (entry : PageDirectoryEntry) {n : Nat} (low : n < 8) :
    entry.word.getLsbD n = entry.flag.byte.getLsbD n := by
  have low' : n < 14 + 8 := by omega
  rw [PageDirectoryEntry.word,BitVec.getLsbD_append,BitVec.getLsbD_append,if_pos low',if_pos low]

theorem PageDirectoryEntry.word_permits (entry : PageDirectoryEntry) : permits entry.word access =
    (entry.flag.present_bit && entry.flag.use_pagesize_4_mb &&
      (!access.user || (entry.flag.user_bit && (!access.write || entry.flag.write_bit)))) := by
  obtain ⟨present,write,user,size⟩ := entry.flag.byte_bits
  unfold permits
  rw [entry.word_flag (by decide),entry.word_flag (by decide),entry.word_flag (by decide),entry.word_flag (by decide),
    present,write,user,size]

end translation

end Sosis.Kernel
