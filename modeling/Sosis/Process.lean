import Sosis.Fat32Driver
import Sosis.Paging

-- process.c and scheduler.c up to the jump into a process. User memory is not part of
-- the state: the file that process_create_user_process reads in, whatever read
-- answers, changes no table of the kernel. A result `none` is a call that leaves the
-- defined behaviour (an index outside an array, a search that does not end), or one
-- that loads NULL into CR3, after which no kernel instruction can be fetched. A user
-- page mapped over the kernel's own entry 0x300 is an entry like any other here.
namespace Sosis.Kernel
open FirstFit
open Fat32 (Word Name FAT32DriverRequest)

abbrev PROCESS_PAGE_FRAME_COUNT_MAX : Nat := 8
abbrev PROCESS_COUNT_MAX : Nat := 16

instance : NeZero PROCESS_PAGE_FRAME_COUNT_MAX := ⟨by decide⟩
instance : NeZero PROCESS_COUNT_MAX := ⟨by decide⟩

def CPU_EFLAGS_BASE_FLAG : Word := 0x2
def CPU_EFLAGS_FLAG_INTERRUPT_ENABLE : Word := 0x200
def GDT_USER_DATA_SEGMENT_SELECTOR : Word := 0x20

def PROCESS_CREATE_SUCCESS : Int := 0
def PROCESS_CREATE_FAIL_MAX_PROCESS_EXCEEDED : Int := 1
def PROCESS_CREATE_FAIL_INVALID_ENTRYPOINT : Int := 2
def PROCESS_CREATE_FAIL_NOT_ENOUGH_MEMORY : Int := 3

inductive PROCESS_STATE where
  | READY
  | RUNNING
  | BLOCKED
deriving DecidableEq

-- struct CPURegister, in the order of its fields
structure CPURegister where
  edi : Word
  esi : Word
  ebp : Word
  esp : Word
  ebx : Word
  edx : Word
  ecx : Word
  eax : Word
  gs : Word
  fs : Word
  es : Word
  ds : Word
deriving DecidableEq

structure Context where
  cpu : CPURegister
  eip : Word
  eflags : Word
  page_directory_virtual_addr : Option PageDirectoryPtr
deriving DecidableEq

structure Metadata where
  pid : Word
  cur_state : PROCESS_STATE
  active : Bool
  name : Name

structure ProcessMemory where
  virtual_addr_used : Fin PROCESS_PAGE_FRAME_COUNT_MAX → Word
  page_frame_used_count : Word

structure ProcessControlBlock where
  metadata : Metadata
  context : Context
  memory : ProcessMemory

structure KernelState where
  paging : PagingState
  process_list : Fin PROCESS_COUNT_MAX → ProcessControlBlock
  active_process_count : Int
  cur_idx : Int
  total_pid : Int
  cr3 : PageDirectoryPtr

-- The initial value of an element of _process_list.
def ProcessControlBlock.zero : ProcessControlBlock where
  metadata := ⟨0,.READY,false,fun _ => 0⟩
  context := ⟨⟨0,0,0,0,0,0,0,0,0,0,0,0⟩,0,0,none⟩
  memory := ⟨fun _ => 0,0⟩

def KernelState.boot : KernelState where
  paging := .boot
  process_list _ := .zero
  active_process_count := 0
  cur_idx := -1
  total_pid := 0
  cr3 := .kernel

def ceil_div (a b : Word) : Word :=
  if b = 0 then 0
  else
    let result := a / b
    if a % b ≠ 0 then result + 1 else result

-- One frame more than the executable, for the user stack.
def page_frame_count_needed (request : FAT32DriverRequest) : Word :=
  ceil_div (request.buffer_size + BitVec.ofNat 32 PAGE_FRAME_SIZE) (BitVec.ofNat 32 PAGE_FRAME_SIZE)

-- The pages of the loop in process_create_user_process: the result of each
-- allocation is not looked at.
def mapPages (page_dir : PageDirectoryPtr) (buf : Word) : Nat → Nat → (Fin PROCESS_PAGE_FRAME_COUNT_MAX → Word) →
    PagingState → Option ((Fin PROCESS_PAGE_FRAME_COUNT_MAX → Word) × PagingState)
  | 0,_,virtual_addr_used,s => some (virtual_addr_used,s)
  | turns+1,i,virtual_addr_used,s =>
    if bound : i < PROCESS_PAGE_FRAME_COUNT_MAX then
      let addr := buf + BitVec.ofNat 32 i * BitVec.ofNat 32 PAGE_FRAME_SIZE
      (s.paging_allocate_user_page_frame page_dir addr).bind fun (_,s) =>
        mapPages page_dir buf turns (i+1) (Function.update virtual_addr_used ⟨i,bound⟩ addr) s
    else none

-- The loop of release_memory.
def releasePages (page_dir : Option PageDirectoryPtr) : Nat → Nat → (Fin PROCESS_PAGE_FRAME_COUNT_MAX → Word) →
    PagingState → Option ((Fin PROCESS_PAGE_FRAME_COUNT_MAX → Word) × PagingState)
  | 0,_,virtual_addr_used,s => some (virtual_addr_used,s)
  | turns+1,i,virtual_addr_used,s =>
    if bound : i < PROCESS_PAGE_FRAME_COUNT_MAX then
      page_dir.bind fun page_dir =>
      (s.paging_free_user_page_frame page_dir (virtual_addr_used ⟨i,bound⟩)).bind fun (_,s) =>
        releasePages (some page_dir) turns (i+1) (Function.update virtual_addr_used ⟨i,bound⟩ 0) s
    else none

namespace KernelState

def active (k : KernelState) (i : Fin PROCESS_COUNT_MAX) : Bool := (k.process_list i).metadata.active
def pid (k : KernelState) (i : Fin PROCESS_COUNT_MAX) : Word := (k.process_list i).metadata.pid

-- while (_process_list[idx].metadata.active == true); idx - 1 wraps in Fin.
def inactiveFrom (k : KernelState) : Nat → Fin PROCESS_COUNT_MAX → Option (Fin PROCESS_COUNT_MAX)
  | 0,_ => none
  | turns+1,idx => if k.active idx then k.inactiveFrom turns (idx-1) else some idx

def process_list_get_inactive_index (k : KernelState) : Option (Fin PROCESS_COUNT_MAX) :=
  if k.active_process_count = 0 then some 0
  else
    let idx := k.cur_idx - 1
    let idx : Int := if idx = -1 then (PROCESS_COUNT_MAX : Int) - 1 else idx
    if bound : 0 ≤ idx ∧ idx < PROCESS_COUNT_MAX then
      k.inactiveFrom PROCESS_COUNT_MAX ⟨idx.toNat,by omega⟩
    else none

def process_create_user_process (k : KernelState) (request : FAT32DriverRequest) : Option (Int × KernelState) :=
  if k.active_process_count ≥ PROCESS_COUNT_MAX then some (PROCESS_CREATE_FAIL_MAX_PROCESS_EXCEEDED,k)
  else if request.buf ≥ KERNEL_VIRTUAL_ADDRESS_BASE then some (PROCESS_CREATE_FAIL_INVALID_ENTRYPOINT,k)
  else if !k.paging.paging_allocate_check (page_frame_count_needed request) ||
      page_frame_count_needed request > BitVec.ofNat 32 PROCESS_PAGE_FRAME_COUNT_MAX then
    some (PROCESS_CREATE_FAIL_NOT_ENOUGH_MEMORY,k)
  else do
    let p_index ← k.process_list_get_inactive_index
    let new_pcb := k.process_list p_index
    let cur_active := k.cr3
    let (page_directory_virtual_addr,paging) ← k.paging.paging_create_new_page_directory
    let page_dir ← page_directory_virtual_addr -- paging_use_page_directory
    let (virtual_addr_used,paging) ← mapPages page_dir request.buf (page_frame_count_needed request).toNat 0
      new_pcb.memory.virtual_addr_used paging
    let total_pid := k.total_pid + 1
    let new_pcb : ProcessControlBlock := {
      metadata := ⟨BitVec.ofInt 32 total_pid,.READY,true,request.name⟩
      context := {
        cpu := {new_pcb.context.cpu with
          ds := GDT_USER_DATA_SEGMENT_SELECTOR
          es := GDT_USER_DATA_SEGMENT_SELECTOR
          fs := GDT_USER_DATA_SEGMENT_SELECTOR
          gs := GDT_USER_DATA_SEGMENT_SELECTOR
          esp := 0x400000}
        eip := request.buf
        eflags := new_pcb.context.eflags ||| (CPU_EFLAGS_BASE_FLAG ||| CPU_EFLAGS_FLAG_INTERRUPT_ENABLE)
        page_directory_virtual_addr := some page_dir}
      memory := ⟨virtual_addr_used,page_frame_count_needed request⟩}
    some (PROCESS_CREATE_SUCCESS,{
      paging := paging
      process_list := Function.update k.process_list p_index new_pcb
      active_process_count := k.active_process_count + 1
      cur_idx := k.cur_idx
      total_pid := total_pid
      cr3 := cur_active})

def release_memory (k : KernelState) (i : Fin PROCESS_COUNT_MAX) : Option KernelState := do
  let pcb := k.process_list i
  let (virtual_addr_used,paging) ← releasePages pcb.context.page_directory_virtual_addr
    pcb.memory.page_frame_used_count.toNat 0 pcb.memory.virtual_addr_used k.paging
  let cur_run := k.cr3
  let page_dir ← pcb.context.page_directory_virtual_addr -- paging_use_page_directory
  let (_,paging) ← paging.paging_free_page_directory page_dir
  let cr3 := if cur_run ≠ page_dir then cur_run else page_dir
  let pcb := {pcb with memory := ⟨virtual_addr_used,0⟩}
  some {k with paging := paging,process_list := Function.update k.process_list i pcb,cr3 := cr3}

-- The write to QEMU's power-off port when the last process goes is left out: where
-- nothing answers at that port the code goes on.
def process_destroy (k : KernelState) (pid : Word) : Option (Bool × KernelState) :=
  match firstFit (fun i => k.pid i == pid) 0 with
  | none => some (false,k)
  | some i => do
    let k ← k.release_memory i
    let pcb := k.process_list i
    let pcb := {pcb with metadata := {pcb.metadata with active := false}}
    some (true,{k with
      process_list := Function.update k.process_list i pcb
      active_process_count := k.active_process_count - 1})

def setState (k : KernelState) (i : Fin PROCESS_COUNT_MAX) (cur_state : PROCESS_STATE) : KernelState :=
  let pcb := k.process_list i
  {k with process_list := Function.update k.process_list i {pcb with metadata := {pcb.metadata with cur_state := cur_state}}}

-- cur_idx as an index of _process_list.
def running (k : KernelState) : Option (Fin PROCESS_COUNT_MAX) :=
  if bound : 0 ≤ k.cur_idx ∧ k.cur_idx < PROCESS_COUNT_MAX then some ⟨k.cur_idx.toNat,by omega⟩ else none

def scheduler_save_context_to_current_running_pcb (k : KernelState) (ctx : Context) : Option KernelState :=
  k.running.map fun cur =>
    let cur_run := k.process_list cur
    let context := {cur_run.context with cpu := ctx.cpu,eflags := ctx.eflags,eip := ctx.eip}
    {k with process_list := Function.update k.process_list cur {cur_run with context := context}}

-- while (!_process_list[idx].metadata.active); idx + 1 wraps in Fin.
def activeFrom (k : KernelState) : Nat → Fin PROCESS_COUNT_MAX → Option (Fin PROCESS_COUNT_MAX)
  | 0,_ => none
  | turns+1,idx => if k.active idx then some idx else k.activeFrom turns (idx+1)

-- Returns the context that process_context_switch is called with. At the very first
-- switch cur_idx is -1 and the READY is stored in front of _process_list.
def scheduler_switch_to_next_process (k : KernelState) : Option (Context × KernelState) := do
  let first : Fin PROCESS_COUNT_MAX := Fin.ofNat PROCESS_COUNT_MAX (k.cur_idx + 1).toNat
  let idx ← k.activeFrom PROCESS_COUNT_MAX first
  let k := match k.running with
    | some cur => k.setState cur .READY
    | none => k
  let ctx := (k.process_list idx).context
  let page_dir ← ctx.page_directory_virtual_addr -- paging_use_page_directory
  let k := {k with cr3 := page_dir,cur_idx := idx.val}
  some (ctx,k.setState idx .RUNNING)

end KernelState

def shellName : Name := fun i => (([115,104,101,108,108] : List ByteRecords.Byte)[i.val]?).getD 0

def shellRequest : FAT32DriverRequest where
  buf := 0
  name := shellName
  ext _ := 0
  parent_cluster_number := Fat32.ROOT_CLUSTER_NUMBER
  buffer_size := 0x100000

-- The end of kernel_setup: the shell is created and switched to.
def kernel_setup : Option KernelState := do
  let (_,k) ← KernelState.boot.process_create_user_process shellRequest
  let (_,k) ← k.scheduler_switch_to_next_process
  some k

end Sosis.Kernel
