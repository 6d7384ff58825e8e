import Sosis.FirstFit
import Sosis.Fat32Layout

-- paging.c: the pool of 4 MiB page frames and the page directories. A result `none`
-- is a call that indexes page_frame_map outside its 32 cells.
namespace Sosis.Kernel
open FirstFit
open Fat32 (Word)

abbrev PAGE_ENTRY_COUNT : Nat := 1024
abbrev PAGE_FRAME_SIZE : Nat := 4194304
abbrev PAGE_FRAME_MAX_COUNT : Nat := 32
abbrev PAGING_DIRECTORY_TABLE_MAX_COUNT : Nat := 32

instance : NeZero PAGE_FRAME_MAX_COUNT := ⟨by decide⟩
instance : NeZero PAGING_DIRECTORY_TABLE_MAX_COUNT := ⟨by decide⟩

def KERNEL_VIRTUAL_ADDRESS_BASE : Word := 0xC0000000

-- Bits 22 to 31 of an address: the index of its page, and of its frame.
abbrev PageIndex := BitVec 10

def page_index (addr : Word) : PageIndex := ((addr >>> 22) &&& 0x3FF).truncate 10

-- The flag bits the kernel ever sets.
structure PageDirectoryEntryFlag where
  present_bit : Bool
  write_bit : Bool
  user_bit : Bool
  use_pagesize_4_mb : Bool
deriving DecidableEq

structure PageDirectoryEntry where
  flag : PageDirectoryEntryFlag
  lower_address : PageIndex
deriving DecidableEq

abbrev PageDirectory := PageIndex → PageDirectoryEntry

def PageDirectoryEntry.zero : PageDirectoryEntry := ⟨⟨false,false,false,false⟩,0⟩

-- The page directories a pointer can point to: the kernel's own, and the slots of
-- page_directory_list.
inductive PageDirectoryPtr where
  | kernel
  | list (i : Fin PAGING_DIRECTORY_TABLE_MAX_COUNT)
deriving DecidableEq

structure PageManagerState where
  page_frame_map : Fin PAGE_FRAME_MAX_COUNT → Bool
  free_page_frame_count : Word
  next_free_frame : Word

structure PagingState where
  directory : PageDirectoryPtr → PageDirectory
  page_directory_used : Fin PAGING_DIRECTORY_TABLE_MAX_COUNT → Bool
  page_dir_free : Int
  page_manager_state : PageManagerState

def kernel_entry : PageDirectoryEntry := ⟨⟨true,true,false,true⟩,0⟩
def userFlag : PageDirectoryEntryFlag := ⟨true,true,true,true⟩
def freedFlag : PageDirectoryEntryFlag := ⟨false,true,true,true⟩

-- The initialisers of paging.c, after loader_virtual has cleared the identity
-- mapping of the first page.
def PagingState.boot : PagingState where
  directory
    | .kernel => fun k => if k = 0x300 then kernel_entry else .zero
    | .list _ => fun _ => .zero
  page_directory_used _ := false
  page_dir_free := PAGING_DIRECTORY_TABLE_MAX_COUNT
  page_manager_state := ⟨fun f => f == 0,BitVec.ofNat 32 (PAGE_FRAME_MAX_COUNT-1),1⟩

namespace PagingState

def update_page_directory_entry (s : PagingState) (page_dir : PageDirectoryPtr) (physical_addr virtual_addr : Word)
    (flag : PageDirectoryEntryFlag) : PagingState :=
  let table := Function.update (s.directory page_dir) (page_index virtual_addr) ⟨flag,page_index physical_addr⟩
  {s with directory := Function.update s.directory page_dir table}

def paging_allocate_check (s : PagingState) (amount : Word) : Bool :=
  let req_page := amount / BitVec.ofNat 32 PAGE_FRAME_SIZE
  let req_page := if amount % BitVec.ofNat 32 PAGE_FRAME_SIZE ≠ 0 then req_page + 1 else req_page
  req_page ≤ s.page_manager_state.free_page_frame_count

-- The frame of next_free_frame is taken and the hint moves up to the next free one.
def takeFrame (p : PageManagerState) (phy_mem_free : Fin PAGE_FRAME_MAX_COUNT) : PageManagerState :=
  let page_frame_map := Function.update p.page_frame_map phy_mem_free true
  ⟨page_frame_map,p.free_page_frame_count - 1,
    match firstFit (fun i => page_frame_map i == false) (phy_mem_free.val+1) with
    | some i => BitVec.ofNat 32 i
    | none => p.next_free_frame⟩

def paging_allocate_user_page_frame (s : PagingState) (page_dir : PageDirectoryPtr) (virtual_addr : Word) :
    Option (Bool × PagingState) :=
  if s.page_manager_state.free_page_frame_count = 0 then some (false,s)
  else if bound : s.page_manager_state.next_free_frame.toNat < PAGE_FRAME_MAX_COUNT then
    let phy_addr_free := BitVec.ofNat 32 (PAGE_FRAME_SIZE * s.page_manager_state.next_free_frame.toNat)
    let s := {s with page_manager_state := takeFrame s.page_manager_state ⟨_,bound⟩}
    some (true,s.update_page_directory_entry page_dir phy_addr_free virtual_addr userFlag)
  else none

def returnFrame (p : PageManagerState) (phy_mapped : Fin PAGE_FRAME_MAX_COUNT) : PageManagerState :=
  ⟨Function.update p.page_frame_map phy_mapped false,p.free_page_frame_count + 1,
    if BitVec.ofNat 32 phy_mapped < p.next_free_frame then BitVec.ofNat 32 phy_mapped else p.next_free_frame⟩

def paging_free_user_page_frame (s : PagingState) (page_dir : PageDirectoryPtr) (virtual_addr : Word) :
    Option (Bool × PagingState) :=
  let phy_mapped := (s.directory page_dir (page_index virtual_addr)).lower_address
  if (s.directory page_dir (page_index virtual_addr)).flag.present_bit = false then some (false,s)
  else if bound : phy_mapped.toNat < PAGE_FRAME_MAX_COUNT then
    let s := {s with page_manager_state := returnFrame s.page_manager_state ⟨_,bound⟩}
    some (true,s.update_page_directory_entry page_dir 0 virtual_addr freedFlag)
  else none

-- NULL is the outer `none` of the pointer; `idx` stays unset when every slot is used
-- although page_dir_free is not 0.
def paging_create_new_page_directory (s : PagingState) : Option (Option PageDirectoryPtr × PagingState) :=
  if s.page_dir_free = 0 then some (none,s)
  else (firstFit (fun i => s.page_directory_used i == false) 0).map fun idx =>
    let table := Function.update (s.directory (.list idx)) 0x300 kernel_entry
    (some (.list idx),{s with
      directory := Function.update s.directory (.list idx) table
      page_directory_used := Function.update s.page_directory_used idx true
      page_dir_free := s.page_dir_free - 1})

-- for (int j = 0; j < PAGE_ENTRY_COUNT; j++), with `turns` of them left.
def freeEntries (page_dir : PageDirectoryPtr) : Nat → PagingState → Option PagingState
  | 0,s => some s
  | turns+1,s =>
    let j := PAGE_ENTRY_COUNT - (turns+1)
    if j = 0x300 then freeEntries page_dir turns s
    else if (s.directory page_dir (BitVec.ofNat 10 j)).flag.present_bit then
      (s.paging_free_user_page_frame page_dir (BitVec.ofNat 32 j <<< 22)).bind fun (_,s) => freeEntries page_dir turns s
    else freeEntries page_dir turns s

def paging_free_page_directory (s : PagingState) (page_dir : PageDirectoryPtr) : Option (Bool × PagingState) :=
  match page_dir with
  | .kernel => some (false,s)
  | .list i =>
    let s := {s with page_directory_used := Function.update s.page_directory_used i false}
    (freeEntries (.list i) PAGE_ENTRY_COUNT s).map fun s => (true,s)

end PagingState

end Sosis.Kernel
