import Mathlib.Tactic.IntervalCases
import Mathlib.Tactic.Ring
import Sosis.MemoryAccess

-- loader of kernel-entrypoint.s: from the addresses the kernel is loaded at into those it is
-- linked at. Its instructions are not bytes of the memory here, and there is no cache of
-- translations.
namespace Sosis.Loader
open Kernel
open Ia32 (Memory Access load store load_store_same load_store_apart atPage pageNumber pageOffset translate permits translate_some)
open Fat32 (Word)

def KERNEL_VIRTUAL_BASE : Word := 0xC0000000
def KERNEL_STACK_SIZE : Word := 2097152

structure Processor where
  eax : Word
  esp : Word
  eip : Word
  cr0 : Word
  cr3 : Word
  cr4 : Word
  memory : Memory

inductive Instr where
  | movEax (v : Word)
  | orEax (v : Word)
  | movCr0
  | movCr3
  | movCr4
  | readCr0
  | readCr4
  | jmpEax
  | clear (a : Word)
  | invlpg (a : Word)
  | movEsp (v : Word)
  | call (to_ : Word)

def kernelRead : Access := ⟨false,false⟩

namespace Processor

def entry (s : Processor) (number : PageIndex) : Word := load s.memory ((s.cr3 &&& 0xFFFFF000) + BitVec.ofNat 32 (4 * number.toNat))

-- Paging without 4 MiB pages is not followed.
def physical (s : Processor) (access : Access) (a : Word) : Option Word :=
  if s.cr0.getLsbD 31 then if s.cr4.getLsbD 4 then translate s.entry access a else none
  else some a

-- With eip behind the instruction.
def exec (s : Processor) : Instr → Option Processor
  | .movEax v => some {s with eax := v}
  | .orEax v => some {s with eax := s.eax ||| v}
  | .movCr0 => some {s with cr0 := s.eax}
  | .movCr3 => some {s with cr3 := s.eax}
  | .movCr4 => some {s with cr4 := s.eax}
  | .readCr0 => some {s with eax := s.cr0}
  | .readCr4 => some {s with eax := s.cr4}
  | .jmpEax => some {s with eip := s.eax}
  | .clear a => (s.physical kernelWrite a).map fun p => {s with memory := store s.memory p 0}
  | .invlpg _ => some s
  | .movEsp v => some {s with esp := v}
  | .call to_ => (s.physical kernelWrite (s.esp - 4)).map fun p => {s with
      memory := store s.memory p s.eip
      esp := s.esp - 4
      eip := to_}

-- The code by its physical addresses, with the length of each instruction.
def step (code : Word → Option (Instr × Word)) (s : Processor) : Option Processor :=
  (s.physical kernelRead s.eip).bind fun p => (code p).bind fun found => exec {s with eip := s.eip + found.2} found.1

def run (code : Word → Option (Instr × Word)) : Nat → Processor → Option Processor
  | 0,s => some s
  | n+1,s => (run code n s).bind (step code)

end Processor

-- What the linker decides: the addresses of the instructions of loader and of the symbols.
structure Link where
  address : Nat → Word
  length : Nat → Word
  _paging_kernel_page_directory : Word
  kernel_stack : Word
  kernel_setup : Word
  code : Word → Option (Instr × Word)

namespace Link

-- loader_virtual is the tenth instruction from loader_entrypoint on.
def loader (link : Link) : List Instr := [
  .movEax (link._paging_kernel_page_directory - KERNEL_VIRTUAL_BASE),
  .movCr3,
  .readCr4,
  .orEax 0x00000010,
  .movCr4,
  .readCr0,
  .orEax 0x80000000,
  .movCr0,
  .movEax (link.address 10),
  .jmpEax,
  .clear link._paging_kernel_page_directory,
  .invlpg 0,
  .movEsp (link.kernel_stack + KERNEL_STACK_SIZE),
  .call link.kernel_setup]

-- Where an instruction is loaded.
def low (link : Link) (k : Nat) : Word := link.address k - KERNEL_VIRTUAL_BASE

def directory (link : Link) : Word := link._paging_kernel_page_directory - KERNEL_VIRTUAL_BASE

def stackTop (link : Link) : Word := link.kernel_stack + KERNEL_STACK_SIZE - 4

-- Everything is on the page that the kernel is linked to, and the stack is apart from the
-- directory.
structure Fits (link : Link) : Prop where
  pages : ∀ k ≤ 14, pageNumber (link.address k) = 0x300
  next : ∀ k < 14, link.address (k+1) = link.address k + link.length k
  placed : ∀ k i, link.loader[k]? = some i → link.code (link.low k) = some (i,link.length k)
  directory : pageNumber link._paging_kernel_page_directory = 0x300
  aligned : link.directory &&& 0xFFFFF000 = link.directory
  stack : pageNumber link.stackTop = 0x300
  stackAligned : link.kernel_stack &&& 3 = 0
  apart : 4096 ≤ (link.stackTop - link._paging_kernel_page_directory).toNat ∧
    (link.stackTop - link._paging_kernel_page_directory).toNat ≤ 2^32 - 4

end Link

def _paging_kernel_page_directory : PageDirectory := fun number => if number = 0 ∨ number = 0x300 then kernel_entry else .zero

-- The directory as loader leaves it.
def enteredDirectory : PageDirectory := Function.update _paging_kernel_page_directory 0 .zero

def Holds (link : Link) (m : Memory) (table : PageDirectory) : Prop :=
  ∀ number : PageIndex, load m (link.directory + BitVec.ofNat 32 (4 * number.toNat)) = (table number).word

theorem low_of_high {a : Word} (high : pageNumber a = 0x300) : a - KERNEL_VIRTUAL_BASE = atPage 0 (pageOffset a) := by
  have split : a = atPage 0x300 (pageOffset a) := by rw [← high,Ia32.atPage_eta]
  generalize pageOffset a = offset at split ⊢
  subst split
  have bound := offset.isLt
  apply BitVec.eq_of_toNat_eq
  have value (number : Ia32.PageNumber) : (atPage number offset).toNat = number.toNat * 2^22 + offset.toNat := by
    rw [atPage,BitVec.toNat_append,← Nat.shiftLeft_add_eq_or_of_lt bound,Nat.shiftLeft_eq]
  have base : KERNEL_VIRTUAL_BASE.toNat = 0xC0000000 := rfl
  have kernel : (0x300 : Ia32.PageNumber).toNat = 0x300 := rfl
  have zero : (0 : Ia32.PageNumber).toNat = 0 := rfl
  rw [BitVec.toNat_sub,value,value,base,kernel,zero]
  omega

-- Paging is on, with the kernel's directory.
structure Paged (link : Link) (table : PageDirectory) (s : Processor) : Prop where
  cr0 : s.cr0.getLsbD 31 = true
  cr4 : s.cr4.getLsbD 4 = true
  cr3 : s.cr3 = link.directory
  holds : Holds link s.memory table

section paged
variable {link : Link} {table : PageDirectory} {s : Processor}

theorem Paged.physical (paged : Paged link table s) (fits : link.Fits) (access : Access) (a : Word) :
    s.physical access a = table.leads access a := by
  have entries : s.entry = table.words := by
    funext number
    rw [Processor.entry,paged.cr3,fits.aligned,paged.holds]
    rfl
  rw [Processor.physical,if_pos paged.cr0,if_pos paged.cr4,entries]
  rfl

theorem kernel_entry_bits : kernel_entry.word.getLsbD 0 = true ∧ kernel_entry.word.getLsbD 7 = true ∧
    kernel_entry.word.getLsbD 2 = false := by decide

-- Through an entry of the kernel's.
theorem leads_kernel {access : Access} {a : Word} (own : table (pageNumber a) = kernel_entry) (kernel : access.user = false) :
    table.leads access a = some (atPage 0 (pageOffset a)) := by
  have permitted : permits kernel_entry.word access = true := by
    rw [permits,kernel,kernel_entry_bits.1,kernel_entry_bits.2.1]
    rfl
  refine translate_some.mpr ⟨?_,?_⟩
  · rw [PageDirectory.words,own]
    exact permitted
  · rw [PageDirectory.words,own]
    rfl

theorem Paged.reads_high (paged : Paged link table s) (fits : link.Fits) (own : table 0x300 = kernel_entry) {access : Access}
    (kernel : access.user = false) {a : Word} (high : pageNumber a = 0x300) :
    s.physical access a = some (a - KERNEL_VIRTUAL_BASE) := by
  rw [paged.physical fits,leads_kernel (by rw [high,own]) kernel,low_of_high high]

theorem Paged.reads_low (paged : Paged link table s) (fits : link.Fits) (own : table 0 = kernel_entry) {a : Word}
    (high : pageNumber a = 0x300) : s.physical kernelRead (a - KERNEL_VIRTUAL_BASE) = some (a - KERNEL_VIRTUAL_BASE) := by
  rw [paged.physical fits,low_of_high high,leads_kernel (by rw [Ia32.pageNumber_atPage,own]) rfl,Ia32.pageOffset_atPage]

theorem low_step (fits : link.Fits) {k : Nat} {i : Instr} (bound : k < 14) (found : link.loader[k]? = some i)
    (at_ : s.eip = link.low k) (reads : s.physical kernelRead (link.low k) = some (link.low k)) :
    s.step link.code = {s with eip := link.low (k+1)}.exec i := by
  have next : link.low k + link.length k = link.low (k+1) := by
    rw [Link.low,Link.low,fits.next k bound,sub_add_eq_add_sub]
  rw [Processor.step,at_,reads,Option.bind_some,fits.placed k i found,Option.bind_some,next]

theorem high_step (fits : link.Fits) {k : Nat} {i : Instr} (bound : k < 14) (found : link.loader[k]? = some i)
    (at_ : s.eip = link.address k) (reads : s.physical kernelRead (link.address k) = some (link.low k)) :
    s.step link.code = {s with eip := link.address (k+1)}.exec i := by
  rw [Processor.step,at_,reads,Option.bind_some,fits.placed k i found,Option.bind_some,← fits.next k bound]

end paged

def PSE : Word := 0x00000010
def PG : Word := 0x80000000

-- With paging on, and loader_virtual in eax.
def paging (link : Link) (s : Processor) : Processor := {s with
  eax := link.address 10
  cr0 := s.cr0 ||| PG
  cr3 := link.directory
  cr4 := s.cr4 ||| PSE}

-- The processor before each instruction of loader.
def stage (link : Link) (s : Processor) : Nat → Processor
  | 0 => {s with eip := link.low 0}
  | 1 => {s with eax := link.directory,eip := link.low 1}
  | 2 => {s with eax := link.directory,cr3 := link.directory,eip := link.low 2}
  | 3 => {s with eax := s.cr4,cr3 := link.directory,eip := link.low 3}
  | 4 => {s with eax := s.cr4 ||| PSE,cr3 := link.directory,eip := link.low 4}
  | 5 => {s with eax := s.cr4 ||| PSE,cr3 := link.directory,cr4 := s.cr4 ||| PSE,eip := link.low 5}
  | 6 => {s with eax := s.cr0,cr3 := link.directory,cr4 := s.cr4 ||| PSE,eip := link.low 6}
  | 7 => {s with eax := s.cr0 ||| PG,cr3 := link.directory,cr4 := s.cr4 ||| PSE,eip := link.low 7}
  | 8 => {paging link s with eax := s.cr0 ||| PG,eip := link.low 8}
  | 9 => {paging link s with eip := link.low 9}
  | 10 => {paging link s with eip := link.address 10}
  | 11 => {paging link s with memory := store s.memory link.directory 0,eip := link.address 11}
  | 12 => {paging link s with memory := store s.memory link.directory 0,eip := link.address 12}
  | 13 => {paging link s with
      memory := store s.memory link.directory 0
      esp := link.kernel_stack + KERNEL_STACK_SIZE
      eip := link.address 13}
  | _ => {paging link s with
      memory := store (store s.memory link.directory 0) (link.stackTop - KERNEL_VIRTUAL_BASE) (link.address 14)
      esp := link.stackTop
      eip := link.kernel_setup}

section loader
variable {link : Link} {s : Processor}

theorem Holds.set {m : Memory} {table : PageDirectory} (holds : Holds link m table) (number : PageIndex) (e : PageDirectoryEntry) :
    Holds link (store m (link.directory + BitVec.ofNat 32 (4 * number.toNat)) e.word) (Function.update table number e) := by
  intro other
  by_cases same : other = number
  · subst same
    rw [load_store_same,Function.update_self]
  · have apart : other.toNat ≠ number.toNat := fun equal => same (BitVec.eq_of_toNat_eq equal)
    rw [load_store_apart,holds other,Function.update_of_ne same]
    intro k small
    have place : link.directory + BitVec.ofNat 32 (4 * other.toNat) + BitVec.ofNat 32 k -
        (link.directory + BitVec.ofNat 32 (4 * number.toNat)) =
        BitVec.ofNat 32 (4 * other.toNat + k) - BitVec.ofNat 32 (4 * number.toNat) := by
      rw [BitVec.ofNat_add]
      ring
    have otherBound := other.isLt
    have bound := number.isLt
    rw [place,BitVec.toNat_sub,BitVec.toNat_ofNat,BitVec.toNat_ofNat]
    omega

theorem Holds.cleared (holds : Holds link s.memory _paging_kernel_page_directory) :
    Holds link (store s.memory link.directory 0) enteredDirectory := by
  have place : link.directory + BitVec.ofNat 32 (4 * (0 : PageIndex).toNat) = link.directory := BitVec.add_zero _
  have set_ := holds.set 0 .zero
  rw [place] at set_
  exact set_

theorem Holds.pushed {m : Memory} {table : PageDirectory} (fits : link.Fits) (holds : Holds link m table) (v : Word) :
    Holds link (store m (link.stackTop - KERNEL_VIRTUAL_BASE) v) table := by
  intro number
  rw [load_store_apart,holds number]
  intro k small
  obtain ⟨above,below⟩ := fits.apart
  have bound := number.isLt
  have place : link.directory + BitVec.ofNat 32 (4 * number.toNat) + BitVec.ofNat 32 k - (link.stackTop - KERNEL_VIRTUAL_BASE) =
      BitVec.ofNat 32 (4 * number.toNat + k) - (link.stackTop - link._paging_kernel_page_directory) := by
    rw [Link.directory,BitVec.ofNat_add]
    ring
  rw [place]
  generalize link.stackTop - link._paging_kernel_page_directory = gap at above below
  rw [BitVec.toNat_sub,BitVec.toNat_ofNat]
  omega

theorem paging_paged {m : Memory} {table : PageDirectory} (holds : Holds link m table) (esp eip eax : Word) :
    Paged link table {paging link s with memory := m,esp := esp,eip := eip,eax := eax} := by
  refine ⟨?_,?_,rfl,holds⟩
  · change (s.cr0 ||| PG).getLsbD 31 = true
    rw [BitVec.getLsbD_or,show PG.getLsbD 31 = true from rfl,Bool.or_true]
  · change (s.cr4 ||| PSE).getLsbD 4 = true
    rw [BitVec.getLsbD_or,show PSE.getLsbD 4 = true from rfl,Bool.or_true]

-- Before paging is on.
theorem stage_low (fits : link.Fits) {k : Nat} {i : Instr} (bound : k < 14) (found : link.loader[k]? = some i)
    (at_ : (stage link s k).eip = link.low k) (off : (stage link s k).cr0.getLsbD 31 = false) :
    (stage link s k).step link.code = Processor.exec {stage link s k with eip := link.low (k+1)} i := by
  refine low_step fits bound found at_ ?_
  rw [Processor.physical,off,if_neg Bool.false_ne_true]

theorem stage_step (fits : link.Fits) (holds : Holds link s.memory _paging_kernel_page_directory)
    (off : s.cr0.getLsbD 31 = false) {k : Nat} (bound : k < 14) :
    (stage link s k).step link.code = some (stage link s (k+1)) := by
  have zeroth : _paging_kernel_page_directory 0 = kernel_entry := rfl
  have high : _paging_kernel_page_directory 0x300 = kernel_entry := rfl
  have entered : enteredDirectory 0x300 = kernel_entry := rfl
  have cleared := holds.cleared
  interval_cases k
  · have found : link.loader[0]? = some (.movEax link.directory) := rfl
    rw [stage_low fits bound found (by simp only [stage]) (by simpa only [stage] using off)]
    simp only [stage,Processor.exec]
  · have found : link.loader[1]? = some .movCr3 := rfl
    rw [stage_low fits bound found (by simp only [stage]) (by simpa only [stage] using off)]
    simp only [stage,Processor.exec]
  · have found : link.loader[2]? = some .readCr4 := rfl
    rw [stage_low fits bound found (by simp only [stage]) (by simpa only [stage] using off)]
    simp only [stage,Processor.exec]
  · have found : link.loader[3]? = some (.orEax PSE) := rfl
    rw [stage_low fits bound found (by simp only [stage]) (by simpa only [stage] using off)]
    simp only [stage,Processor.exec]
  · have found : link.loader[4]? = some .movCr4 := rfl
    rw [stage_low fits bound found (by simp only [stage]) (by simpa only [stage] using off)]
    simp only [stage,Processor.exec]
  · have found : link.loader[5]? = some .readCr0 := rfl
    rw [stage_low fits bound found (by simp only [stage]) (by simpa only [stage] using off)]
    simp only [stage,Processor.exec]
  · have found : link.loader[6]? = some (.orEax PG) := rfl
    rw [stage_low fits bound found (by simp only [stage]) (by simpa only [stage] using off)]
    simp only [stage,Processor.exec]
  · have found : link.loader[7]? = some .movCr0 := rfl
    rw [stage_low fits bound found (by simp only [stage]) (by simpa only [stage] using off)]
    simp only [stage,Processor.exec,paging]
  · have found : link.loader[8]? = some (.movEax (link.address 10)) := rfl
    have reads : (stage link s 8).physical kernelRead (link.low 8) = some (link.low 8) := by
      rw [stage]
      exact (paging_paged holds _ _ _).reads_low fits zeroth (fits.pages 8 bound.le)
    rw [low_step fits bound found (by simp only [stage]) reads]
    simp only [stage,Processor.exec,paging]
  · have found : link.loader[9]? = some .jmpEax := rfl
    have reads : (stage link s 9).physical kernelRead (link.low 9) = some (link.low 9) := by
      rw [stage]
      exact (paging_paged holds _ _ _).reads_low fits zeroth (fits.pages 9 bound.le)
    rw [low_step fits bound found (by simp only [stage]) reads]
    simp only [stage,Processor.exec,paging]
  · have found : link.loader[10]? = some (.clear link._paging_kernel_page_directory) := rfl
    have reads : (stage link s 10).physical kernelRead (link.address 10) = some (link.low 10) := by
      rw [stage]
      exact (paging_paged holds _ _ _).reads_high fits high rfl (fits.pages 10 bound.le)
    have writes : Processor.physical {stage link s 10 with eip := link.address 11} kernelWrite
        link._paging_kernel_page_directory = some link.directory := by
      simp only [stage]
      exact (paging_paged holds _ _ _).reads_high fits high rfl fits.directory
    rw [high_step fits bound found (by simp only [stage]) reads,Processor.exec,writes]
    simp only [stage,Option.map_some,paging]
  · have found : link.loader[11]? = some (.invlpg 0) := rfl
    have reads : (stage link s 11).physical kernelRead (link.address 11) = some (link.low 11) := by
      rw [stage]
      exact (paging_paged cleared _ _ _).reads_high fits entered rfl (fits.pages 11 bound.le)
    rw [high_step fits bound found (by simp only [stage]) reads]
    simp only [stage,Processor.exec,paging]
  · have found : link.loader[12]? = some (.movEsp (link.kernel_stack + KERNEL_STACK_SIZE)) := rfl
    have reads : (stage link s 12).physical kernelRead (link.address 12) = some (link.low 12) := by
      rw [stage]
      exact (paging_paged cleared _ _ _).reads_high fits entered rfl (fits.pages 12 bound.le)
    rw [high_step fits bound found (by simp only [stage]) reads]
    simp only [stage,Processor.exec,paging]
  · have found : link.loader[13]? = some (.call link.kernel_setup) := rfl
    have reads : (stage link s 13).physical kernelRead (link.address 13) = some (link.low 13) := by
      rw [stage]
      exact (paging_paged cleared _ _ _).reads_high fits entered rfl (fits.pages 13 bound.le)
    have writes : Processor.physical {stage link s 13 with eip := link.address 14} kernelWrite link.stackTop =
        some (link.stackTop - KERNEL_VIRTUAL_BASE) := by
      simp only [stage]
      exact (paging_paged cleared _ _ _).reads_high fits entered rfl fits.stack
    have top : (stage link s 13).esp - 4 = link.stackTop := by
      simp only [stage,Link.stackTop]
    rw [high_step fits bound found (by simp only [stage]) reads,Processor.exec,top,writes]
    simp only [stage,Option.map_some,paging]

theorem loader_run (fits : link.Fits) (holds : Holds link s.memory _paging_kernel_page_directory)
    (off : s.cr0.getLsbD 31 = false) (loaded : s.eip = link.low 0) {k : Nat} (bound : k ≤ 14) :
    s.run link.code k = some (stage link s k) := by
  induction k with
  | zero => rw [Processor.run,stage,← loaded]
  | succ k ih => rw [Processor.run,ih (by omega),Option.bind_some,stage_step fits holds off bound]

-- Whatever the linker's addresses, no instruction of loader is fetched through a page that is
-- not mapped, and kernel_setup is entered with the kernel's page and no other.
theorem loader_enters (fits : link.Fits) (holds : Holds link s.memory _paging_kernel_page_directory)
    (off : s.cr0.getLsbD 31 = false) (loaded : s.eip = link.low 0) :
    ∃ s', s.run link.code 14 = some s' ∧ s'.eip = link.kernel_setup ∧ s'.esp = link.stackTop ∧
      load s'.memory (link.stackTop - KERNEL_VIRTUAL_BASE) = link.address 14 ∧
      (∀ access a, s'.physical access a =
        if pageNumber a = 0x300 ∧ access.user = false then some (a - KERNEL_VIRTUAL_BASE) else none) ∧
      ∀ a, 4 ≤ (a - link.directory).toNat → 4 ≤ (a - (link.stackTop - KERNEL_VIRTUAL_BASE)).toNat →
        s'.memory a = s.memory a := by
  have paged := paging_paged (s := s) (holds.cleared.pushed fits (link.address 14)) link.stackTop link.kernel_setup (link.address 10)
  refine ⟨stage link s 14,loader_run fits holds off loaded (by omega),rfl,rfl,load_store_same _ _ _,fun access a => ?_,
    fun a beyond below => ?_⟩
  · change Processor.physical {paging link s with
      memory := store (store s.memory link.directory 0) (link.stackTop - KERNEL_VIRTUAL_BASE) (link.address 14)
      esp := link.stackTop
      eip := link.kernel_setup
      eax := link.address 10} access a = _
    by_cases mapped : pageNumber a = 0x300 ∧ access.user = false
    · rw [if_pos mapped,paged.reads_high fits rfl mapped.2 mapped.1]
    · rw [if_neg mapped,paged.physical fits]
      refine Option.eq_none_iff_forall_ne_some.mpr fun p found => ?_
      have permitted := (translate_some.mp found).1
      by_cases kernel : pageNumber a = 0x300
      · have user : access.user = true := by
          cases who : access.user with
          | true => rfl
          | false => exact absurd ⟨kernel,who⟩ mapped
        have own : enteredDirectory.words (pageNumber a) = kernel_entry.word := by
          rw [kernel]
          rfl
        rw [own,permits,user,kernel_entry_bits.2.2,Bool.false_and,Bool.not_true,Bool.or_false,Bool.and_false] at permitted
        cases permitted
      · have absent : enteredDirectory.words (pageNumber a) = PageDirectoryEntry.zero.word := by
          rw [PageDirectory.words,enteredDirectory,Function.update_apply]
          split
          · rfl
          · rename_i other
            rw [_paging_kernel_page_directory,if_neg (not_or.mpr ⟨other,kernel⟩)]
        rw [absent,permits] at permitted
        exact absurd permitted (by simp [PageDirectoryEntry.word,PageDirectoryEntry.zero,PageDirectoryEntryFlag.byte])
  · change store (store s.memory link.directory 0) (link.stackTop - KERNEL_VIRTUAL_BASE) (link.address 14) a = s.memory a
    rw [store,if_neg (Nat.not_lt.mpr below),store,if_neg (Nat.not_lt.mpr beyond)]

end loader

-- The lengths that the assembler gives the instructions.
def lengths : List Nat := [5,3,3,3,3,3,5,3,6,2,10,7,5,5]

-- .multiboot comes first, at 0xC0100000; each section is aligned to 4096 bytes.
def linked : Link where
  address k := 0xC0101000 + BitVec.ofNat 32 (lengths.take k).sum
  length k := BitVec.ofNat 32 (lengths.getD k 0)
  _paging_kernel_page_directory := 0xC0110000
  kernel_stack := 0xC0120000
  kernel_setup := 0xC0102000
  code _ := none

def placed : Link := {linked with
  code := fun a => (List.range 14).findSome? fun k =>
    if linked.low k = a then linked.loader[k]?.map fun i => (i,linked.length k) else none}

theorem placed_fits : placed.Fits where
  pages := by decide
  next := by decide
  placed k i found := by
    have bound : k < 14 := (List.getElem?_eq_some_iff.mp found).1
    interval_cases k <;> cases found <;> rfl
  directory := by decide
  aligned := by decide
  stack := by decide
  stackAligned := by decide
  apart := by decide

-- As the boot loader leaves the processor, with the kernel's image in the memory.
def booted : Processor where
  eax := 0x2BADB002
  esp := 0
  eip := 0x00101000
  cr0 := 0x00000011
  cr3 := 0
  cr4 := 0
  memory := store (store (fun _ => 0) 0x00110000 kernel_entry.word) 0x00110C00 kernel_entry.word

theorem booted_holds : Holds placed booted.memory _paging_kernel_page_directory := by
  have blank : Holds placed (fun _ => 0) fun _ => .zero := by
    intro number
    simp only [load]
    decide
  have table : _paging_kernel_page_directory =
      Function.update (Function.update (fun _ => .zero) 0 kernel_entry) 0x300 kernel_entry := by
    funext number
    rw [_paging_kernel_page_directory,Function.update_apply,Function.update_apply]
    by_cases kernel : number = 0x300
    · rw [if_pos (.inr kernel),if_pos kernel]
    · rw [if_neg kernel]
      simp only [kernel,or_false]
  rw [table]
  exact (blank.set 0 kernel_entry).set 0x300 kernel_entry

theorem loader_enters_booted : ∃ s', booted.run placed.code 14 = some s' ∧ s'.eip = 0xC0102000 ∧
    s'.physical kernelWrite 0xC0110000 = some 0x00110000 ∧ s'.physical kernelRead 0x00101000 = none := by
  have off : booted.cr0.getLsbD 31 = false := by decide
  have loaded : booted.eip = placed.low 0 := by decide
  obtain ⟨s',run,entered,_,_,leads,_⟩ := loader_enters (s := booted) placed_fits booted_holds off loaded
  refine ⟨s',run,entered,?_,?_⟩
  · rw [leads]
    decide
  · rw [leads]
    decide

end Sosis.Loader
