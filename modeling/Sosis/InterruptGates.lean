import Mathlib.Tactic.IntervalCases
import Sosis.ContextSwitch
import Sosis.Ia32Gates
import Sosis.SystemCalls

-- gdt.c, idt.c, the task state segment of interrupt.c and the stub table of intsetup.s: which
-- events reach main_interrupt_handler from a process, and what its frame says then.
namespace Sosis.Gates
open Ia32 Kernel

abbrev GDT_MAX_ENTRY_COUNT : Nat := 32
def GDT_TSS_SELECTOR : Selector := 0x28
abbrev IDT_MAX_ENTRY_COUNT : Nat := 256
abbrev ISR_STUB_TABLE_LIMIT : Nat := 64
def INTERRUPT_GATE_R_BIT_1 : BitVec 3 := 0b000
def INTERRUPT_GATE_R_BIT_2 : BitVec 3 := 0b110
def INTERRUPT_GATE_R_BIT_3 : BitVec 1 := 0b0

structure SegmentDescriptor where
  segment_low : BitVec 16
  base_low : BitVec 16
  base_mid : BitVec 8
  type_bit : BitVec 4
  non_system : BitVec 1
  dpl : BitVec 2
  p : BitVec 1
  segment_limit : BitVec 4
  avl : BitVec 1
  l : BitVec 1
  dop : BitVec 1
  g : BitVec 1
  base_high : BitVec 8

structure IDTGate where
  offset_low : BitVec 16
  segment : BitVec 16
  _reserved : BitVec 5
  _r_bit_1 : BitVec 3
  _r_bit_2 : BitVec 3
  gate_32 : BitVec 1
  _r_bit_3 : BitVec 1
  DPL : BitVec 2
  valid_bit : BitVec 1
  offset_high : BitVec 16

structure TSSEntry where
  prev_tss : Word
  esp0 : Word
  ss0 : Word
  unused_register : Fin 23 → Word

-- The packed structures as the processor finds them, the first field lowest.
def SegmentDescriptor.encode (d : SegmentDescriptor) : Descriptor :=
  (d.base_high ++ (d.g ++ (d.dop ++ (d.l ++ (d.avl ++ (d.segment_limit ++ (d.p ++ (d.dpl ++ (d.non_system ++ (d.type_bit ++
    (d.base_mid ++ (d.base_low ++ d.segment_low)))))))))))).cast rfl

def IDTGate.encode (g : IDTGate) : Descriptor :=
  (g.offset_high ++ (g.valid_bit ++ (g.DPL ++ (g._r_bit_3 ++ (g.gate_32 ++ (g._r_bit_2 ++ (g._r_bit_1 ++ (g._reserved ++
    (g.segment ++ g.offset_low))))))))).cast rfl

section fields
variable (d : SegmentDescriptor) (g : IDTGate)

theorem SegmentDescriptor.encode_base : d.encode.base = d.base_high ++ (d.base_mid ++ d.base_low) := by
  unfold Descriptor.base encode
  simp only [BitVec.extractLsb'_cast,BitVec.extractLsb'_append_eq_ite]
  simp

theorem SegmentDescriptor.encode_kind : d.encode.kind = d.non_system ++ d.type_bit := by
  unfold Descriptor.kind encode
  simp only [BitVec.extractLsb'_cast,BitVec.extractLsb'_append_eq_ite]
  simp

theorem SegmentDescriptor.encode_present : d.encode.present = d.p.getLsbD 0 := by
  unfold Descriptor.present encode
  simp only [BitVec.getLsbD_cast,BitVec.getLsbD_append]
  simp

theorem SegmentDescriptor.encode_limit : d.encode.limit =
    (if d.g.getLsbD 0 then 4096 * (d.segment_limit ++ d.segment_low).toNat + 4095
      else (d.segment_limit ++ d.segment_low).toNat) := by
  unfold Descriptor.limit encode
  simp only [BitVec.extractLsb'_cast,BitVec.extractLsb'_append_eq_ite,BitVec.getLsbD_cast,BitVec.getLsbD_append]
  simp

theorem IDTGate.encode_kind : g.encode.kind = g._r_bit_3 ++ (g.gate_32 ++ g._r_bit_2) := by
  unfold Descriptor.kind encode
  simp only [BitVec.extractLsb'_cast,BitVec.extractLsb'_append_eq_ite]
  simp

theorem IDTGate.encode_dpl : g.encode.dpl = g.DPL.toNat := by
  unfold Descriptor.dpl encode
  simp only [BitVec.extractLsb'_cast,BitVec.extractLsb'_append_eq_ite]
  simp

theorem IDTGate.encode_offset : g.encode.offset = g.offset_high ++ g.offset_low := by
  unfold Descriptor.offset encode
  simp only [BitVec.extractLsb'_cast,BitVec.extractLsb'_append_eq_ite]
  simp

theorem IDTGate.encode_selector : g.encode.selector = g.segment := by
  unfold Descriptor.selector encode
  simp only [BitVec.extractLsb'_cast,BitVec.extractLsb'_append_eq_ite]
  simp

theorem IDTGate.encode_present : g.encode.present = g.valid_bit.getLsbD 0 := by
  unfold Descriptor.present encode
  simp only [BitVec.getLsbD_cast,BitVec.getLsbD_append]
  simp

end fields

def SegmentDescriptor.zero : SegmentDescriptor := ⟨0,0,0,0,0,0,0,0,0,0,0,0,0⟩

def IDTGate.zero : IDTGate := ⟨0,0,0,0,0,0,0,0,0,0⟩

-- The descriptors of the kernel's and the processes' code and data.
def SegmentDescriptor.whole (type_bit : BitVec 4) (dpl : BitVec 2) (l : BitVec 1) : SegmentDescriptor where
  segment_low := 0xFFFF
  base_low := 0
  base_mid := 0
  type_bit := type_bit
  non_system := 1
  dpl := dpl
  p := 1
  segment_limit := 0xF
  avl := 0
  l := l
  dop := 1
  g := 1
  base_high := 0

def SegmentDescriptor.accessed (d : SegmentDescriptor) : SegmentDescriptor := {d with type_bit := d.type_bit ||| 1}

-- As it is in memory: the processor marks a segment's descriptor when the segment is loaded.
def SegmentDescriptor.FoundAs (d : SegmentDescriptor) (found : Descriptor) : Prop :=
  found = d.encode ∨ d.non_system = 1 ∧ found = d.accessed.encode

def SIZEOF_TSS_ENTRY : Word := 104

def SegmentDescriptor.tss : SegmentDescriptor where
  segment_low := SIZEOF_TSS_ENTRY.truncate 16
  base_low := 0
  base_mid := 0
  type_bit := 0x9
  non_system := 0
  dpl := 0
  p := 1
  segment_limit := ((SIZEOF_TSS_ENTRY &&& (0xF <<< 16)) >>> 16).truncate 4
  avl := 0
  l := 0
  dop := 1
  g := 0
  base_high := 0

abbrev GlobalDescriptorTable := Fin GDT_MAX_ENTRY_COUNT → SegmentDescriptor
abbrev InterruptDescriptorTable := InterruptVector → IDTGate

def global_descriptor_table : GlobalDescriptorTable
  | 0 => .zero
  | 1 => .whole 0xA 0 1
  | 2 => .whole 0x2 0 0
  | 3 => .whole 0xA 3 1
  | 4 => .whole 0x2 3 0
  | 5 => .tss
  | _ => .zero

def gdt_install_tss (table : GlobalDescriptorTable) (base : Word) : GlobalDescriptorTable :=
  Function.update table 5 {table 5 with
    base_high := ((base &&& ((0xFF : Word) <<< 24)) >>> 24).truncate 8
    base_mid := ((base &&& ((0xFF : Word) <<< 16)) >>> 16).truncate 8
    base_low := (base &&& 0xFFFF).truncate 16}

def set_interrupt_gate (table : InterruptDescriptorTable) (int_vector : InterruptVector) (handler_address : Word)
    (gdt_seg_selector : Selector) (privilege : BitVec 8) : InterruptDescriptorTable :=
  Function.update table int_vector {
    offset_low := handler_address.truncate 16
    segment := gdt_seg_selector
    _reserved := 0
    _r_bit_1 := INTERRUPT_GATE_R_BIT_1
    _r_bit_2 := INTERRUPT_GATE_R_BIT_2
    gate_32 := 1
    _r_bit_3 := INTERRUPT_GATE_R_BIT_3
    DPL := privilege.truncate 2
    valid_bit := 1
    offset_high := (handler_address >>> 16).truncate 16}

-- So many turns of the loop of initialize_idt.
def initialize_gates (isr_stub_table : Nat → Word) (table : InterruptDescriptorTable) : Nat → InterruptDescriptorTable
  | 0 => table
  | i+1 => set_interrupt_gate (initialize_gates isr_stub_table table i) (BitVec.ofNat 8 i) (isr_stub_table i)
      GDT_KERNEL_CODE_SEGMENT_SELECTOR (if i ≥ 0x30 ∧ i ≤ 0x3F then 3 else 0)

def initialize_idt (isr_stub_table : Nat → Word) (table : InterruptDescriptorTable) : InterruptDescriptorTable :=
  initialize_gates isr_stub_table table ISR_STUB_TABLE_LIMIT

def _interrupt_tss_entry : TSSEntry where
  prev_tss := 0
  esp0 := 0
  ss0 := GDT_KERNEL_DATA_SEGMENT_SELECTOR.setWidth 32
  unused_register _ := 0

def set_tss_kernel_current_stack (tss : TSSEntry) (ebp : Word) : TSSEntry := {tss with esp0 := ebp + 8}

-- Where the linker put the tables and the handlers, and the code at each address.
structure Image where
  global_descriptor_table : Word
  interrupt_descriptor_table : Word
  _interrupt_tss_entry : Word
  isr_stub_table : Nat → Word
  code : Word → List Instr

structure Tables where
  gdt : GlobalDescriptorTable
  idt : InterruptDescriptorTable
  tss : TSSEntry

-- ltr: the processor marks the descriptor as busy.
def set_tss_register (table : GlobalDescriptorTable) : Option (TaskRegister × GlobalDescriptorTable) :=
  let d := (table 5).encode
  if d.kind = 0b01001 ∧ d.present = true then
    some (⟨GDT_TSS_SELECTOR,d.base,d.limit⟩,Function.update table 5 {table 5 with type_bit := 0xB})
  else none

-- kernel_setup, as far as the processor's tables go: load_gdt, initialize_idt,
-- gdt_install_tss, set_tss_register and set_tss_kernel_current_stack.
def kernel_setup (image : Image) (ebp : Word) : Option (SystemRegisters × Tables) :=
  (set_tss_register (gdt_install_tss global_descriptor_table image._interrupt_tss_entry)).map fun (tr,gdt) =>
    (⟨⟨BitVec.ofNat 16 (8 * GDT_MAX_ENTRY_COUNT - 1),image.global_descriptor_table⟩,
        ⟨BitVec.ofNat 16 (8 * IDT_MAX_ENTRY_COUNT - 1),image.interrupt_descriptor_table⟩,tr⟩,
      ⟨gdt,initialize_idt image.isr_stub_table (fun _ => .zero),set_tss_kernel_current_stack _interrupt_tss_entry ebp⟩)

theorem initialize_gates_apply (isr_stub_table : Nat → Word) (table : InterruptDescriptorTable) {turns : Nat} (bound : turns ≤ 256)
    (n : InterruptVector) : initialize_gates isr_stub_table table turns n =
      if n.toNat < turns then set_interrupt_gate table n (isr_stub_table n.toNat) GDT_KERNEL_CODE_SEGMENT_SELECTOR
        (if n.toNat ≥ 0x30 ∧ n.toNat ≤ 0x3F then 3 else 0) n
      else table n := by
  induction turns with
  | zero => rfl
  | succ i ih =>
    rw [initialize_gates,set_interrupt_gate,Function.update_apply]
    by_cases last : n = BitVec.ofNat 8 i
    · have number : n.toNat = i := by
        rw [last,BitVec.toNat_ofNat]
        omega
      rw [if_pos last,if_pos (by omega : n.toNat < i+1),set_interrupt_gate,Function.update_self,number]
    · have other : n.toNat ≠ i := by
        rintro rfl
        exact last (by rw [BitVec.ofNat_toNat,BitVec.setWidth_eq])
      rw [if_neg last,ih (by omega)]
      exact if_congr (by omega) rfl rfl

-- Memory with the tables where the linker put them.
structure Placed (m : Memory) (image : Image) (t : Tables) : Prop where
  gdt : ∀ i, (t.gdt i).FoundAs (descriptor m (image.global_descriptor_table + BitVec.ofNat 32 (8 * i.val)))
  idt : ∀ n, descriptor m (image.interrupt_descriptor_table + BitVec.ofNat 32 (8 * n.toNat)) = (t.idt n).encode
  esp0 : load m (image._interrupt_tss_entry + 4) = t.tss.esp0
  ss0 : load m (image._interrupt_tss_entry + 8) = t.tss.ss0

theorem base_installed (base : Word) :
    (gdt_install_tss global_descriptor_table base 5).encode.base = base := by
  rw [SegmentDescriptor.encode_base,gdt_install_tss,Function.update_self]
  apply BitVec.eq_of_getLsbD_eq
  intro k inside
  simp only [BitVec.getLsbD_append,BitVec.truncate_eq_setWidth,BitVec.getLsbD_setWidth,BitVec.getLsbD_and,
    BitVec.getLsbD_ushiftRight]
  interval_cases k <;> simp

theorem installed_tss (base : Word) : (gdt_install_tss global_descriptor_table base 5).encode.kind = 0b01001 ∧
    (gdt_install_tss global_descriptor_table base 5).encode.present = true ∧
    (gdt_install_tss global_descriptor_table base 5).encode.limit = 104 := by
  rw [SegmentDescriptor.encode_kind,SegmentDescriptor.encode_present,SegmentDescriptor.encode_limit,gdt_install_tss,
    Function.update_self]
  simp [global_descriptor_table,SegmentDescriptor.tss,SIZEOF_TSS_ENTRY]

theorem kernel_setup_tables (image : Image) (ebp : Word) : ∃ gdt,
    kernel_setup image ebp = some (⟨⟨255,image.global_descriptor_table⟩,⟨2047,image.interrupt_descriptor_table⟩,
      ⟨GDT_TSS_SELECTOR,image._interrupt_tss_entry,104⟩⟩,
      ⟨gdt,initialize_idt image.isr_stub_table (fun _ => .zero),set_tss_kernel_current_stack _interrupt_tss_entry ebp⟩) ∧
    ∀ i, i ≠ 5 → gdt i = global_descriptor_table i := by
  obtain ⟨kind,present,limit⟩ := installed_tss image._interrupt_tss_entry
  have base := base_installed image._interrupt_tss_entry
  have others : ∀ i, i ≠ 5 → gdt_install_tss global_descriptor_table image._interrupt_tss_entry i = global_descriptor_table i :=
    fun i other => Function.update_of_ne other _ _
  rw [kernel_setup]
  generalize gdt_install_tss global_descriptor_table image._interrupt_tss_entry = installed at kind present limit base others
  refine ⟨Function.update installed 5 {installed 5 with type_bit := 0xB},?_,fun i other => ?_⟩
  · rw [set_tss_register]
    dsimp only
    rw [if_pos ⟨kind,present⟩,limit,base]
    rfl
  · rw [Function.update_of_ne other]
    exact others i other

-- The gate of a handler that the stub table has, or none.
def gateOf (image : Image) (n : InterruptVector) : IDTGate := initialize_idt image.isr_stub_table (fun _ => .zero) n

theorem gateOf_inside (image : Image) {n : InterruptVector} (inside : n.toNat < ISR_STUB_TABLE_LIMIT) :
    (gateOf image n).encode.kind = 0b01110 ∧ (gateOf image n).encode.present = true ∧
      (gateOf image n).encode.dpl = (if n.toNat ≥ 0x30 then 3 else 0) ∧
      (gateOf image n).encode.selector = GDT_KERNEL_CODE_SEGMENT_SELECTOR ∧
      (gateOf image n).encode.offset = image.isr_stub_table n.toNat := by
  have found : gateOf image n = _ := (initialize_gates_apply _ _ (by decide) n).trans (if_pos inside)
  rw [set_interrupt_gate,Function.update_self] at found
  rw [found,IDTGate.encode_kind,IDTGate.encode_present,IDTGate.encode_dpl,IDTGate.encode_selector,IDTGate.encode_offset]
  dsimp only
  refine ⟨rfl,by decide,?_,rfl,?_⟩
  · have bound : n.toNat ≤ 0x3F := Nat.le_of_lt_succ inside
    by_cases high : n.toNat ≥ 0x30
    · rw [if_pos ⟨high,bound⟩,if_pos high]
      rfl
    · rw [if_neg (fun both => high both.1),if_neg high]
      rfl
  · apply BitVec.eq_of_getLsbD_eq
    intro k bound
    rw [BitVec.getLsbD_append]
    by_cases low : k < 16
    · simp [low]
    · simp [low,show k - 16 < 16 by omega,show 16 + (k - 16) = k by omega]

theorem gateOf_outside (image : Image) {n : InterruptVector} (outside : ¬ n.toNat < ISR_STUB_TABLE_LIMIT) :
    gateOf image n = .zero := (initialize_gates_apply _ _ (by decide) n).trans (if_neg outside)

-- The events that take the gate of their own vector from a process.
def Admitted (cause : Cause) : Prop :=
  cause.vector.toNat < ISR_STUB_TABLE_LIMIT ∧ (cause.bySoftware = true → 0x30 ≤ cause.vector.toNat)

instance (cause : Cause) : Decidable (Admitted cause) := inferInstanceAs (Decidable (_ ∧ _))

-- The descriptors of the kernel's code and stack, accessed or not.
structure KernelSegments where
  code : Descriptor
  stack : Descriptor
  isCode : code = (SegmentDescriptor.whole 0xA 0 1).encode ∨ code = (SegmentDescriptor.whole 0xB 0 1).encode
  isStack : stack = (SegmentDescriptor.whole 0x2 0 0).encode ∨ stack = (SegmentDescriptor.whole 0x3 0 0).encode

section segments
variable (g : KernelSegments)

theorem KernelSegments.code_entered : g.code.code = true ∧ g.code.present = true ∧ g.code.dpl = 0 ∧
    g.code.conforming = false ∧ g.code.limit = 2^32 - 1 ∧ g.code.flat = true := by
  rcases g.isCode with same | same <;> rw [same] <;> decide

theorem KernelSegments.stack_entered : g.stack.writable = true ∧ g.stack.present = true ∧ g.stack.dpl = 0 ∧
    g.stack.expandDown = false ∧ g.stack.limit = 2^32 - 1 ∧ g.stack.flat = true := by
  rcases g.isStack with same | same <;> rw [same] <;> decide

end segments

-- What the processor then finds there.
structure Ready (image : Image) (ebp : Word) (g : KernelSegments) (c : SystemRegisters) (m : Memory) : Prop where
  segments : c.gdtr.limit = 255
  gates : c.idtr.limit = 2047
  task : c.tr.limit = 104
  gate : ∀ n : InterruptVector, descriptor m (c.idtr.base + BitVec.ofNat 32 (8 * n.toNat)) = (gateOf image n).encode
  code : descriptor m (c.gdtr.base + BitVec.ofNat 32 (8 * 1)) = g.code
  data : descriptor m (c.gdtr.base + BitVec.ofNat 32 (8 * 2)) = g.stack
  esp0 : load m (c.tr.base + BitVec.ofNat 32 (8 * 0 + 4)) = ebp + 8
  ss0 : (load m (c.tr.base + BitVec.ofNat 32 (8 * 0 + 8))).truncate 16 = GDT_KERNEL_DATA_SEGMENT_SELECTOR

theorem ready {image : Image} {ebp : Word} {c : SystemRegisters} {t : Tables} {m : Memory}
    (booted : kernel_setup image ebp = some (c,t)) (placed : Placed m image t) : ∃ g, Ready image ebp g c m := by
  obtain ⟨gdt,same,kept⟩ := kernel_setup_tables image ebp
  cases same.symm.trans booted
  have found (i : Fin GDT_MAX_ENTRY_COUNT) (other : i ≠ 5) : (global_descriptor_table i).FoundAs
      (descriptor m (image.global_descriptor_table + BitVec.ofNat 32 (8 * i.val))) := by
    rw [← kept i other]
    exact placed.gdt i
  let g : KernelSegments := {
    code := descriptor m (image.global_descriptor_table + BitVec.ofNat 32 (8 * 1))
    stack := descriptor m (image.global_descriptor_table + BitVec.ofNat 32 (8 * 2))
    isCode := (found 1 (by decide)).imp_right And.right
    isStack := (found 2 (by decide)).imp_right And.right}
  exact ⟨g,{
    segments := rfl
    gates := rfl
    task := rfl
    gate := placed.idt
    code := rfl
    data := rfl
    esp0 := placed.esp0
    ss0 := congrArg (BitVec.truncate 16) placed.ss0}⟩

section ready
variable {image : Image} {ebp : Word} {g : KernelSegments} {c : SystemRegisters} {m : Memory} (ready : Ready image ebp g c m)
  (cause : Cause)
include ready

theorem gateFor_process : gateFor c m 3 cause =
    if Admitted cause then .ok (gateOf image cause.vector).encode
    else .error ⟨GENERAL_PROTECTION,gateError cause.vector + cause.EXT⟩ := by
  have within : ¬ c.idtr.limit.toNat < 8 * cause.vector.toNat + 7 := by
    have limit : c.idtr.limit.toNat = 2047 := congrArg BitVec.toNat ready.gates
    omega
  unfold gateFor
  simp only [ready.gate,within,false_or]
  by_cases inside : cause.vector.toNat < ISR_STUB_TABLE_LIMIT
  · obtain ⟨kind,present,dpl,_,_⟩ := gateOf_inside image inside
    have isGate : (gateOf image cause.vector).encode.gate = true := by
      rw [Descriptor.gate,kind]
      rfl
    simp only [isGate,present,dpl,Bool.not_true,Bool.false_eq_true,if_false]
    by_cases software : cause.bySoftware = true
    · have internal : cause.EXT = 0 := by rw [Cause.EXT,if_pos software]
      by_cases high : 0x30 ≤ cause.vector.toNat
      · rw [if_pos (show Admitted cause from ⟨inside,fun _ => high⟩),if_neg]
        simp [high]
      · rw [if_neg (fun admitted : Admitted cause => high (admitted.2 software)),internal,add_zero,if_pos]
        simp [high,software]
    · rw [if_pos (show Admitted cause from ⟨inside,fun by_ => absurd by_ software⟩),if_neg (fun both => software both.1)]
  · have isGate : (gateOf image cause.vector).encode.gate = false := by
      rw [gateOf_outside image inside]
      decide
    simp [isGate,if_neg (fun admitted : Admitted cause => inside admitted.1)]

theorem codeFor_kernel : codeFor c m 3 cause GDT_KERNEL_CODE_SEGMENT_SELECTOR = .ok g.code := by
  have found : segmentDescriptor c m GDT_KERNEL_CODE_SEGMENT_SELECTOR = some g.code := by
    rw [segmentDescriptor,ready.segments,if_neg (by decide)]
    exact congrArg some ready.code
  obtain ⟨code,present,level,_⟩ := g.code_entered
  rw [codeFor,if_neg (by decide),found]
  simp [code,present,level]

theorem stackFor_kernel {bytes : Nat} (space : bytes ≤ (ebp + 8).toNat) : stackFor c m cause 0 bytes =
    .ok (g.stack,GDT_KERNEL_DATA_SEGMENT_SELECTOR,ebp + 8) := by
  have found : segmentDescriptor c m GDT_KERNEL_DATA_SEGMENT_SELECTOR = some g.stack := by
    rw [segmentDescriptor,ready.segments,if_neg (by decide)]
    exact congrArg some ready.data
  obtain ⟨writable,present,level,up,limit,_⟩ := g.stack_entered
  have room : g.stack.room (ebp + 8) bytes = true := by
    have bound := (ebp + 8).isLt
    rw [Descriptor.room,up,if_neg Bool.false_ne_true,limit,decide_eq_true_iff]
    exact ⟨space,by omega⟩
  unfold stackFor
  simp only [ready.esp0,ready.ss0,ready.task]
  rw [if_neg (by decide),if_neg (by decide),found]
  dsimp only
  rw [writable,present,level,room,if_neg (by decide),if_neg (by decide)]

end ready

end Sosis.Gates
