import Sosis.ByteRecords

-- A part of the IA-32 processor in protected mode: what an interrupt stub and the
-- return from it use. Instructions run over any memory that can load and store
-- doublewords, so that the same code can be followed in partial knowledge of it.
namespace Sosis.Ia32
open ByteRecords

abbrev Word := BitVec 32
abbrev Selector := BitVec 16

inductive Reg where
  | edi | esi | ebp | esp | ebx | edx | ecx | eax
deriving DecidableEq

inductive Seg where
  | gs | fs | es | ds
deriving DecidableEq

structure Registers where
  edi : Word
  esi : Word
  ebp : Word
  esp : Word
  ebx : Word
  edx : Word
  ecx : Word
  eax : Word
  gs : Selector
  fs : Selector
  es : Selector
  ds : Selector
  ss : Selector
  cs : Selector
  eflags : Word
  eip : Word

namespace Registers

def get (r : Registers) : Reg → Word
  | .edi => r.edi
  | .esi => r.esi
  | .ebp => r.ebp
  | .esp => r.esp
  | .ebx => r.ebx
  | .edx => r.edx
  | .ecx => r.ecx
  | .eax => r.eax

def set (r : Registers) (v : Word) : Reg → Registers
  | .edi => {r with edi := v}
  | .esi => {r with esi := v}
  | .ebp => {r with ebp := v}
  | .esp => {r with esp := v}
  | .ebx => {r with ebx := v}
  | .edx => {r with edx := v}
  | .ecx => {r with ecx := v}
  | .eax => {r with eax := v}

def getSeg (r : Registers) : Seg → Selector
  | .gs => r.gs
  | .fs => r.fs
  | .es => r.es
  | .ds => r.ds

def setSeg (r : Registers) (v : Selector) : Seg → Registers
  | .gs => {r with gs := v}
  | .fs => {r with fs := v}
  | .es => {r with es := v}
  | .ds => {r with ds := v}

-- The privilege level a selector asks for; that of cs is the current one.
def rpl (s : Selector) : Nat := s.toNat % 4

end Registers

open Registers

def CARRY : Word := 0x1
def PARITY : Word := 0x4
def ADJUST : Word := 0x10
def ZERO : Word := 0x40
def SIGN : Word := 0x80
def OVERFLOW : Word := 0x800

-- The flags iret writes at privilege level 0, and bit 1, which always reads as set.
-- The others but VM are reserved; VM set would be a return to virtual-8086 mode.
def WRITABLE : Word := 0x3D7FD5
def ALWAYS : Word := 0x2
def VIRTUAL_8086 : Word := 0x20000

-- Virtual-8086 and resume flag, nested task, interrupt enable and trap: cleared by
-- an interrupt gate.
def GATE_CLEARED : Word := 0x34300

-- popf at privilege level 0 writes all of these but the resume flag and the virtual
-- interrupt flags.
def POPF_WRITABLE : Word := 0x247FD5

def withFlag (flag : Word) (on : Bool) (eflags : Word) : Word := if on then eflags ||| flag else eflags &&& ~~~flag

def evenParity (v : Word) : Bool := ((List.range 8).countP fun i => v.getLsbD i) % 2 == 0

def resultFlags (v eflags : Word) : Word :=
  withFlag PARITY (evenParity v) (withFlag ZERO (v == 0) (withFlag SIGN v.msb eflags))

def andFlags (v eflags : Word) : Word := withFlag CARRY false (withFlag OVERFLOW false (resultFlags v eflags))

def addFlags (a b eflags : Word) : Word :=
  withFlag CARRY (decide (2^32 ≤ a.toNat + b.toNat))
    (withFlag OVERFLOW (a.msb == b.msb && (a + b).msb != a.msb)
      (withFlag ADJUST (decide (16 ≤ a.toNat % 16 + b.toNat % 16)) (resultFlags (a + b) eflags)))

-- jz skipped jumps over so many of the instructions that follow it.
inductive Instr where
  | push (r : Reg)
  | pushImm (v : Word)
  | pushSeg (s : Seg)
  | pushad
  | pushf
  | pop (r : Reg)
  | popSeg (s : Seg)
  | popad
  | popf
  | mov (r from_ : Reg)
  | movImm (r : Reg) (v : Word)
  | movImm16 (r : Reg) (v : BitVec 16)
  | movSeg (s : Seg) (from_ : Reg)
  | load (r base : Reg) (offset : Word)
  | store (base : Reg) (offset : Word) (from_ : Reg)
  | lea (r base : Reg) (offset : Word)
  | and (r : Reg) (v : Word)
  | add (r : Reg) (v : Word)
  | jz (skipped : Nat)
  | iret

-- A pop is a load after which nothing below the new top is asked for again.
structure MemoryOps (μ : Type u) where
  load : μ → Word → Option Word
  store : μ → Word → Word → Option μ
  pop : μ → Word → Option (Word × μ)

structure State (μ : Type u) where
  regs : Registers
  memory : μ

section machine
variable {μ : Type u} (ops : MemoryOps μ)

def push (v : Word) (s : State μ) : Option (State μ) :=
  (ops.store s.memory (s.regs.esp - 4) v).map fun memory => ⟨{s.regs with esp := s.regs.esp - 4},memory⟩

def pop (s : State μ) : Option (Word × State μ) :=
  (ops.pop s.memory s.regs.esp).map fun (v,memory) => (v,⟨{s.regs with esp := s.regs.esp + 4},memory⟩)

def pushAll : List Word → State μ → Option (State μ)
  | [],s => some s
  | v :: rest,s => (push ops v s).bind (pushAll rest)

-- Into the registers in turn; `none` drops the word.
def popAll : List (Option Reg) → State μ → Option (State μ)
  | [],s => some s
  | r :: rest,s => (pop ops s).bind fun (v,s) => popAll rest (match r with
    | some r => {s with regs := s.regs.set v r}
    | none => s)

-- The return to an outer level also takes the stack of that level. A data segment
-- register that still held an inner segment would be cleared; the code modelled here
-- has loaded all four before.
def iret (s : State μ) : Option (State μ) :=
  (pop ops s).bind fun (eip,s) => (pop ops s).bind fun (cs,s) => (pop ops s).bind fun (eflags,s) =>
    if rpl s.regs.cs ≠ 0 ∨ eflags &&& VIRTUAL_8086 ≠ 0 then none
    else
      let s := {s with regs := {s.regs with
        eip := eip
        cs := cs.truncate 16
        eflags := (eflags &&& WRITABLE) ||| ALWAYS}}
      if rpl (cs.truncate 16) ≠ 0 then (pop ops s).bind fun (esp,s) => (pop ops s).bind fun (ss,s) =>
        some {s with regs := {s.regs with esp := esp,ss := ss.truncate 16}}
      else some s

def step (s : State μ) : Instr → Option (State μ)
  | .push r => push ops (s.regs.get r) s
  | .pushImm v => push ops v s
  | .pushSeg r => push ops ((s.regs.getSeg r).setWidth 32) s
  | .pushad => pushAll ops [s.regs.eax,s.regs.ecx,s.regs.edx,s.regs.ebx,s.regs.esp,s.regs.ebp,s.regs.esi,s.regs.edi] s
  | .pushf => push ops s.regs.eflags s
  | .pop r => popAll ops [some r] s
  | .popSeg r => (pop ops s).map fun (v,s) => {s with regs := s.regs.setSeg (v.truncate 16) r}
  | .popad => popAll ops [some .edi,some .esi,some .ebp,none,some .ebx,some .edx,some .ecx,some .eax] s
  | .popf => (pop ops s).map fun (v,s) =>
      {s with regs := {s.regs with eflags := (v &&& POPF_WRITABLE) ||| (s.regs.eflags &&& VIRTUAL_8086) ||| ALWAYS}}
  | .mov r from_ => some {s with regs := s.regs.set (s.regs.get from_) r}
  | .movImm r v => some {s with regs := s.regs.set v r}
  | .movImm16 r v => some {s with regs := s.regs.set ((s.regs.get r &&& 0xFFFF0000) ||| v.setWidth 32) r}
  | .movSeg r from_ => some {s with regs := s.regs.setSeg ((s.regs.get from_).truncate 16) r}
  | .load r base offset =>
      (ops.load s.memory (s.regs.get base + offset)).map fun v => {s with regs := s.regs.set v r}
  | .store base offset from_ =>
      (ops.store s.memory (s.regs.get base + offset) (s.regs.get from_)).map fun memory => {s with memory := memory}
  | .lea r base offset => some {s with regs := s.regs.set (s.regs.get base + offset) r}
  | .and r v =>
      let result := s.regs.get r &&& v
      some {s with regs := {s.regs.set result r with eflags := andFlags result s.regs.eflags}}
  | .add r v => some {s with regs := {s.regs.set (s.regs.get r + v) r with
      eflags := addFlags (s.regs.get r) v s.regs.eflags}}
  | .jz _ => some s
  | .iret => iret ops s

def skips (r : Registers) : Instr → Nat
  | .jz skipped => if r.eflags &&& ZERO ≠ 0 then skipped else 0
  | _ => 0

-- Code without loops, with so many instructions to jump over first.
def exec : Nat → List Instr → State μ → Option (State μ)
  | _,[],s => some s
  | skipped+1,_ :: rest,s => exec skipped rest s
  | 0,i :: rest,s => (step ops s i).bind (exec (skips s.regs i) rest)

def Instr.jumps : Instr → Bool
  | .jz _ => true
  | _ => false

-- Code without a jump runs before what follows it.
theorem exec_append {code rest : List Instr} {s : State μ} (straight : code.all (!·.jumps) = true) :
    exec ops 0 (code ++ rest) s = (exec ops 0 code s).bind (exec ops 0 rest) := by
  induction code generalizing s with
  | nil => rw [List.nil_append,exec,Option.bind_some]
  | cons i code ih =>
    rw [List.all_cons,Bool.and_eq_true] at straight
    have next (r : Registers) : skips r i = 0 := by
      cases i with
      | jz => cases straight.1
      | _ => rfl
    rw [List.cons_append,exec,exec,next,Option.bind_assoc]
    exact congrArg (Option.bind _) (funext fun s => ih straight.2)

-- An interrupt through a gate of level 0. From an outer level the stack is that of the
-- task state segment, and the interrupted one is pushed on it.
def interrupt (gate ss0 : Selector) (esp0 : Word) (s : State μ) : Option (State μ) :=
  let r := s.regs
  let entered : Registers := {r with cs := gate,eflags := r.eflags &&& ~~~GATE_CLEARED}
  if rpl r.cs ≠ 0 then
    pushAll ops [r.ss.setWidth 32,r.esp,r.eflags,r.cs.setWidth 32,r.eip] ⟨{entered with ss := ss0,esp := esp0},s.memory⟩
  else pushAll ops [r.eflags,r.cs.setWidth 32,r.eip] ⟨entered,s.memory⟩

-- A call by value: the last word of the arguments is pushed first, the address to
-- return to last.
def call (to_ : Word) (arguments : List Word) (s : State μ) : Option (State μ) :=
  pushAll ops (to_ :: arguments).reverse s

end machine

abbrev Memory := Word → Byte

def load (m : Memory) (a : Word) : Word := le32 (fun k => m (a + BitVec.ofNat 32 k)) 0

def store (m : Memory) (a v : Word) : Memory := fun x => if (x - a).toNat < 4 then byteOf v (x - a).toNat else m x

def memoryOps : MemoryOps Memory where
  load m a := some (load m a)
  store m a v := some (store m a v)
  pop m a := some (load m a,m)

theorem load_store_same (m : Memory) (a v : Word) : load (store m a v) a = v := by
  have byte {k : Nat} (inside : k < 4) : store m a v (a + BitVec.ofNat 32 k) = byteOf v k := by
    have offset : (a + BitVec.ofNat 32 k - a).toNat = k := by
      rw [add_sub_cancel_left,BitVec.toNat_ofNat]
      omega
    simp only [store,offset,if_pos inside]
  exact le32_exact v _ 0 (byte (by omega)) (byte (by omega)) (byte (by omega)) (byte (by omega))

theorem load_store_apart (m : Memory) {a b : Word} (v : Word) (apart : ∀ k < 4, 4 ≤ (b + BitVec.ofNat 32 k - a).toNat) :
    load (store m a v) b = load m b := by
  have byte {k : Nat} (inside : k < 4) : store m a v (b + BitVec.ofNat 32 k) = m (b + BitVec.ofNat 32 k) :=
    if_neg (Nat.not_lt.mpr (apart k inside))
  simp only [load,le32,Nat.zero_add]
  rw [byte (by omega),byte (by omega),byte (by omega),byte (by omega)]

end Sosis.Ia32
