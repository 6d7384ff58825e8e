import Sosis.Ia32

-- The way into an interrupt handler of an inner privilege level: what the processor reads in
-- the descriptor tables and the task state segment, and what it checks there. There is no
-- local descriptor table, and segments other than flat 32-bit ones are not followed.
namespace Sosis.Ia32
open Registers

abbrev Descriptor := BitVec 64
abbrev InterruptVector := BitVec 8

namespace Descriptor

def present (d : Descriptor) : Bool := d.getLsbD 47

def dpl (d : Descriptor) : Nat := (d.extractLsb' 45 2).toNat

-- The type with the bit in front of it that tells segments from what belongs to the system.
def kind (d : Descriptor) : BitVec 5 := d.extractLsb' 40 5

def base (d : Descriptor) : Word := d.extractLsb' 56 8 ++ (d.extractLsb' 32 8 ++ d.extractLsb' 16 16)

def limit (d : Descriptor) : Nat :=
  let count := (d.extractLsb' 48 4 ++ d.extractLsb' 0 16).toNat
  if d.getLsbD 55 then 4096 * count + 4095 else count

def code (d : Descriptor) : Bool := d.kind &&& 0b11000 == 0b11000

def conforming (d : Descriptor) : Bool := d.code && d.kind.getLsbD 2

def writable (d : Descriptor) : Bool := d.kind &&& 0b11010 == 0b10010

def expandDown (d : Descriptor) : Bool := d.kind.getLsbD 2

def flat (d : Descriptor) : Bool := d.base == 0 && d.limit == 2^32 - 1 && d.getLsbD 54

def room (d : Descriptor) (top : Word) (bytes : Nat) : Bool :=
  if d.expandDown then decide (d.limit + bytes < top.toNat)
  else decide (bytes ≤ top.toNat ∧ top.toNat ≤ d.limit + 1)

def selector (d : Descriptor) : Selector := d.extractLsb' 16 16

def offset (d : Descriptor) : Word := d.extractLsb' 48 16 ++ d.extractLsb' 0 16

def gate (d : Descriptor) : Bool := d.kind ∈ [0b00101,0b00110,0b00111,0b01110,0b01111]

def interruptGate (d : Descriptor) : Bool := d.kind == 0b01110

end Descriptor

structure TableRegister where
  limit : BitVec 16
  base : Word

structure TaskRegister where
  selector : Selector
  base : Word
  limit : Nat

structure SystemRegisters where
  gdtr : TableRegister
  idtr : TableRegister
  tr : TaskRegister

-- int n, int3 or into of so many bytes, a line of the interrupt controller, or an
-- exception.
inductive Cause where
  | software (vector : InterruptVector) (length : Word)
  | external (vector : InterruptVector)
  | exception (vector : InterruptVector) (error_code : Option Word)

namespace Cause

def vector : Cause → InterruptVector
  | .software vector _ | .external vector | .exception vector _ => vector

def bySoftware : Cause → Bool
  | .software _ _ => true
  | _ => false

def byException : Cause → Bool
  | .exception _ _ => true
  | _ => false

def EXT (cause : Cause) : Word := if cause.bySoftware then 0 else 1

def error_code : Cause → Option Word
  | .exception _ error_code => error_code
  | _ => none

def resume (eip : Word) : Cause → Word
  | .software _ length => eip + length
  | _ => eip

end Cause

def INVALID_TSS : InterruptVector := 10
def NOT_PRESENT : InterruptVector := 11
def STACK_FAULT : InterruptVector := 12
def GENERAL_PROTECTION : InterruptVector := 13

structure Fault where
  vector : InterruptVector
  error_code : Word
deriving DecidableEq

def Fault.cause (fault : Fault) : Cause := .exception fault.vector (some fault.error_code)

def gateError (vector : InterruptVector) : Word := 8 * vector.setWidth 32 + 2

def selectorError (s : Selector) : Word := s.setWidth 32 &&& 0xFFFC

structure Entry where
  gate : Descriptor
  code : Descriptor
  stack : Descriptor
  ss : Selector
  esp : Word

def Entry.followed (e : Entry) : Bool := e.gate.interruptGate && e.code.flat && e.stack.flat

section delivery
variable (c : SystemRegisters) (m : Memory) (cpl : Nat) (cause : Cause)

def descriptor (a : Word) : Descriptor := load m (a + 4) ++ load m a

def segmentDescriptor (s : Selector) : Option Descriptor :=
  if s &&& 4 ≠ 0 ∨ c.gdtr.limit.toNat < 8 * (s.toNat / 8) + 7 then none
  else some (descriptor m (c.gdtr.base + BitVec.ofNat 32 (8 * (s.toNat / 8))))

def gateFor : Except Fault Descriptor :=
  let gate := descriptor m (c.idtr.base + BitVec.ofNat 32 (8 * cause.vector.toNat))
  if c.idtr.limit.toNat < 8 * cause.vector.toNat + 7 ∨ !gate.gate then
    .error ⟨GENERAL_PROTECTION,gateError cause.vector + cause.EXT⟩
  else if cause.bySoftware ∧ gate.dpl < cpl then .error ⟨GENERAL_PROTECTION,gateError cause.vector⟩
  else if !gate.present then .error ⟨NOT_PRESENT,gateError cause.vector + cause.EXT⟩
  else .ok gate

def codeFor (s : Selector) : Except Fault Descriptor :=
  if s &&& 0xFFFC = 0 then .error ⟨GENERAL_PROTECTION,cause.EXT⟩
  else match segmentDescriptor c m s with
    | none => .error ⟨GENERAL_PROTECTION,selectorError s + cause.EXT⟩
    | some code =>
        if !code.code ∨ cpl < code.dpl then .error ⟨GENERAL_PROTECTION,selectorError s + cause.EXT⟩
        else if !code.present then .error ⟨NOT_PRESENT,selectorError s + cause.EXT⟩
        else .ok code

def stackFor (level : Nat) (bytes : Nat) : Except Fault (Descriptor × Selector × Word) :=
  let esp := load m (c.tr.base + BitVec.ofNat 32 (8 * level + 4))
  let ss : Selector := (load m (c.tr.base + BitVec.ofNat 32 (8 * level + 8))).truncate 16
  if c.tr.limit < 8 * level + 4 + 5 then .error ⟨INVALID_TSS,selectorError c.tr.selector + cause.EXT⟩
  else if ss &&& 0xFFFC = 0 then .error ⟨INVALID_TSS,cause.EXT⟩
  else match segmentDescriptor c m ss with
    | none => .error ⟨INVALID_TSS,selectorError ss + cause.EXT⟩
    | some stack =>
        if rpl ss ≠ level ∨ stack.dpl ≠ level ∨ !stack.writable then .error ⟨INVALID_TSS,selectorError ss + cause.EXT⟩
        else if !stack.present ∨ !stack.room esp bytes then .error ⟨STACK_FAULT,selectorError ss + cause.EXT⟩
        else .ok (stack,ss,esp)

-- Into an inner level. A handler of the level that is interrupted goes on on its stack and
-- is not followed.
def entryFor : Option (Except Fault Entry) :=
  match gateFor c m cpl cause with
  | .error fault => some (.error fault)
  | .ok gate => match codeFor c m cpl cause gate.selector with
    | .error fault => some (.error fault)
    | .ok code =>
      if code.conforming ∨ cpl ≤ code.dpl then none
      else match stackFor c m cause code.dpl (if cause.error_code.isSome then 24 else 20) with
        | .error fault => some (.error fault)
        | .ok (stack,ss,esp) =>
            if code.limit < gate.offset.toNat then some (.error ⟨GENERAL_PROTECTION,cause.EXT⟩)
            else some (.ok ⟨gate,code,stack,ss,esp⟩)

end delivery

-- The stack, the return address and the flags of the program are pushed, and the error code
-- of an exception that has one.
def enter (ops : MemoryOps μ) (e : Entry) (return_ eflags : Word) (error_code : Option Word) (s : State μ) :
    Option (State μ) :=
  let r := s.regs
  if e.followed then
    pushAll ops ([r.ss.setWidth 32,r.esp,eflags,r.cs.setWidth 32,return_] ++ error_code.toList)
      ⟨{r with
        cs := (e.gate.selector &&& 0xFFFC) ||| BitVec.ofNat 16 e.code.dpl
        eip := e.gate.offset
        eflags := r.eflags &&& ~~~GATE_CLEARED
        ss := e.ss
        esp := e.esp},s.memory⟩
  else none

-- Set in the flags a fault pushes, and in those of a string instruction that is interrupted.
def RESUME : Word := 0x10000

def pushedFlags (resume : Bool) (eflags : Word) : Word := if resume then eflags ||| RESUME else eflags

-- A fault on the way to a handler is an exception in its turn. One on the way to the handler
-- of an exception is a double fault, which is not followed.
def deliver (c : SystemRegisters) (cause : Cause) (resume : Bool) (s : State Memory) : Option (State Memory) :=
  (entryFor c s.memory (rpl s.regs.cs) cause).bind fun
  | .ok e => enter memoryOps e (cause.resume s.regs.eip) (pushedFlags resume s.regs.eflags) cause.error_code s
  | .error fault =>
      if cause.byException then none
      else (entryFor c s.memory (rpl s.regs.cs) fault.cause).bind fun
        | .ok e => enter memoryOps e s.regs.eip (pushedFlags true s.regs.eflags) (some fault.error_code) s
        | .error _ => none

end Sosis.Ia32
