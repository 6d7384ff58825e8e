import Mathlib.Data.BitVec
import Mathlib.Logic.Function.Basic

-- Two 8259A interrupt controllers, the second on line 2 of the first: their initialization
-- and operation words, and what the processor is told when it acknowledges a request. Lines
-- are edge-triggered; rotating priorities and the special modes are not followed.
namespace Sosis.Pic8259

abbrev Byte := BitVec 8
abbrev Line := BitVec 3

def lines : List Line := [0,1,2,3,4,5,6,7]

-- The word that the data port takes next.
inductive Phase where
  | icw2 | icw3 | icw4 | operation
deriving DecidableEq

structure Pic where
  irr : Line → Bool
  isr : Line → Bool
  imr : Byte
  base : Byte
  autoEoi : Bool
  phase : Phase
  single : Bool
  word4 : Bool

namespace Pic

-- The first line that asks and is not masked, or is in service.
def highest (p : Pic) : Option Line := lines.find? fun i => (p.irr i && !p.imr.getLsbD i.toNat) || p.isr i

def request (p : Pic) : Option Line :=
  if p.phase = .operation then p.highest.filter fun i => !p.isr i else none

def serve (p : Pic) (i : Line) : Pic :=
  {p with
    irr := Function.update p.irr i false
    isr := if p.autoEoi then p.isr else Function.update p.isr i true}

def endOfInterrupt (p : Pic) : Pic :=
  match lines.find? p.isr with
  | none => p
  | some i => {p with isr := Function.update p.isr i false}

def command (p : Pic) (v : Byte) : Pic :=
  if v.getLsbD 4 then
    {p with
      irr := fun _ => false
      isr := fun _ => false
      imr := 0
      autoEoi := false
      phase := .icw2
      single := v.getLsbD 1
      word4 := v.getLsbD 0}
  else if v.getLsbD 3 then p
  else if v.extractLsb' 5 3 = 0b001 then p.endOfInterrupt
  else if v.extractLsb' 5 3 = 0b011 then {p with isr := Function.update p.isr (v.extractLsb' 0 3) false}
  else p

def data (p : Pic) (v : Byte) : Pic :=
  match p.phase with
  | .icw2 => {p with
      base := v &&& 0xF8
      phase := if !p.single then .icw3 else if p.word4 then .icw4 else .operation}
  | .icw3 => {p with phase := if p.word4 then .icw4 else .operation}
  | .icw4 => {p with
      autoEoi := v.getLsbD 1
      phase := .operation}
  | .operation => {p with imr := v}

def pending (p : Pic) (i : Line) : Bool := p.irr i && !p.imr.getLsbD i.toNat

end Pic

structure Pics where
  master : Pic
  slave : Pic

-- A line of one of the two goes up or down.
structure Signal where
  ofSlave : Bool
  line : Line
  level : Bool

namespace Pics

def signal (p : Pics) (s : Signal) : Pics :=
  if s.ofSlave then {p with slave := {p.slave with irr := Function.update p.slave.irr s.line s.level}}
  else {p with master := {p.master with irr := Function.update p.master.irr s.line s.level}}

def wired (p : Pics) : Pic := {p.master with irr := Function.update p.master.irr 2 p.slave.request.isSome}

-- Line 7 stands for a request that is gone by now; it is not in service then.
def acknowledge (p : Pics) : Byte × Pics :=
  match p.wired.request with
  | none => (p.master.base ||| 7,p)
  | some i =>
      if i = 2 then match p.slave.request with
        | none => (p.slave.base ||| 7,{p with master := p.master.serve 2})
        | some j => (p.slave.base ||| j.setWidth 8,⟨p.master.serve 2,p.slave.serve j⟩)
      else (p.master.base ||| i.setWidth 8,{p with master := p.master.serve i})

end Pics

-- Set up, with nothing in service.
structure Pic.Idle (p : Pic) (base : Byte) : Prop where
  phase : p.phase = .operation
  base : p.base = base
  isr : p.isr = fun _ => false
  eoi : p.autoEoi = false

section idle
variable {p : Pic} {base : Byte}

theorem Pic.Idle.request (idle : p.Idle base) : p.request = lines.find? p.pending := by
  have alike : (fun i => (p.irr i && !p.imr.getLsbD i.toNat) || p.isr i) = p.pending := by
    funext i
    rw [idle.isr,Bool.or_false,Pic.pending]
  rw [Pic.request,if_pos idle.phase,Pic.highest,alike,idle.isr]
  cases lines.find? p.pending with
  | none => rfl
  | some i => rfl

theorem Pic.Idle.endOfInterrupt (idle : p.Idle base) : p.endOfInterrupt = p := by
  have none_ : lines.find? p.isr = none := by
    rw [idle.isr]
    exact List.find?_eq_none.mpr fun _ _ => Bool.false_ne_true
  rw [Pic.endOfInterrupt,none_]

-- What was served is at its end with the next end of interrupt.
theorem Pic.Idle.serve_end (idle : p.Idle base) (i : Line) :
    (p.serve i).endOfInterrupt = {p with irr := Function.update p.irr i false} := by
  have served : (p.serve i).isr = Function.update (fun _ => false) i true := by
    rw [Pic.serve,idle.eoi,idle.isr]
    rfl
  have found : ∀ i : Line, lines.find? (Function.update (fun _ => false) i true) = some i := by decide
  rw [Pic.endOfInterrupt,served,found i]
  dsimp only
  rw [Function.update_idem,Function.update_eq_self_iff.mpr rfl,← idle.isr]
  rfl

end idle

-- The controllers without the state of their lines.
def Pic.quiet (p : Pic) : Pic := {p with irr := fun _ => false}

def Pics.quiet (p : Pics) : Pics := ⟨p.master.quiet,p.slave.quiet⟩

theorem Pics.signal_quiet (p : Pics) (s : Signal) : (p.signal s).quiet = p.quiet := by
  unfold signal
  split
  · rfl
  · rfl

theorem Pics.signals_quiet (p : Pics) (signals : List Signal) : (signals.foldl Pics.signal p).quiet = p.quiet := by
  induction signals generalizing p with
  | nil => rfl
  | cons s rest ih => exact (ih _).trans (p.signal_quiet s)

theorem Pic.endOfInterrupt_quiet (p : Pic) : p.endOfInterrupt.quiet = p.quiet.endOfInterrupt.quiet := by
  unfold endOfInterrupt
  rw [show p.quiet.isr = p.isr from rfl]
  cases lines.find? p.isr with
  | none => rfl
  | some i => rfl

theorem Pic.command_quiet (p : Pic) (v : Byte) : (p.command v).quiet = (p.quiet.command v).quiet := by
  unfold command
  split
  · rfl
  · split
    · rfl
    · split
      · exact p.endOfInterrupt_quiet
      · split
        · rfl
        · rfl

theorem Pic.data_quiet (p : Pic) (v : Byte) : (p.data v).quiet = (p.quiet.data v).quiet := by
  unfold data
  rw [show p.quiet.phase = p.phase from rfl]
  cases p.phase with
  | icw2 => rfl
  | icw3 => rfl
  | icw4 => rfl
  | operation => rfl

end Sosis.Pic8259
