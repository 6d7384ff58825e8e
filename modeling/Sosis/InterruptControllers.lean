import Mathlib.Tactic.IntervalCases
import Sosis.Pic8259
import Sosis.TransitionRuns

-- The interrupt controllers under interrupt.c: pic_remap, the two activations, and the
-- acknowledgement that main_interrupt_handler sends whatever it was called for.
namespace Sosis.Controllers
open Pic8259 TransitionRuns

abbrev Port := BitVec 16

def PIC1_OFFSET : Byte := 0x20
def PIC2_OFFSET : Byte := 0x28
def PIC1_COMMAND : Port := 0x20
def PIC1_DATA : Port := 0x21
def PIC2_COMMAND : Port := 0xA0
def PIC2_DATA : Port := 0xA1
def PIC_ACK : Byte := 0x20
def PIC_DISABLE_ALL_MASK : Byte := 0xFF
def ICW1_ICW4 : Byte := 0x01
def ICW1_INIT : Byte := 0x10
def ICW4_8086 : Byte := 0x01
def IRQ_TIMER : Nat := 0
def IRQ_KEYBOARD : Nat := 1

def PIT_TIMER_COUNTER : BitVec 32 := 1193182 / 1000
def PIT_COMMAND_REGISTER_PIO : Port := 0x43
def PIT_COMMAND_VALUE : Byte := ((0b011 : Byte) <<< 1) ||| ((0b11 : Byte) <<< 4)
def PIT_CHANNEL_0_DATA_PIO : Port := 0x40

-- The other ports belong to other devices.
def out (port : Port) (data : Byte) (p : Pics) : Pics :=
  if port = PIC1_COMMAND then {p with master := p.master.command data}
  else if port = PIC1_DATA then {p with master := p.master.data data}
  else if port = PIC2_COMMAND then {p with slave := p.slave.command data}
  else if port = PIC2_DATA then {p with slave := p.slave.data data}
  else p

def io_wait : Port × Byte := (0x80,0)

def pic_remap : List (Port × Byte) := [
  (PIC1_COMMAND,ICW1_INIT ||| ICW1_ICW4),
  io_wait,
  (PIC2_COMMAND,ICW1_INIT ||| ICW1_ICW4),
  io_wait,
  (PIC1_DATA,PIC1_OFFSET),
  io_wait,
  (PIC2_DATA,PIC2_OFFSET),
  io_wait,
  (PIC1_DATA,0b0100),
  io_wait,
  (PIC2_DATA,0b0010),
  io_wait,
  (PIC1_DATA,ICW4_8086),
  io_wait,
  (PIC2_DATA,ICW4_8086),
  io_wait,
  (PIC1_DATA,PIC_DISABLE_ALL_MASK),
  (PIC2_DATA,PIC_DISABLE_ALL_MASK)]

-- Each store with what the devices do before it.
def outs (stores : List (List Signal × Port × Byte)) (p : Pics) : Pics :=
  stores.foldl (fun p store => out store.2.1 store.2.2 (store.1.foldl Pics.signal p)) p

def pic_ack (irq : Byte) (p : Pics) : Pics :=
  out PIC1_COMMAND PIC_ACK (if irq ≥ 8 then out PIC2_COMMAND PIC_ACK p else p)

def activate_keyboard_interrupt (p : Pics) : Pics := out PIC1_DATA (p.master.imr &&& ~~~((1 : Byte) <<< IRQ_KEYBOARD)) p

def activate_timer_interrupt (p : Pics) : Pics :=
  let p := out PIT_COMMAND_REGISTER_PIO PIT_COMMAND_VALUE p
  let p := out PIT_CHANNEL_0_DATA_PIO ((PIT_TIMER_COUNTER &&& 0xFF).truncate 8) p
  let p := out PIT_CHANNEL_0_DATA_PIO (((PIT_TIMER_COUNTER >>> 8) &&& 0xFF).truncate 8) p
  out PIC1_DATA (p.master.imr &&& ~~~((1 : Byte) <<< IRQ_TIMER)) p

-- The vector the processor is told, and the controllers when the handler is through: it
-- acknowledges first and touches no other port of theirs.
def interrupt (p : Pics) : Byte × Pics := (p.acknowledge.1,pic_ack p.acknowledge.1 p.acknowledge.2)

-- trap is an exception or a system call: its handler acknowledges its number just the same.
inductive ControllerAction where
  | signal (s : Signal)
  | interrupt
  | trap (int_number : Byte)
  | keyboard
  | timer

def operate (p : Pics) : ControllerAction → Pics
  | .signal s => p.signal s
  | .interrupt => (interrupt p).2
  | .trap int_number => pic_ack int_number p
  | .keyboard => activate_keyboard_interrupt p
  | .timer => activate_timer_interrupt p

def Next (p : Pics) (x : ControllerAction) (p' : Pics) : Prop := operate p x = p'

structure Calm (p : Pics) : Prop where
  master : p.master.Idle PIC1_OFFSET
  slave : p.slave.Idle PIC2_OFFSET
  masked : ∀ i : Line, 2 ≤ i.toNat → p.master.imr.getLsbD i.toNat = true
  off : p.slave.imr = PIC_DISABLE_ALL_MASK

def Pics.withdraw (p : Pics) (i : Line) : Pics := {p with master := {p.master with irr := Function.update p.master.irr i false}}

theorem out_quiet (port : Port) (data : Byte) (p : Pics) : (out port data p).quiet = (out port data p.quiet).quiet := by
  unfold out
  split
  · exact congrArg (Pics.mk · p.slave.quiet) (p.master.command_quiet data)
  · split
    · exact congrArg (Pics.mk · p.slave.quiet) (p.master.data_quiet data)
    · split
      · exact congrArg (Pics.mk p.master.quiet) (p.slave.command_quiet data)
      · split
        · exact congrArg (Pics.mk p.master.quiet) (p.slave.data_quiet data)
        · rfl

-- The devices change nothing that the stores set up.
theorem outs_quiet (stores : List (List Signal × Port × Byte)) {p q : Pics} (same : p.quiet = q.quiet) :
    (outs stores p).quiet = (outs (stores.map fun store => ([],store.2)) q).quiet := by
  induction stores generalizing p q with
  | nil => exact same
  | cons store rest ih =>
    refine ih ?_
    rw [out_quiet,Pics.signals_quiet,same]
    exact (out_quiet _ _ _).symm

theorem remapped (p : Pics) : outs (pic_remap.map fun store => ([],store)) p =
    ⟨⟨fun _ => false,fun _ => false,PIC_DISABLE_ALL_MASK,PIC1_OFFSET,false,.operation,false,true⟩,
      ⟨fun _ => false,fun _ => false,PIC_DISABLE_ALL_MASK,PIC2_OFFSET,false,.operation,false,true⟩⟩ := rfl

theorem pic_remap_calm {stores : List (List Signal × Port × Byte)} (set_ : stores.map Prod.snd = pic_remap) (p : Pics) :
    Calm (outs stores p) := by
  have plain : stores.map (fun store => (([] : List Signal),store.2)) = pic_remap.map fun store => ([],store) := by
    rw [← set_,List.map_map]
    rfl
  have quiet := outs_quiet stores (rfl : p.quiet = p.quiet)
  rw [plain,remapped] at quiet
  have master := congrArg Pics.master quiet
  have slave := congrArg Pics.slave quiet
  have mask : (outs stores p).master.imr = PIC_DISABLE_ALL_MASK := congrArg Pic.imr master
  refine ⟨⟨congrArg Pic.phase master,congrArg Pic.base master,congrArg Pic.isr master,congrArg Pic.autoEoi master⟩,
    ⟨congrArg Pic.phase slave,congrArg Pic.base slave,congrArg Pic.isr slave,congrArg Pic.autoEoi slave⟩,fun i _ => ?_,
    congrArg Pic.imr slave⟩
  rw [mask]
  revert i
  decide

section calm
variable {p : Pics} (calm : Calm p)
include calm

theorem Calm.wired_idle : p.wired.Idle PIC1_OFFSET :=
  ⟨calm.master.phase,calm.master.base,calm.master.isr,calm.master.eoi⟩

theorem Calm.request : p.wired.request =
    if p.master.pending 0 then some 0 else if p.master.pending 1 then some 1 else none := by
  have low {i : Line} (small : i.toNat < 2) : p.wired.pending i = p.master.pending i := by
    have other : i ≠ 2 := by
      rintro rfl
      exact absurd small (by decide)
    simp only [Pics.wired,Pic.pending,Function.update_of_ne other]
  have high {i : Line} (large : 2 ≤ i.toNat) : p.wired.pending i = false := by
    have mask : p.wired.imr.getLsbD i.toNat = true := calm.masked i large
    rw [Pic.pending,mask,Bool.not_true,Bool.and_false]
  rw [calm.wired_idle.request,lines]
  simp only [List.find?_cons,List.find?_nil,low (i := 0) (by decide),low (i := 1) (by decide),high (i := 2) (by decide),
    high (i := 3) (by decide),high (i := 4) (by decide),high (i := 5) (by decide),high (i := 6) (by decide),
    high (i := 7) (by decide)]
  cases p.master.pending 0 <;> cases p.master.pending 1 <;> rfl

theorem Calm.pic_ack (irq : Byte) : pic_ack irq p = p := by
  have slave : out PIC2_COMMAND PIC_ACK p = {p with slave := p.slave.endOfInterrupt} := rfl
  have master (q : Pics) : out PIC1_COMMAND PIC_ACK q = {q with master := q.master.endOfInterrupt} := rfl
  unfold Controllers.pic_ack
  rw [slave,calm.slave.endOfInterrupt,ite_self,master,calm.master.endOfInterrupt]

theorem Calm.served (i : Line) (vector : Byte) (large : vector ≥ 8) :
    Controllers.pic_ack vector {p with master := p.master.serve i} = Pics.withdraw p i := by
  have slave (q : Pics) : out PIC2_COMMAND PIC_ACK q = {q with slave := q.slave.endOfInterrupt} := rfl
  have master (q : Pics) : out PIC1_COMMAND PIC_ACK q = {q with master := q.master.endOfInterrupt} := rfl
  unfold Controllers.pic_ack
  rw [if_pos large,slave,master]
  dsimp only
  rw [calm.slave.endOfInterrupt,calm.master.serve_end]
  rfl

-- The timer goes before the keyboard, nothing else is delivered, and what is handled is
-- taken off the requests.
theorem Calm.interrupt : interrupt p =
    if p.master.pending 0 then (0x20,Pics.withdraw p 0) else if p.master.pending 1 then (0x21,Pics.withdraw p 1)
    else (0x27,p) := by
  unfold Controllers.interrupt Pics.acknowledge
  rw [calm.request]
  by_cases timer : p.master.pending 0 = true
  · rw [if_pos timer,if_pos timer]
    dsimp only
    rw [if_neg (by decide),calm.master.base]
    have large : PIC1_OFFSET ||| (0 : Line).setWidth 8 ≥ 8 := by decide
    exact Prod.ext rfl (calm.served 0 _ large)
  · rw [if_neg timer,if_neg timer]
    by_cases keyboard : p.master.pending 1 = true
    · rw [if_pos keyboard,if_pos keyboard]
      dsimp only
      rw [if_neg (by decide),calm.master.base]
      have large : PIC1_OFFSET ||| (1 : Line).setWidth 8 ≥ 8 := by decide
      exact Prod.ext rfl (calm.served 1 _ large)
    · rw [if_neg keyboard,if_neg keyboard]
      dsimp only
      rw [calm.master.base]
      exact Prod.ext rfl (calm.pic_ack _)

theorem Calm.withdraw (i : Line) : Calm (Pics.withdraw p i) :=
  ⟨⟨calm.master.phase,calm.master.base,calm.master.isr,calm.master.eoi⟩,calm.slave,calm.masked,calm.off⟩

theorem Calm.unmask {mask : Byte} (keeps : ∀ i : Line, 2 ≤ i.toNat → mask.getLsbD i.toNat = true) :
    Calm (out PIC1_DATA (p.master.imr &&& mask) p) := by
  have stored : out PIC1_DATA (p.master.imr &&& mask) p = {p with master := {p.master with imr := p.master.imr &&& mask}} := by
    have opened : out PIC1_DATA (p.master.imr &&& mask) p = {p with master := p.master.data (p.master.imr &&& mask)} := rfl
    rw [opened,Pic.data]
    simp only [calm.master.phase]
  rw [stored]
  refine ⟨⟨calm.master.phase,calm.master.base,calm.master.isr,calm.master.eoi⟩,calm.slave,fun i large => ?_,calm.off⟩
  change (p.master.imr &&& mask).getLsbD i.toNat = true
  rw [BitVec.getLsbD_and,calm.masked i large,keeps i large]
  rfl

theorem Calm.step (x : ControllerAction) : Calm (operate p x) := by
  cases x with
  | signal s =>
    change Calm (p.signal s)
    rw [Pics.signal]
    split
    · exact ⟨calm.master,⟨calm.slave.phase,calm.slave.base,calm.slave.isr,calm.slave.eoi⟩,calm.masked,calm.off⟩
    · exact ⟨⟨calm.master.phase,calm.master.base,calm.master.isr,calm.master.eoi⟩,calm.slave,calm.masked,calm.off⟩
  | interrupt =>
    rw [operate,calm.interrupt]
    split
    · exact calm.withdraw 0
    · split
      · exact calm.withdraw 1
      · exact calm
  | trap int_number =>
    rw [operate,calm.pic_ack]
    exact calm
  | keyboard => exact calm.unmask (by decide)
  | timer => exact calm.unmask (by decide)

end calm

-- From any state of the controllers, whatever the devices do in between: after pic_remap
-- nothing is left in service, only the timer, the keyboard or a request that is gone by now
-- interrupts, and a handled interrupt takes its own request off and no other.
theorem interrupts_acknowledged {stores : List (List Signal × Port × Byte)} (set_ : stores.map Prod.snd = pic_remap) {p₀ p : Pics}
    (run : Run Next (outs stores p₀) history p) :
    p.master.isr = (fun _ => false) ∧ p.slave.isr = (fun _ => false) ∧
      interrupt p = if p.master.pending 0 then (0x20,Pics.withdraw p 0)
        else if p.master.pending 1 then (0x21,Pics.withdraw p 1) else (0x27,p) := by
  have calm : Calm p := by
    refine Run.invariant (pic_remap_calm set_ p₀) (fun q x q' calm taken => ?_) run
    cases taken
    exact calm.step x
  exact ⟨calm.master.isr,calm.slave.isr,calm.interrupt⟩

-- What the controllers may hold when the machine is turned on.
def turnedOn : Pics :=
  ⟨⟨fun _ => true,fun _ => true,0x5A,0x08,true,.icw3,true,false⟩,⟨fun _ => false,fun _ => true,0,0x70,false,.operation,true,true⟩⟩

theorem run_operates (p : Pics) (actions : List ControllerAction) :
    ∃ history, Run Next p history (actions.foldl operate p) := by
  induction actions generalizing p with
  | nil => exact ⟨[],.nil⟩
  | cons x rest ih =>
    obtain ⟨history,run⟩ := ih (operate p x)
    exact ⟨_,Run.cons rfl run⟩

-- Both lines are up while the controllers are set up. The keyboard asks during a system call,
-- and the timer before the keyboard is handled.
def bothLines : List ControllerAction := [.keyboard,.timer,.signal ⟨false,1,true⟩,.trap 0x30,.signal ⟨false,0,true⟩]

def bothUp : List (List Signal × Port × Byte) := pic_remap.map fun store => ([⟨false,0,true⟩,⟨false,1,true⟩],store)

theorem interrupts_acknowledged_both : ∃ history p, Run Next (outs bothUp turnedOn) history p ∧
    interrupt p = (0x20,Pics.withdraw p 0) ∧ (interrupt (Pics.withdraw p 0)).1 = 0x21 := by
  obtain ⟨history,run⟩ := run_operates (outs bothUp turnedOn) bothLines
  have acknowledged := (interrupts_acknowledged (show bothUp.map Prod.snd = pic_remap from rfl) run).2.2
  have timer : (bothLines.foldl operate (outs bothUp turnedOn)).master.pending 0 = true := by decide
  have keyboard : (interrupt (Pics.withdraw (bothLines.foldl operate (outs bothUp turnedOn)) 0)).1 = 0x21 := by decide
  rw [if_pos timer] at acknowledged
  exact ⟨history,_,run,acknowledged,keyboard⟩

end Sosis.Controllers
