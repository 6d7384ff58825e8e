import Sosis.InterruptGates

-- From a process through the gate and the stub to main_interrupt_handler and back, for every
-- event: an instruction of the process can only make a system call or fault.
namespace Sosis.Gates
open Ia32 Kernel Registers
open Ia32.Window (ops)

def error_code_interrupt_handler (int_number : Word) : List Instr := [.pushImm int_number]

-- The vectors whose handlers expect that the processor has pushed an error code.
def expectsErrorCode (i : Nat) : Bool := i ∈ [8,10,11,12,13,14,17,30]

def handler (i : Nat) : List Instr :=
  (if expectsErrorCode i then error_code_interrupt_handler (BitVec.ofNat 32 i) else interrupt_handler (BitVec.ofNat 32 i)) ++
    call_generic_handler

-- What can happen in a process: its instructions, the lines of the interrupt controllers
-- after pic_remap, the non-maskable interrupt, and the exceptions of the processor with the
-- error codes it pushes.
def Raised : Cause → Prop
  | .software _ _ => True
  | .external n => n = 2 ∨ 0x20 ≤ n.toNat ∧ n.toNat < 0x30
  | .exception n error_code => n.toNat ∈ [0,1,3,4,5,6,7,8,10,11,12,13,14,16,17,18,19] ∧
      (error_code.isSome ↔ n.toNat ∈ [8,10,11,12,13,14,17])

-- The gate that is taken in the end, and what is pushed there.
structure Arrival where
  vector : InterruptVector
  return_ : Word
  eflags : Word
  error_code : Option Word

def arrival (r : Registers) (cause : Cause) (resume : Bool) : Arrival :=
  if Admitted cause then ⟨cause.vector,cause.resume r.eip,pushedFlags resume r.eflags,cause.error_code⟩
  else ⟨GENERAL_PROTECTION,r.eip,pushedFlags true r.eflags,some (gateError cause.vector + cause.EXT)⟩

def entryOf (image : Image) (ebp : Word) (g : KernelSegments) (n : InterruptVector) : Entry where
  gate := (gateOf image n).encode
  code := g.code
  stack := g.stack
  ss := GDT_KERNEL_DATA_SEGMENT_SELECTOR
  esp := ebp + 8

theorem fault_admitted (fault : Fault) (vector : fault.vector = GENERAL_PROTECTION) : Admitted fault.cause := by
  refine ⟨?_,fun by_ => by cases by_⟩
  change fault.vector.toNat < 64
  rw [vector]
  decide

section deliver
variable {image : Image} {ebp : Word} {g : KernelSegments} {c : SystemRegisters} {m : Memory} (ready : Ready image ebp g c m)
  (space : 24 ≤ (ebp + 8).toNat)
include ready space

theorem entryFor_process (cause : Cause) : entryFor c m 3 cause =
    some (if Admitted cause then .ok (entryOf image ebp g cause.vector)
      else .error ⟨GENERAL_PROTECTION,gateError cause.vector + cause.EXT⟩) := by
  rw [entryFor,gateFor_process ready]
  by_cases admitted : Admitted cause
  · obtain ⟨_,_,_,selector,_⟩ := gateOf_inside image admitted.1
    have room : (if cause.error_code.isSome then 24 else 20) ≤ (ebp + 8).toNat := by
      split <;> omega
    obtain ⟨_,_,level,conforming,whole,_⟩ := g.code_entered
    have limit : ¬ g.code.limit < (gateOf image cause.vector).encode.offset.toNat := by
      have bound := (gateOf image cause.vector).encode.offset.isLt
      omega
    simp only [if_pos admitted,selector,codeFor_kernel ready]
    rw [conforming,level,if_neg (by decide)]
    simp only [stackFor_kernel ready cause room]
    rw [if_neg limit]
    rfl
  · simp only [if_neg admitted]

theorem deliver_process {r : Registers} {cause : Cause} (resume : Bool) (user : rpl r.cs = 3)
    (handled : cause.byException = true → Admitted cause) : deliver c cause resume ⟨r,m⟩ =
      enter memoryOps (entryOf image ebp g (arrival r cause resume).vector) (arrival r cause resume).return_
        (arrival r cause resume).eflags (arrival r cause resume).error_code ⟨r,m⟩ := by
  rw [deliver]
  simp only [user,entryFor_process ready space]
  by_cases admitted : Admitted cause
  · simp only [if_pos admitted,Option.bind_some,arrival]
  · have own : ¬ cause.byException = true := fun by_ => admitted (handled by_)
    have then_ := fault_admitted ⟨GENERAL_PROTECTION,gateError cause.vector + cause.EXT⟩ rfl
    simp only [if_neg admitted,Option.bind_some,if_neg own,if_pos then_,arrival]
    rfl

end deliver

theorem enter_follows {μ : Type u} {ν : Type v} {agrees : μ → ν → Prop} {ops : MemoryOps μ} {ops' : MemoryOps ν} {s : State μ}
    {t : State ν} (refines : Refines agrees ops ops') (agree : Agree agrees s t) (e : Entry) (return_ eflags : Word)
    (error_code : Option Word) :
    Follows (Agree agrees) (enter ops e return_ eflags error_code s) (enter ops' e return_ eflags error_code t) := by
  unfold enter
  rw [agree.regs]
  dsimp only
  split
  · exact pushAll_follows refines (agree.update fun _ => _) _
  · exact .none

-- The registers on the way to main_interrupt_handler, with so much on the kernel's stack.
def inside (r : Registers) (handler_address esp : Word) : Registers :=
  {r with
    esp := esp
    ss := GDT_KERNEL_DATA_SEGMENT_SELECTOR
    cs := GDT_KERNEL_CODE_SEGMENT_SELECTOR
    eip := handler_address
    eflags := r.eflags &&& ~~~GATE_CLEARED}

-- What the processor pushes, and the handler of the vector.
def interruptWords (r : Registers) (a : Arrival) : List Word :=
  [BitVec.ofNat 32 a.vector.toNat,a.error_code.getD 0,a.return_,r.cs.setWidth 32,a.eflags,r.esp,r.ss.setWidth 32]

theorem entryOf_followed (image : Image) (ebp : Word) (g : KernelSegments) {n : InterruptVector} (bound : n.toNat < ISR_STUB_TABLE_LIMIT) :
    (entryOf image ebp g n).followed = true := by
  obtain ⟨kind,_⟩ := gateOf_inside image bound
  have interruptGate : (gateOf image n).encode.interruptGate = true := by
    rw [Descriptor.interruptGate,kind]
    rfl
  obtain ⟨_,_,_,_,_,code⟩ := g.code_entered
  obtain ⟨_,_,_,_,_,stack⟩ := g.stack_entered
  rw [Entry.followed,entryOf]
  dsimp only
  rw [interruptGate,code,stack]
  rfl

theorem enters (image : Image) (ebp : Word) (g : KernelSegments) (r : Registers) (a : Arrival) (bound : a.vector.toNat < ISR_STUB_TABLE_LIMIT) :
    enter ops (entryOf image ebp g a.vector) a.return_ a.eflags a.error_code ⟨r,⟨ebp + 8,[]⟩⟩ =
      some ⟨inside r (image.isr_stub_table a.vector.toNat) (ebp + 8 - BitVec.ofNat 32 (4 * (5 + a.error_code.toList.length))),
        ⟨ebp + 8 - BitVec.ofNat 32 (4 * (5 + a.error_code.toList.length)),
          a.error_code.toList ++ [a.return_,r.cs.setWidth 32,a.eflags,r.esp,r.ss.setWidth 32]⟩⟩ := by
  obtain ⟨_,_,_,selector,offset⟩ := gateOf_inside image bound
  have level : (GDT_KERNEL_CODE_SEGMENT_SELECTOR &&& 0xFFFC) ||| BitVec.ofNat 16 g.code.dpl =
      GDT_KERNEL_CODE_SEGMENT_SELECTOR := by
    rw [g.code_entered.2.2.1]
    decide
  rw [enter,if_pos (entryOf_followed image ebp g bound)]
  cases code : a.error_code with
  | none =>
    refine (Window.pushAll_ops _ rfl (by simp [Window.CAPACITY])).trans ?_
    simp [entryOf,inside,selector,offset]
    exact level
  | some code =>
    refine (Window.pushAll_ops _ rfl (by simp [Window.CAPACITY])).trans ?_
    simp [entryOf,inside,selector,offset]
    exact level

-- Where the stub finds the segment of a process in ds, it puts the stack pointer of the
-- process in place of the one pushad saw.
def savedBy (r : Registers) (pushed : Word) : CPURegister :=
  {savedRegisters r with esp := if (r.ds.setWidth 32 &&& 0x3 : Word) = 0 then pushed else r.esp}

-- The registers main_interrupt_handler is called with.
def called (q : Registers) (esp : Word) : Registers :=
  {q with
    ebp := esp
    esp := esp
    ds := GDT_KERNEL_DATA_SEGMENT_SELECTOR
    es := GDT_KERNEL_DATA_SEGMENT_SELECTOR
    fs := GDT_KERNEL_DATA_SEGMENT_SELECTOR
    gs := GDT_KERNEL_DATA_SEGMENT_SELECTOR
    eflags := (q.eflags &&& POPF_WRITABLE) ||| (andFlags (q.ds.setWidth 32 &&& 0x3) q.eflags &&& VIRTUAL_8086) ||| ALWAYS}

def borrowed (q : Registers) (pushed : Word) (rest : List Word) : List Word :=
  [q.eax,q.eflags,q.edi,q.esi,q.ebp,pushed,q.ebx,q.edx,q.ecx,q.eax,q.gs.setWidth 32,q.fs.setWidth 32,q.es.setWidth 32,
    q.ds.setWidth 32] ++ rest

theorem andFlags_of_zero (eflags : Word) : andFlags 0 eflags &&& ZERO ≠ 0 := by
  have set_ : andFlags 0 eflags &&& ZERO = ZERO := by
    rw [andFlags,withFlag_other (by decide) (by decide),withFlag_other (by decide) (by decide),resultFlags,
      withFlag_other (by decide) (by decide),withFlag,if_pos (by rfl),BitVec.and_comm]
    ext k inside
    rw [BitVec.getElem_and,BitVec.getElem_or]
    cases ZERO[k] <;> simp
  rw [set_]
  decide

theorem generic_saves (r q : Registers) (a : Arrival) (low : Word) (same : q = inside r q.eip low) :
    exec ops 0 call_generic_handler ⟨q,⟨low,interruptWords r a⟩⟩ =
      some ⟨called q (low - 48),⟨low - 48,(savedBy r (low - 16)).words ++ interruptWords r a⟩⟩ := by
  have saves : exec ops 0 call_generic_handler ⟨q,⟨low,interruptWords r a⟩⟩ =
      exec ops 0 (call_generic_handler.drop 7)
        ⟨{q with esp := low - 56},⟨low - 56,borrowed q (low - 16) (interruptWords r a)⟩⟩ := by
    rw [same]
    simp [call_generic_handler,exec,step,skips,pushAll,Window.push_ops,Window.CAPACITY,Registers.get,Registers.getSeg,sub_sub,
      inside,borrowed,interruptWords]
  have tested : exec ops 0 (call_generic_handler.drop 7)
      ⟨{q with esp := low - 56},⟨low - 56,borrowed q (low - 16) (interruptWords r a)⟩⟩ =
      exec ops 0 (call_generic_handler.drop 12) ⟨{q with
          esp := low - 56
          eax := if (r.ds.setWidth 32 &&& 0x3 : Word) = 0 then 0 else r.esp
          eflags := andFlags (q.ds.setWidth 32 &&& 0x3) q.eflags},
        ⟨low - 56,borrowed q (if (r.ds.setWidth 32 &&& 0x3 : Word) = 0 then low - 16 else r.esp) (interruptWords r a)⟩⟩ := by
    have data : q.ds = r.ds := by rw [same,inside]
    have ds_at : Window.offset (low - 56#32) (low - 56#32 + 52#32) = 4*13 := Window.offset_above _ _
    have esp_at : Window.offset (low - 56#32) (low - 56#32 + 76#32) = 4*19 := Window.offset_above _ _
    have patched_at : Window.offset (low - 56#32) (low - 56#32 + 20#32) = 4*5 := Window.offset_above _ _
    change exec ops 0 (call_generic_handler.drop 7 |>.take 5 |>.append (call_generic_handler.drop 12)) _ = _
    generalize call_generic_handler.drop 12 = rest
    by_cases null : r.ds.setWidth 32 &&& 3#32 = 0#32
    · have taken : andFlags (0#32) q.eflags &&& ZERO ≠ 0#32 := andFlags_of_zero _
      simp [call_generic_handler,exec,step,skips,Registers.get,Registers.set,borrowed,interruptWords,Window.load_ops ds_at,
        data,null,taken]
    · have taken : andFlags (r.ds.setWidth 32 &&& 3#32) q.eflags &&& ZERO = 0#32 := andFlags_zero null _
      simp [call_generic_handler,exec,step,skips,Registers.get,Registers.set,borrowed,interruptWords,Window.CAPACITY,
        Window.load_ops ds_at,Window.load_ops esp_at,Window.store_ops _ patched_at,data,null,taken]
  rw [saves,tested,same]
  simp [call_generic_handler,exec,step,skips,popAll,Window.pop_ops,Registers.get,Registers.set,Registers.setSeg,sub_add,
    inside,borrowed,called,savedBy,savedRegisters,CPURegister.words,GDT_KERNEL_DATA_SEGMENT_SELECTOR,interruptWords]

-- The process where the handler returns.
def resumedAs (r : Registers) (a : Arrival) : Registers := {r with
  eip := a.return_
  eflags := (a.eflags &&& WRITABLE) ||| ALWAYS}

theorem generic_returns (r s : Registers) (a : Arrival) (pushed base : Word) (top : s.esp = base)
    (kernel : s.cs = GDT_KERNEL_CODE_SEGMENT_SELECTOR) (outer : r.cs = USER_CODE) (protected_ : a.eflags &&& VIRTUAL_8086 = 0) :
    exec ops 0 call_generic_handler_return ⟨s,⟨base,(savedBy r pushed).words ++ interruptWords r a⟩⟩ =
      some ⟨resumedAs r a,⟨base + 76,[]⟩⟩ := by
  have inner : rpl GDT_KERNEL_CODE_SEGMENT_SELECTOR = 0 := by decide
  have outside : rpl r.cs ≠ 0 := by
    rw [outer]
    decide
  -- add esp, 8 has passed over two doublewords.
  have eip_at : Window.offset (base + 48#32) (base + 56#32) = 4*2 := by
    rw [Window.offset,add_sub_add_left_eq_sub]
    decide
  calc exec ops 0 call_generic_handler_return ⟨s,⟨base,(savedBy r pushed).words ++ interruptWords r a⟩⟩
      = exec ops 0 (call_generic_handler_return.drop 1) ⟨{s with
            edi := r.edi
            esi := r.esi
            ebp := r.ebp
            esp := base + 32
            ebx := r.ebx
            edx := r.edx
            ecx := r.ecx
            eax := r.eax},⟨base + 32,(savedBy r pushed).words.drop 8 ++ interruptWords r a⟩⟩ := by
        simp [call_generic_handler_return,exec,step,skips,popAll,Window.pop_ops,Registers.set,savedBy,savedRegisters,
          CPURegister.words,top,add_assoc]
    _ = iret ops ⟨{r with
            esp := base + 56
            ss := s.ss
            cs := s.cs
            eflags := addFlags (base + 48) 8 s.eflags
            eip := s.eip},⟨base + 48,interruptWords r a⟩⟩ := by
        simp [call_generic_handler_return,exec,step,skips,Window.pop_ops,Registers.get,Registers.set,Registers.setSeg,savedBy,
          savedRegisters,CPURegister.words,add_assoc]
    _ = some ⟨resumedAs r a,⟨base + 76,[]⟩⟩ := by
        simp [iret,interruptWords,Window.pop_at eip_at,Window.pop_ops,kernel,protected_,add_assoc,inner,outside,resumedAs]

-- What main_interrupt_handler is told.
def frameOf (r : Registers) (pushed : Word) (a : Arrival) : InterruptFrame where
  cpu := savedBy r pushed
  int_number := BitVec.ofNat 32 a.vector.toNat
  int_stack := ⟨a.error_code.getD 0,a.return_,r.cs.setWidth 32,a.eflags⟩

theorem frameOf_read {m : Memory} {at_ pushed : Word} {r : Registers} {a : Arrival}
    (shows_ : Window.Shows m ⟨at_,(savedBy r pushed).words ++ interruptWords r a⟩) :
    InterruptFrame.read m at_ = frameOf r pushed a := by
  have found {k : Nat} {v : Word} (inside : ((savedBy r pushed).words ++ interruptWords r a)[k]? = some v) :
      word m at_ k = v := shows_.words k v inside
  unfold InterruptFrame.read frameOf
  rw [CPURegister.read_words shows_,found (k := 12) rfl,found (k := 13) rfl,found (k := 14) rfl,found (k := 15) rfl,
    found (k := 16) rfl]

-- The handlers are where the stub table says.
def Linked (image : Image) : Prop := ∀ i < ISR_STUB_TABLE_LIMIT, image.code (image.isr_stub_table i) = handler i

def handle (image : Image) (c : SystemRegisters) (cause : Cause) (resume : Bool) (s : State Memory) : Option (State Memory) :=
  (deliver c cause resume s).bind fun s => exec memoryOps 0 (image.code s.regs.eip) s

theorem arrival_inside (r : Registers) (cause : Cause) (resume : Bool) :
    (arrival r cause resume).vector.toNat < ISR_STUB_TABLE_LIMIT := by
  unfold arrival
  split
  · rename_i admitted
    exact admitted.1
  · exact (by decide : GENERAL_PROTECTION.toNat < ISR_STUB_TABLE_LIMIT)

-- The processor pushes an error code for the handlers that expect one and for no others.
theorem arrival_error_code (r : Registers) {cause : Cause} (resume : Bool) (raised : Raised cause) :
    (arrival r cause resume).error_code.isSome = expectsErrorCode (arrival r cause resume).vector.toNat := by
  unfold arrival
  split
  · rename_i admitted
    have within : cause.vector.toNat < 64 := admitted.1
    cases cause with
    | software n length =>
      have high : 0x30 ≤ n.toNat := admitted.2 rfl
      have other : expectsErrorCode n.toNat = false := by
        simp only [expectsErrorCode,List.mem_cons,List.not_mem_nil,or_false,decide_eq_false_iff_not]
        omega
      exact other.symm
    | external n =>
      have other : expectsErrorCode n.toNat = false := by
        simp only [expectsErrorCode,List.mem_cons,List.not_mem_nil,or_false,decide_eq_false_iff_not]
        rcases raised with rfl | ⟨low,_⟩
        · decide
        · omega
      exact other.symm
    | exception n error_code =>
      obtain ⟨known,codes⟩ := raised
      have same : expectsErrorCode n.toNat = decide (n.toNat ∈ [8,10,11,12,13,14,17]) := by
        simp only [List.mem_cons,List.not_mem_nil,or_false] at known
        simp only [expectsErrorCode,List.mem_cons,List.not_mem_nil,or_false]
        exact decide_eq_decide.mpr (by omega)
      change error_code.isSome = expectsErrorCode n.toNat
      rw [same,Bool.eq_iff_iff,decide_eq_true_iff]
      exact codes
  · rfl

theorem handler_saves (image : Image) (ebp : Word) (g : KernelSegments) (r : Registers) (a : Arrival)
    (inside_ : a.vector.toNat < ISR_STUB_TABLE_LIMIT)
    (codes : a.error_code.isSome = expectsErrorCode a.vector.toNat) :
    (enter ops (entryOf image ebp g a.vector) a.return_ a.eflags a.error_code ⟨r,⟨ebp + 8,[]⟩⟩).bind
      (exec ops 0 (handler a.vector.toNat)) =
      some ⟨called (inside r (image.isr_stub_table a.vector.toNat) (ebp + 8 - 28)) (ebp + 8 - 76),
        ⟨ebp + 8 - 76,(savedBy r (ebp + 8 - 44)).words ++ interruptWords r a⟩⟩ := by
  have generic := generic_saves r (inside r (image.isr_stub_table a.vector.toNat) (ebp + 8 - 28)) a (ebp + 8 - 28) rfl
  rw [sub_sub,sub_sub] at generic
  rw [enters image ebp g r a inside_,Option.bind_some,handler]
  refine Eq.trans ?_ generic
  cases code : a.error_code with
  | none =>
    rw [code] at codes
    rw [← codes]
    generalize call_generic_handler = rest
    simp [interrupt_handler,exec,step,skips,Window.push_ops,Window.CAPACITY,inside,interruptWords,code,sub_sub]
  | some error_code =>
    rw [code] at codes
    rw [← codes]
    generalize call_generic_handler = rest
    simp [error_code_interrupt_handler,exec,step,skips,Window.push_ops,Window.CAPACITY,inside,interruptWords,code,sub_sub]

theorem raised_exception_admitted {cause : Cause} (raised : Raised cause) (by_ : cause.byException = true) : Admitted cause := by
  cases cause with
  | software => cases by_
  | external => cases by_
  | exception n error_code =>
    obtain ⟨known,_⟩ := raised
    simp only [List.mem_cons,List.not_mem_nil,or_false] at known
    refine ⟨?_,fun software => by cases software⟩
    change n.toNat < 64
    omega

-- The 19 doublewords of the registers and of what lies above them.
def KeepsFrame (top : Word) (m m' : Memory) : Prop :=
  ∀ k < 19, load m' (top + BitVec.ofNat 32 (4*k)) = load m (top + BitVec.ofNat 32 (4*k))

-- At the call of main_interrupt_handler: interrupts are off, the frame is that of the event,
-- and a handler that returns, whatever it has stored elsewhere, hands the process back. Where
-- a process has a selector of privilege 0 in ds, the stack pointer in the frame is the kernel's.
structure Arrived (r : Registers) (pushed : Word) (a : Arrival) (s : State Memory) : Prop where
  kernel : s.regs.cs = GDT_KERNEL_CODE_SEGMENT_SELECTOR
  masked : s.regs.eflags &&& CPU_EFLAGS_FLAG_INTERRUPT_ENABLE = 0
  frame : InterruptFrame.read s.memory s.regs.esp = frameOf r pushed a
  registers : rpl r.ds ≠ 0 → (frameOf r pushed a).cpu = savedRegisters r
  returns : ∀ (k : Registers) (m : Memory), k.cs = GDT_KERNEL_CODE_SEGMENT_SELECTOR → k.esp = s.regs.esp →
    KeepsFrame s.regs.esp s.memory m → ∃ m', exec memoryOps 0 call_generic_handler_return ⟨k,m⟩ = some ⟨resumedAs r a,m'⟩

theorem savedBy_registers (r : Registers) (pushed : Word) (outer : rpl r.ds ≠ 0) : savedBy r pushed = savedRegisters r := by
  have tested : (r.ds.setWidth 32 &&& 0x3 : Word) ≠ 0 := by
    intro none
    refine outer ?_
    have number := congrArg BitVec.toNat none
    rw [BitVec.toNat_and,BitVec.toNat_setWidth_of_le (by decide)] at number
    exact (Nat.and_two_pow_sub_one_eq_mod r.ds.toNat 2).symm.trans number
  rw [savedBy,if_neg tested]
  rfl

theorem called_masked (r : Registers) (handler_address esp esp' : Word) :
    (called (inside r handler_address esp) esp').eflags &&& CPU_EFLAGS_FLAG_INTERRUPT_ENABLE = 0 := by
  have cleared : (~~~GATE_CLEARED &&& CPU_EFLAGS_FLAG_INTERRUPT_ENABLE : Word) = 0 := by decide
  have virtual_ : (VIRTUAL_8086 &&& CPU_EFLAGS_FLAG_INTERRUPT_ENABLE : Word) = 0 := by decide
  have always : (ALWAYS &&& CPU_EFLAGS_FLAG_INTERRUPT_ENABLE : Word) = 0 := by decide
  have off (w : Word) : w &&& ~~~GATE_CLEARED &&& POPF_WRITABLE &&& CPU_EFLAGS_FLAG_INTERRUPT_ENABLE = 0 := by
    rw [BitVec.and_assoc,BitVec.and_comm POPF_WRITABLE,← BitVec.and_assoc,BitVec.and_assoc w,cleared]
    simp
  rw [called,inside]
  dsimp only
  rw [BitVec.and_or_distrib_right,BitVec.and_or_distrib_right,off,always,BitVec.and_assoc,virtual_]
  simp

theorem pushedFlags_protected {eflags : Word} (protected_ : eflags &&& VIRTUAL_8086 = 0) (resume : Bool) :
    pushedFlags resume eflags &&& VIRTUAL_8086 = 0 := by
  have apart : (RESUME &&& VIRTUAL_8086 : Word) = 0 := by decide
  cases resume with
  | false => exact protected_
  | true =>
    rw [pushedFlags,if_pos rfl,BitVec.and_or_distrib_right,protected_,apart]
    rfl

theorem arrival_protected {r : Registers} (protected_ : r.eflags &&& VIRTUAL_8086 = 0) (cause : Cause) (resume : Bool) :
    (arrival r cause resume).eflags &&& VIRTUAL_8086 = 0 := by
  unfold arrival
  split
  · exact pushedFlags_protected protected_ _
  · exact pushedFlags_protected protected_ _

section arrive
variable {image : Image} {ebp : Word} {c : SystemRegisters} {m : Memory} {r : Registers} {cause : Cause}

theorem handle_arrives {g : KernelSegments} (ready : Ready image ebp g c m) (linked : Linked image) (space : 24 ≤ (ebp + 8).toNat)
    (user : r.cs = USER_CODE) (protected_ : r.eflags &&& VIRTUAL_8086 = 0) (raised : Raised cause) (resume : Bool) :
    ∃ s, handle image c cause resume ⟨r,m⟩ = some s ∧ Arrived r (ebp + 8 - 44) (arrival r cause resume) s := by
  have level : rpl r.cs = 3 := by
    rw [user]
    decide
  have inside_ := arrival_inside r cause resume
  have protected' := arrival_protected protected_ cause resume
  have saves := handler_saves image ebp g r (arrival r cause resume) inside_ (arrival_error_code r resume raised)
  have delivered := deliver_process ready space resume level (raised_exception_admitted raised)
  generalize arrival r cause resume = a at inside_ protected' saves delivered ⊢
  rw [enters image ebp g r a inside_,Option.bind_some] at saves
  have agree : Agree Window.Shows ⟨r,m⟩ ⟨r,⟨ebp + 8,[]⟩⟩ := ⟨rfl,Window.shows_nil _ _⟩
  obtain ⟨s₁,entered,agree₁⟩ := enter_follows Window.refines agree (entryOf image ebp g a.vector) a.return_ a.eflags
    a.error_code _ (enters image ebp g r a inside_)
  obtain ⟨s₂,ran,agree₂⟩ := exec_follows Window.refines agree₁ 0 (handler a.vector.toNat) _ saves
  have handled : handle image c cause resume ⟨r,m⟩ = some s₂ := by
    have place : s₁.regs.eip = image.isr_stub_table a.vector.toNat := by rw [agree₁.regs]; rfl
    rw [handle,delivered,entered,Option.bind_some,place,linked _ inside_,ran]
  have top : s₂.regs.esp = ebp + 8 - 76 := by rw [agree₂.regs]; rfl
  refine ⟨s₂,handled,?_,?_,?_,savedBy_registers r _,fun k m' kernel esp keeps => ?_⟩
  · rw [agree₂.regs]
    rfl
  · rw [agree₂.regs]
    exact called_masked _ _ _ _
  · rw [top]
    exact frameOf_read agree₂.memory
  · have returns := generic_returns r k a (ebp + 8 - 44) (ebp + 8 - 76) (esp.trans top) kernel user protected'
    have handedBack : Agree Window.Shows ⟨k,m'⟩
      ⟨k,⟨ebp + 8 - 76,(savedBy r (ebp + 8 - 44)).words ++ interruptWords r a⟩⟩ :=
      ⟨rfl,Window.shows_kept agree₂.memory fun j below => top ▸ keeps j below⟩
    obtain ⟨s₃,ran,agree₃⟩ := exec_follows Window.refines handedBack 0 call_generic_handler_return _ returns
    obtain ⟨regs,m''⟩ := s₃
    exact ⟨m'',by rw [ran,show regs = resumedAs r a from agree₃.regs]⟩

-- An instruction of a process makes a system call or does nothing to the kernel.
theorem software_asks (sys : System) (around : Surroundings) (pushed : Word) (resume : Bool) (software : cause.bySoftware = true) :
    sys.main_interrupt_handler (frameOf r pushed (arrival r cause resume)) around =
      if cause.vector = 0x30 then sys.syscall (frameOf r pushed (arrival r cause resume)).cpu around else .ok sys := by
  by_cases admitted : Admitted cause
  · have number : (frameOf r pushed (arrival r cause resume)).int_number = BitVec.ofNat 32 cause.vector.toNat := by
      rw [frameOf,arrival,if_pos admitted]
    have low : 0x30 ≤ cause.vector.toNat := admitted.2 software
    have value : (BitVec.ofNat 32 cause.vector.toNat : Word).toNat = cause.vector.toNat := by
      rw [BitVec.toNat_ofNat]
      have := cause.vector.isLt
      omega
    have other {w : Word} (small : w.toNat < 0x30) : BitVec.ofNat 32 cause.vector.toNat ≠ w := by
      rintro rfl
      omega
    rw [System.main_interrupt_handler,number,if_neg (other (by decide)),if_neg (other (by decide)),if_neg (other (by decide))]
    refine if_congr ?_ rfl rfl
    constructor
    · intro same
      have number : cause.vector.toNat = 0x30 := value.symm.trans (congrArg BitVec.toNat same)
      exact BitVec.eq_of_toNat_eq number
    · intro same
      rw [same]
      rfl
  · have number : (frameOf r pushed (arrival r cause resume)).int_number = 13 := by
      rw [frameOf,arrival,if_neg admitted]
      rfl
    have other : cause.vector ≠ 0x30 := by
      intro same
      refine admitted ⟨?_,fun _ => ?_⟩
      · rw [same]
        decide
      · rw [same]
        decide
    rw [System.main_interrupt_handler,number,if_neg (by decide),if_neg (by decide),if_neg (by decide),if_neg (by decide),
      if_neg other]

-- From user mode every event arrives at main_interrupt_handler, and what a process does itself
-- arrives there as a call or as a fault of its own.
theorem events_arrive {t : Tables} (booted : kernel_setup image ebp = some (c,t)) (placed : Placed m image t)
    (linked : Linked image) (stack : KERNEL_VIRTUAL_ADDRESS_BASE ≤ ebp + 8) (user : r.cs = USER_CODE)
    (protected_ : r.eflags &&& VIRTUAL_8086 = 0) (raised : Raised cause) (resume : Bool) :
    (∃ s, handle image c cause resume ⟨r,m⟩ = some s ∧ Arrived r (ebp + 8 - 44) (arrival r cause resume) s) ∧
    ∀ (sys : System) (around : Surroundings), cause.bySoftware = true →
      sys.main_interrupt_handler (frameOf r (ebp + 8 - 44) (arrival r cause resume)) around =
        if cause.vector = 0x30 then sys.syscall (frameOf r (ebp + 8 - 44) (arrival r cause resume)).cpu around else .ok sys := by
  have space : 24 ≤ (ebp + 8).toNat := by
    have high : KERNEL_VIRTUAL_ADDRESS_BASE.toNat ≤ (ebp + 8).toNat := stack
    exact (by decide : 24 ≤ KERNEL_VIRTUAL_ADDRESS_BASE.toNat).trans high
  obtain ⟨g,ready⟩ := ready booted placed
  exact ⟨handle_arrives ready linked space user protected_ raised resume,
    fun sys around software => software_asks sys around _ resume software⟩

end arrive

-- Tables one page apart, and handlers of 16 bytes.
def roomyImage : Image where
  global_descriptor_table := 0xC0200000
  interrupt_descriptor_table := 0xC0201000
  _interrupt_tss_entry := 0xC0202000
  isr_stub_table i := 0xC0100000 + BitVec.ofNat 32 (16 * i)
  code a := handler ((a - 0xC0100000).toNat / 16)

-- Memory with nothing else in it.
def tablesAlone (t : Tables) : Memory := fun a =>
  let g := (a - 0xC0200000).toNat
  let i := (a - 0xC0201000).toNat
  let s := (a - 0xC0202000).toNat
  if inside : g / 8 < GDT_MAX_ENTRY_COUNT then ByteRecords.byteOf (t.gdt ⟨g / 8,inside⟩).encode (g % 8)
  else if i / 8 < IDT_MAX_ENTRY_COUNT then ByteRecords.byteOf (t.idt (BitVec.ofNat 8 (i / 8))).encode (i % 8)
  else if s / 4 = 1 then ByteRecords.byteOf t.tss.esp0 (s % 4)
  else if s / 4 = 2 then ByteRecords.byteOf t.tss.ss0 (s % 4)
  else 0

theorem load_bytes {m : Memory} {a w : Word} (bytes : ∀ k < 4, m (a + BitVec.ofNat 32 k) = ByteRecords.byteOf w k) :
    load m a = w :=
  ByteRecords.le32_exact w _ 0 (bytes 0 (by omega)) (bytes 1 (by omega)) (bytes 2 (by omega)) (bytes 3 (by omega))

theorem descriptor_bytes {m : Memory} {a : Word} {d : Descriptor}
    (bytes : ∀ k < 8, m (a + BitVec.ofNat 32 k) = ByteRecords.byteOf d k) : descriptor m a = d := by
  have part (start : Nat) {k : Nat} (small : k < 4) :
      ByteRecords.byteOf (d.extractLsb' (8 * start) 32) k = ByteRecords.byteOf d (start + k) := by
    unfold ByteRecords.byteOf
    ext j inside
    simp only [BitVec.getElem_extractLsb',BitVec.getLsbD_extractLsb']
    rw [decide_eq_true (by omega : 8 * k + j < 32),Bool.true_and,Nat.mul_add,Nat.add_assoc]
  have low : load m a = d.extractLsb' (8 * 0) 32 := load_bytes fun k small => by
    rw [part 0 small,Nat.zero_add,bytes k (by omega)]
  have high : load m (a + 4) = d.extractLsb' (8 * 4) 32 := load_bytes fun k small => by
    rw [part 4 small,← bytes (4 + k) (by omega),BitVec.ofNat_add,add_assoc]
    rfl
  rw [descriptor,low,high,BitVec.extractLsb'_append_extractLsb'_eq_extractLsb' (by rfl)]
  exact BitVec.extractLsb'_eq_self

theorem tables_placed (t : Tables) : Placed (tablesAlone t) roomyImage t := by
  refine ⟨fun i => Or.inl ?_,fun n => ?_,?_,?_⟩
  · refine descriptor_bytes fun k small => ?_
    have bound := i.isLt
    have at_ : (roomyImage.global_descriptor_table + BitVec.ofNat 32 (8 * i.val) + BitVec.ofNat 32 k - 0xC0200000).toNat =
        8 * i.val + k := by
      simp only [roomyImage,GDT_MAX_ENTRY_COUNT] at *
      bv_omega
    have quotient : (8 * i.val + k) / 8 = i.val := by omega
    have remainder : (8 * i.val + k) % 8 = k := by omega
    unfold tablesAlone
    simp only [at_,quotient,remainder,i.isLt,dite_true]
  · refine descriptor_bytes fun k small => ?_
    have bound := n.isLt
    have before : (roomyImage.interrupt_descriptor_table + BitVec.ofNat 32 (8 * n.toNat) + BitVec.ofNat 32 k -
        0xC0200000).toNat = 8 * n.toNat + k + 4096 := by
      simp only [roomyImage] at *
      bv_omega
    have at_ : (roomyImage.interrupt_descriptor_table + BitVec.ofNat 32 (8 * n.toNat) + BitVec.ofNat 32 k - 0xC0201000).toNat =
        8 * n.toNat + k := by
      simp only [roomyImage] at *
      bv_omega
    have quotient : (8 * n.toNat + k) / 8 = n.toNat := by omega
    have remainder : (8 * n.toNat + k) % 8 = k := by omega
    have behind : ¬ (8 * n.toNat + k + 4096) / 8 < GDT_MAX_ENTRY_COUNT := by
      simp only [GDT_MAX_ENTRY_COUNT]
      omega
    unfold tablesAlone
    simp only [at_,before,quotient,remainder,behind,bound,dite_false]
    rw [if_pos trivial,BitVec.ofNat_toNat,BitVec.setWidth_eq]
  · refine load_bytes fun k small => ?_
    interval_cases k <;> rfl
  · refine load_bytes fun k small => ?_
    interval_cases k <;> rfl

theorem roomyImage_linked : Linked roomyImage := by
  intro i inside
  have bound : i < 64 := inside
  have at_ : ((0xC0100000 : Word) + BitVec.ofNat 32 (16 * i) - 0xC0100000).toNat / 16 = i := by
    rw [add_sub_cancel_left,BitVec.toNat_ofNat]
    omega
  simp only [roomyImage,at_]

-- A process that would pass for the timer: int 0x20.
def pretender : Registers where
  edi := 1
  esi := 2
  ebp := 0x3FFFF0
  esp := 0x3FFFE0
  ebx := 3
  edx := 4
  ecx := 5
  eax := 6
  gs := USER_DATA
  fs := USER_DATA
  es := USER_DATA
  ds := USER_DATA
  ss := USER_DATA
  cs := USER_CODE
  eflags := 0x202
  eip := 0x1000

theorem events_arrive_pretended : ∃ c t s, kernel_setup roomyImage 0xC03FFFF0 = some (c,t) ∧
    handle roomyImage c (.software (PIC1_OFFSET.truncate 8) 2) false ⟨pretender,tablesAlone t⟩ = some s ∧
    (InterruptFrame.read s.memory s.regs.esp).int_number = 13 ∧
    (InterruptFrame.read s.memory s.regs.esp).int_stack.error_code = 0x102 ∧
    (InterruptFrame.read s.memory s.regs.esp).int_stack.eip = pretender.eip ∧
    (InterruptFrame.read s.memory s.regs.esp).cpu = savedRegisters pretender := by
  obtain ⟨gdt,booted,_⟩ := kernel_setup_tables roomyImage 0xC03FFFF0
  obtain ⟨s,handled,arrived⟩ := (events_arrive (r := pretender) booted (tables_placed _) roomyImage_linked (by decide) rfl
    (by decide) (show Raised (.software (PIC1_OFFSET.truncate 8) 2) from trivial) false).1
  refine ⟨_,_,s,booted,handled,?_⟩
  rw [arrived.frame]
  exact ⟨rfl,rfl,rfl,rfl⟩

end Sosis.Gates
