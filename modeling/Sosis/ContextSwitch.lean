import Sosis.Ia32Windows
import Sosis.Process

-- intsetup.s and process_context_switch of kernel-entrypoint.s, with the C structures
-- they share with interrupt.c: where each register is on the stack.
namespace Sosis.Kernel
open Ia32
open Ia32.Window (ops)

def PIC1_OFFSET : Word := 0x20
def IRQ_TIMER : Word := 0

def GDT_KERNEL_CODE_SEGMENT_SELECTOR : Selector := 0x8
def GDT_KERNEL_DATA_SEGMENT_SELECTOR : Selector := 0x10

-- The selectors of a process, of privilege level 3.
def USER_CODE : Selector := 0x18 ||| 0x3
def USER_DATA : Selector := 0x20 ||| 0x3

structure InterruptStack where
  error_code : Word
  eip : Word
  cs : Word
  eflags : Word

structure InterruptFrame where
  cpu : CPURegister
  int_number : Word
  int_stack : InterruptStack

-- The k-th doubleword of a structure.
def word (m : Memory) (a : Word) (k : Nat) : Word := load m (a + BitVec.ofNat 32 (4*k))

def CPURegister.read (m : Memory) (a : Word) : CPURegister where
  edi := word m a 0
  esi := word m a 1
  ebp := word m a 2
  esp := word m a 3
  ebx := word m a 4
  edx := word m a 5
  ecx := word m a 6
  eax := word m a 7
  gs := word m a 8
  fs := word m a 9
  es := word m a 10
  ds := word m a 11

def InterruptFrame.read (m : Memory) (a : Word) : InterruptFrame where
  cpu := CPURegister.read m a
  int_number := word m a 12
  int_stack := ⟨word m a 13,word m a 14,word m a 15,word m a 16⟩

def CPURegister.words (cpu : CPURegister) : List Word :=
  [cpu.edi,cpu.esi,cpu.ebp,cpu.esp,cpu.ebx,cpu.edx,cpu.ecx,cpu.eax,cpu.gs,cpu.fs,cpu.es,cpu.ds]

-- A struct Context as an argument; the page directory by its address.
def Context.words (ctx : Context) (page_directory_virtual_addr : Word) : List Word :=
  ctx.cpu.words ++ [ctx.eip,ctx.eflags,page_directory_virtual_addr]

-- no_error_code_interrupt_handler
def interrupt_handler (int_number : Word) : List Instr := [.pushImm 0,.pushImm int_number]

-- Up to the call of main_interrupt_handler, which finds its frame at the top of the
-- stack.
def call_generic_handler : List Instr := [
  .pushSeg .ds,
  .pushSeg .es,
  .pushSeg .fs,
  .pushSeg .gs,
  .pushad,
  .pushf,
  .push .eax,
  .load .eax .esp 52,
  .and .eax 0x3,
  .jz 2,
  .load .eax .esp 76,
  .store .esp 20 .eax,
  .movImm16 .eax 0x10,
  .movSeg .ds .eax,
  .movSeg .es .eax,
  .movSeg .fs .eax,
  .movSeg .gs .eax,
  .pop .eax,
  .popf,
  .mov .ebp .esp]

def call_generic_handler_return : List Instr := [
  .popad,
  .popSeg .gs,
  .popSeg .fs,
  .popSeg .es,
  .popSeg .ds,
  .add .esp 8,
  .iret]

def process_context_switch : List Instr := [
  .lea .ecx .esp 0x04,
  .movImm .eax (0x20 ||| 0x3),
  .movSeg .ds .eax,
  .movSeg .es .eax,
  .movSeg .fs .eax,
  .movSeg .gs .eax,
  .push .eax,
  .load .eax .ecx 12,
  .push .eax,
  .load .eax .ecx 52,
  .push .eax,
  .movImm .eax (0x18 ||| 0x3),
  .push .eax,
  .load .eax .ecx 48,
  .push .eax,
  .load .edi .ecx 0,
  .load .esi .ecx 4,
  .load .ebp .ecx 8,
  .load .ebx .ecx 16,
  .load .edx .ecx 20,
  .load .eax .ecx 28,
  .load .ecx .ecx 24,
  .iret]

-- The general registers of a process, in a struct CPURegister.
def savedRegisters (r : Registers) : CPURegister where
  edi := r.edi
  esi := r.esi
  ebp := r.ebp
  esp := r.esp
  ebx := r.ebx
  edx := r.edx
  ecx := r.ecx
  eax := r.eax
  gs := r.gs.setWidth 32
  fs := r.fs.setWidth 32
  es := r.es.setWidth 32
  ds := r.ds.setWidth 32

theorem CPURegister.read_words {m : Memory} {a : Word} {cpu : CPURegister} {rest : List Word}
    (shows_ : Window.Shows m ⟨a,cpu.words ++ rest⟩) : CPURegister.read m a = cpu := by
  have at_ {k : Nat} {v : Word} (found : (cpu.words ++ rest)[k]? = some v) : word m a k = v := shows_.words k v found
  unfold CPURegister.read
  rw [at_ (k := 0) rfl,at_ (k := 1) rfl,at_ (k := 2) rfl,at_ (k := 3) rfl,at_ (k := 4) rfl,at_ (k := 5) rfl,
    at_ (k := 6) rfl,at_ (k := 7) rfl,at_ (k := 8) rfl,at_ (k := 9) rfl,at_ (k := 10) rfl,at_ (k := 11) rfl]

-- What the processor and the stub leave on the stack of an interrupted process: its
-- registers, with its own stack pointer in place of the one pushad saw.
def savedWords (r : Registers) (int_number : Word) : List Word :=
  (savedRegisters r).words ++ [int_number,0,r.eip,r.cs.setWidth 32,r.eflags,r.esp,r.ss.setWidth 32]

-- The registers on entry through the gate, with so much on the kernel's stack.
def entered (r : Registers) (gate ss0 : Selector) (esp : Word) : Registers :=
  {r with
    esp := esp
    ss := ss0
    cs := gate
    eflags := r.eflags &&& ~~~GATE_CLEARED}

-- Those main_interrupt_handler is called with.
def handed (r : Registers) (gate ss0 : Selector) (esp : Word) : Registers :=
  {entered r gate ss0 esp with
    ebp := esp
    ds := GDT_KERNEL_DATA_SEGMENT_SELECTOR
    es := GDT_KERNEL_DATA_SEGMENT_SELECTOR
    fs := GDT_KERNEL_DATA_SEGMENT_SELECTOR
    gs := GDT_KERNEL_DATA_SEGMENT_SELECTOR
    eflags := (r.eflags &&& ~~~GATE_CLEARED &&& POPF_WRITABLE) |||
      (andFlags (r.ds.setWidth 32 &&& 0x3) (r.eflags &&& ~~~GATE_CLEARED) &&& VIRTUAL_8086) ||| ALWAYS}

-- The stack where eax has been borrowed.
def borrowedWords (r : Registers) (pushed_esp int_number : Word) : List Word :=
  [r.eax,r.eflags &&& ~~~GATE_CLEARED,r.edi,r.esi,r.ebp,pushed_esp,r.ebx,r.edx,r.ecx,r.eax,
    r.gs.setWidth 32,r.fs.setWidth 32,r.es.setWidth 32,r.ds.setWidth 32,int_number,0,
    r.eip,r.cs.setWidth 32,r.eflags,r.esp,r.ss.setWidth 32]

theorem stub_saves (r : Registers) (gate ss0 : Selector) (esp0 int_number : Word) (outer : r.cs = USER_CODE)
    (user : r.ds = USER_DATA) : (interrupt ops gate ss0 esp0 ⟨r,⟨esp0,[]⟩⟩).bind
      (exec ops 0 (interrupt_handler int_number ++ call_generic_handler)) =
      some ⟨handed r gate ss0 (esp0 - 76),⟨esp0 - 76,savedWords r int_number⟩⟩ := by
  have gated : interrupt ops gate ss0 esp0 ⟨r,⟨esp0,[]⟩⟩ = some ⟨entered r gate ss0 (esp0 - 20),
      ⟨esp0 - 20,[r.eip,r.cs.setWidth 32,r.eflags,r.esp,r.ss.setWidth 32]⟩⟩ := by
    rw [interrupt,if_pos (by rw [outer]; decide),Window.pushAll_ops _ rfl (by simp [Window.CAPACITY])]
    rfl
  rw [gated,Option.bind_some]
  calc exec ops 0 (interrupt_handler int_number ++ call_generic_handler) ⟨entered r gate ss0 (esp0 - 20),
        ⟨esp0 - 20,[r.eip,r.cs.setWidth 32,r.eflags,r.esp,r.ss.setWidth 32]⟩⟩
      = exec ops 0 (call_generic_handler.drop 7) ⟨entered r gate ss0 (esp0 - 84),
          ⟨esp0 - 84,borrowedWords r (esp0 - 44) int_number⟩⟩ := by
        simp [interrupt_handler,call_generic_handler,exec,step,skips,pushAll,Window.push_ops,Window.CAPACITY,
          Registers.get,Registers.getSeg,sub_sub,entered,borrowedWords]
    _ = exec ops 0 (call_generic_handler.drop 12) ⟨{entered r gate ss0 (esp0 - 84) with
            eax := r.esp
            eflags := andFlags (r.ds.setWidth 32 &&& 0x3) (r.eflags &&& ~~~GATE_CLEARED)},
          ⟨esp0 - 84,borrowedWords r r.esp int_number⟩⟩ := by
        have data : (r.ds.setWidth 32 &&& 0x3 : Word) ≠ 0 := by
          rw [user]
          decide
        have taken : andFlags (r.ds.setWidth 32 &&& 3#32) (r.eflags &&& ~~~GATE_CLEARED) &&& ZERO = 0#32 :=
          andFlags_zero data _
        have ds_at : Window.offset (esp0 - 84#32) (esp0 - 84#32 + 52#32) = 4*13 := Window.offset_above _ _
        have esp_at : Window.offset (esp0 - 84#32) (esp0 - 84#32 + 76#32) = 4*19 := Window.offset_above _ _
        have patched_at : Window.offset (esp0 - 84#32) (esp0 - 84#32 + 20#32) = 4*5 := Window.offset_above _ _
        simp [call_generic_handler,exec,step,skips,Registers.get,Registers.set,entered,borrowedWords,Window.CAPACITY,
          Window.load_ops ds_at,Window.load_ops esp_at,Window.store_ops _ patched_at,taken]
    _ = some ⟨handed r gate ss0 (esp0 - 76),⟨esp0 - 76,savedWords r int_number⟩⟩ := by
        simp [call_generic_handler,exec,step,skips,popAll,Window.pop_ops,Registers.get,Registers.set,Registers.setSeg,
          sub_add,entered,borrowedWords,handed,savedWords,savedRegisters,CPURegister.words,
          GDT_KERNEL_DATA_SEGMENT_SELECTOR]

-- The registers a process is resumed with.
def resumed (ctx : Context) : Registers where
  edi := ctx.cpu.edi
  esi := ctx.cpu.esi
  ebp := ctx.cpu.ebp
  esp := ctx.cpu.esp
  ebx := ctx.cpu.ebx
  edx := ctx.cpu.edx
  ecx := ctx.cpu.ecx
  eax := ctx.cpu.eax
  gs := USER_DATA
  fs := USER_DATA
  es := USER_DATA
  ds := USER_DATA
  ss := USER_DATA
  cs := USER_CODE
  eflags := (ctx.eflags &&& WRITABLE) ||| ALWAYS
  eip := ctx.eip

-- What process_context_switch pushes for iret.
def returnWords (ctx : Context) : List Word :=
  [ctx.eip,USER_CODE.setWidth 32,ctx.eflags,ctx.cpu.esp,USER_DATA.setWidth 32]

def returning (ctx : Context) (r : Registers) (base : Word) : Registers :=
  {r with
    eax := ctx.eip
    ecx := base + 4
    esp := base - 20
    ds := USER_DATA
    es := USER_DATA
    fs := USER_DATA
    gs := USER_DATA}

-- The argument stays where it is while the words for iret are pushed below it.
theorem context_switch_loads (r : Registers) (ctx : Context) (base to_ page_directory_virtual_addr : Word) (top : r.esp = base)
    (kernel : r.cs = GDT_KERNEL_CODE_SEGMENT_SELECTOR) (protected_ : ctx.eflags &&& VIRTUAL_8086 = 0) :
    exec ops 0 process_context_switch ⟨r,⟨base,to_ :: ctx.words page_directory_virtual_addr⟩⟩ =
      some ⟨resumed ctx,⟨base,to_ :: ctx.words page_directory_virtual_addr⟩⟩ := by
  have at_ {d e : Word} {k : Nat} (place : (d + e).toNat = 4*k) : Window.offset (base - e) (base + d) = 4*k :=
    (Window.offset_across _ _ _).trans place
  have esp_at : Window.offset (base - 4#32) (base + 16#32) = 4*5 := at_ (by decide)
  have eflags_at : Window.offset (base - 8#32) (base + 56#32) = 4*16 := at_ (by decide)
  have eip_at : Window.offset (base - 16#32) (base + 52#32) = 4*17 := at_ (by decide)
  have edi_at : Window.offset (base - 20#32) (base + 4#32) = 4*6 := at_ (by decide)
  have esi_at : Window.offset (base - 20#32) (base + 8#32) = 4*7 := at_ (by decide)
  have ebp_at : Window.offset (base - 20#32) (base + 12#32) = 4*8 := at_ (by decide)
  have ebx_at : Window.offset (base - 20#32) (base + 20#32) = 4*10 := at_ (by decide)
  have edx_at : Window.offset (base - 20#32) (base + 24#32) = 4*11 := at_ (by decide)
  have eax_at : Window.offset (base - 20#32) (base + 32#32) = 4*13 := at_ (by decide)
  have ecx_at : Window.offset (base - 20#32) (base + 28#32) = 4*12 := at_ (by decide)
  have pushed : exec ops 0 (process_context_switch.take 15) ⟨r,⟨base,to_ :: ctx.words page_directory_virtual_addr⟩⟩ =
      some ⟨returning ctx r base,⟨base - 20,returnWords ctx ++ to_ :: ctx.words page_directory_virtual_addr⟩⟩ := by
    simp [returning,process_context_switch,exec,step,skips,Registers.get,Registers.set,Registers.setSeg,Window.push_ops,
      Window.CAPACITY,Context.words,CPURegister.words,returnWords,USER_CODE,USER_DATA,sub_sub,top,add_assoc,
      Window.load_ops esp_at,Window.load_ops eflags_at,Window.load_ops eip_at]
  have straight : (process_context_switch.take 15).all (!·.jumps) = true := rfl
  calc exec ops 0 process_context_switch ⟨r,⟨base,to_ :: ctx.words page_directory_virtual_addr⟩⟩
      = exec ops 0 (process_context_switch.drop 15) ⟨returning ctx r base,
          ⟨base - 20,returnWords ctx ++ to_ :: ctx.words page_directory_virtual_addr⟩⟩ := by
        rw [← List.take_append_drop 15 process_context_switch,exec_append ops straight,pushed,Option.bind_some,
          List.take_append_drop]
    _ = iret ops ⟨{resumed ctx with
            esp := base - 20
            ss := r.ss
            cs := r.cs
            eflags := r.eflags
            eip := r.eip},⟨base - 20,returnWords ctx ++ to_ :: ctx.words page_directory_virtual_addr⟩⟩ := by
        simp [process_context_switch,exec,step,skips,Registers.get,Registers.set,Context.words,CPURegister.words,
          returnWords,returning,resumed,add_assoc,Window.load_ops edi_at,Window.load_ops esi_at,Window.load_ops ebp_at,
          Window.load_ops ebx_at,Window.load_ops edx_at,Window.load_ops eax_at,Window.load_ops ecx_at]
    _ = some ⟨resumed ctx,⟨base,to_ :: ctx.words page_directory_virtual_addr⟩⟩ := by
        have inner : Registers.rpl GDT_KERNEL_CODE_SEGMENT_SELECTOR = 0 := by decide
        have outer : Registers.rpl USER_CODE ≠ 0 := by decide
        simp [iret,Window.pop_ops,returnWords,resumed,kernel,protected_,sub_add,inner,outer]

theorem context_switch_resumes (r : Registers) (ctx : Context) (to_ page_directory_virtual_addr : Word)
    (kernel : r.cs = GDT_KERNEL_CODE_SEGMENT_SELECTOR) (protected_ : ctx.eflags &&& VIRTUAL_8086 = 0) :
    (call ops to_ (ctx.words page_directory_virtual_addr) ⟨r,⟨r.esp,[]⟩⟩).bind (exec ops 0 process_context_switch) =
      some ⟨resumed ctx,⟨r.esp - 64,to_ :: ctx.words page_directory_virtual_addr⟩⟩ := by
  have called : call ops to_ (ctx.words page_directory_virtual_addr) ⟨r,⟨r.esp,[]⟩⟩ =
      some ⟨{r with esp := r.esp - 64},⟨r.esp - 64,to_ :: ctx.words page_directory_virtual_addr⟩⟩ := by
    rw [call,Window.pushAll_ops _ rfl (by simp [Window.CAPACITY,Context.words,CPURegister.words])]
    simp [Context.words,CPURegister.words]
  rw [called,Option.bind_some]
  exact context_switch_loads _ ctx _ _ _ rfl kernel protected_

theorem popad_restores (r s : Registers) (base int_number : Word) (top : s.esp = base) :
    step ops ⟨s,⟨base,savedWords r int_number⟩⟩ .popad = some ⟨{s with
      edi := r.edi
      esi := r.esi
      ebp := r.ebp
      esp := base + 32
      ebx := r.ebx
      edx := r.edx
      ecx := r.ecx
      eax := r.eax},⟨base + 32,(savedWords r int_number).drop 8⟩⟩ := by
  simp [step,popAll,Window.pop_ops,Registers.set,savedWords,savedRegisters,CPURegister.words,top,add_assoc]

theorem segments_restored (r s : Registers) (base int_number : Word) (top : s.esp = base) :
    exec ops 0 (call_generic_handler_return.drop 1) ⟨s,⟨base,(savedWords r int_number).drop 8⟩⟩ = iret ops ⟨{s with
      esp := base + 24
      gs := r.gs
      fs := r.fs
      es := r.es
      ds := r.ds
      eflags := addFlags (base + 16) 8 s.eflags},⟨base + 16,(savedWords r int_number).drop 12⟩⟩ := by
  simp [call_generic_handler_return,exec,step,skips,Window.pop_ops,Registers.get,Registers.set,Registers.setSeg,savedWords,
    savedRegisters,CPURegister.words,top,add_assoc]

-- The other way out of the stub, when the handler returns: whatever it left in the
-- registers, the interrupted process gets its own back.
theorem stub_returns (r s : Registers) (base int_number : Word) (top : s.esp = base)
    (kernel : s.cs = GDT_KERNEL_CODE_SEGMENT_SELECTOR) (outer : r.cs = USER_CODE) (protected_ : r.eflags &&& VIRTUAL_8086 = 0) :
    exec ops 0 call_generic_handler_return ⟨s,⟨base,savedWords r int_number⟩⟩ =
      some ⟨{r with eflags := (r.eflags &&& WRITABLE) ||| ALWAYS},⟨base + 76,[]⟩⟩ := by
  have inner : Registers.rpl GDT_KERNEL_CODE_SEGMENT_SELECTOR = 0 := by decide
  have outside : Registers.rpl r.cs ≠ 0 := by
    rw [outer]
    decide
  -- add esp, 8 has passed over two doublewords.
  have eip_at : Window.offset (base + 48#32) (base + 56#32) = 4*2 := by
    rw [Window.offset,add_sub_add_left_eq_sub]
    decide
  calc exec ops 0 call_generic_handler_return ⟨s,⟨base,savedWords r int_number⟩⟩
      = (step ops ⟨s,⟨base,savedWords r int_number⟩⟩ .popad).bind (exec ops 0 (call_generic_handler_return.drop 1)) := rfl
    _ = iret ops ⟨{r with
            esp := base + 32 + 24
            ss := s.ss
            cs := s.cs
            eflags := addFlags (base + 32 + 16) 8 s.eflags
            eip := s.eip},⟨base + 32 + 16,(savedWords r int_number).drop 12⟩⟩ := by
        rw [popad_restores r s base int_number top,Option.bind_some,segments_restored _ _ _ _ rfl]
    _ = some ⟨{r with eflags := (r.eflags &&& WRITABLE) ||| ALWAYS},⟨base + 76,[]⟩⟩ := by
        have found : (savedWords r int_number).drop 12 =
            [int_number,0,r.eip,r.cs.setWidth 32,r.eflags,r.esp,r.ss.setWidth 32] := rfl
        simp [iret,found,Window.pop_at eip_at,Window.pop_ops,kernel,protected_,add_assoc,inner,outside]

end Sosis.Kernel
