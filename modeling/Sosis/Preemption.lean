import Sosis.ContextSwitch
import Sosis.ProcessTable

-- The timer interrupt as a whole: from one process through the stub, the handler and
-- process_context_switch into the next. The kernel half is the same memory under every
-- page directory, so one memory stands for all of them.
namespace Sosis.Kernel
open Ia32 TransitionRuns
open Fat32 (FAT32DriverRequest)

-- The timer branch; the other interrupts do not switch.
def main_interrupt_handler (k : KernelState) (frame : InterruptFrame) : Option (Option Context × KernelState) :=
  if frame.int_number = PIC1_OFFSET + IRQ_TIMER then
    if k.active_process_count > 1 then
      let ctx : Context := ⟨frame.cpu,frame.int_stack.eip,frame.int_stack.eflags,none⟩
      (k.scheduler_save_context_to_current_running_pcb ctx).bind fun k =>
        k.scheduler_switch_to_next_process.map fun (ctx,k) => (some ctx,k)
    else some (none,k)
  else none

-- What a process has in its registers, apart from the selectors.
structure Snapshot where
  edi : Word
  esi : Word
  ebp : Word
  esp : Word
  ebx : Word
  edx : Word
  ecx : Word
  eax : Word
  eip : Word
  eflags : Word

def Snapshot.ofRegisters (r : Registers) : Snapshot :=
  ⟨r.edi,r.esi,r.ebp,r.esp,r.ebx,r.edx,r.ecx,r.eax,r.eip,r.eflags⟩

def Snapshot.ofContext (ctx : Context) : Snapshot :=
  ⟨ctx.cpu.edi,ctx.cpu.esi,ctx.cpu.ebp,ctx.cpu.esp,ctx.cpu.ebx,ctx.cpu.edx,ctx.cpu.ecx,ctx.cpu.eax,ctx.eip,ctx.eflags⟩

-- A value the flags register of a process can have: the reserved bits are fixed, and
-- it is not in virtual-8086 mode.
def Flags (eflags : Word) : Prop := (eflags &&& WRITABLE) ||| ALWAYS = eflags

structure UserMode (r : Registers) : Prop where
  cs : r.cs = USER_CODE
  ss : r.ss = USER_DATA
  ds : r.ds = USER_DATA
  es : r.es = USER_DATA
  fs : r.fs = USER_DATA
  gs : r.gs = USER_DATA
  eflags : Flags r.eflags

-- One timer interrupt: the registers and the memory it finds, the kernel stack, the
-- processor as the compiled handler leaves it where it calls process_context_switch
-- or returns, and the two addresses that the call pushes.
structure Tick where
  user : Registers
  memory : Memory
  esp0 : Word
  compiled : State Memory
  to_ : Word
  page_directory_virtual_addr : Word

-- The kernel, the registers the running process was last resumed with, and for each
-- slot what its process is to find: its registers at its last timer interrupt, or
-- those it was created with, and the directory and mapping it was created with.
structure Machine where
  kernel : KernelState
  registers : Registers
  last : Slot → Snapshot
  directory : Slot → Option PageDirectoryPtr
  mapping : Slot → Option PageDirectory

namespace Machine

-- The process interrupted, up to the call of main_interrupt_handler.
def stub (t : Tick) : Option (State Memory) :=
  (interrupt memoryOps GDT_KERNEL_CODE_SEGMENT_SELECTOR GDT_KERNEL_DATA_SEGMENT_SELECTOR t.esp0 ⟨t.user,t.memory⟩).bind
    (exec memoryOps 0 (interrupt_handler (PIC1_OFFSET + IRQ_TIMER) ++ call_generic_handler))

-- The way back to user mode. A handler that returns hands the stack back as it was.
def leave (t : Tick) (s : State Memory) : Option Context → Option (State Memory)
  | some ctx => (call memoryOps t.to_ (ctx.words t.page_directory_virtual_addr) t.compiled).bind
      (exec memoryOps 0 process_context_switch)
  | none => exec memoryOps 0 call_generic_handler_return
      ⟨{t.compiled.regs with esp := s.regs.esp,cs := s.regs.cs},s.memory⟩

def tick (m : Machine) (t : Tick) : Option Machine :=
  m.kernel.running.bind fun cur => (stub t).bind fun s =>
    (main_interrupt_handler m.kernel (.read s.memory s.regs.esp)).bind fun (ctx,k) => (leave t s ctx).map fun s =>
      {m with
        kernel := k
        registers := s.regs
        last := Function.update m.last cur (.ofRegisters t.user)}

def enroll (m : Machine) (k : KernelState) (i : Slot) : Machine :=
  let ctx := (k.process_list i).context
  {m with
    kernel := k
    last := Function.update m.last i (.ofContext ctx)
    directory := Function.update m.directory i ctx.page_directory_virtual_addr
    mapping := Function.update m.mapping i (ctx.page_directory_virtual_addr.map k.paging.directory)}

def create (m : Machine) (request : FAT32DriverRequest) : Option Machine :=
  (m.kernel.process_create_user_process request).bind fun (code,k) =>
    if code = PROCESS_CREATE_SUCCESS then m.kernel.process_list_get_inactive_index.map (m.enroll k)
    else some {m with kernel := k}

def destroy (m : Machine) (pid : Word) : Option Machine :=
  (m.kernel.process_destroy pid).map fun (_,k) => {m with kernel := k}

inductive Action where
  | tick (t : Tick)
  | create (request : FAT32DriverRequest)
  | destroy (pid : Word)

def Step (m : Machine) (a : Action) (m' : Machine) : Prop :=
  match a with
  | .tick t => UserMode t.user ∧ t.compiled.regs.cs = GDT_KERNEL_CODE_SEGMENT_SELECTOR ∧ m.tick t = some m'
  | .create request => m.create request = some m'
  | .destroy pid => (∃ i, m.kernel.active i = true ∧ m.kernel.pid i = pid ∧ m.kernel.cur_idx ≠ i.val) ∧
      m.destroy pid = some m'

def start (k : KernelState) (registers : Registers) : Machine where
  kernel := k
  registers := registers
  last i := .ofContext (k.process_list i).context
  directory i := (k.process_list i).context.page_directory_virtual_addr
  mapping i := (k.process_list i).context.page_directory_virtual_addr.map k.paging.directory

-- The process in slot i runs as if nothing had happened to it in between, on a
-- directory of its own.
structure Resumed (m : Machine) (i : Slot) : Prop where
  running : m.kernel.cur_idx = i.val
  active : m.kernel.active i = true
  registers : Snapshot.ofRegisters m.registers = m.last i
  user : UserMode m.registers
  directory : m.directory i = some m.kernel.cr3
  mapping : m.mapping i = some (m.kernel.paging.directory m.kernel.cr3)
  own : ∀ j, m.kernel.active j = true → m.directory j = some m.kernel.cr3 → j = i

theorem flags_protected {e : Word} (flags : Flags e) : e &&& VIRTUAL_8086 = 0 := by
  rw [← flags,BitVec.and_or_distrib_right,BitVec.and_assoc,show WRITABLE &&& VIRTUAL_8086 = 0 from by decide,
    show ALWAYS &&& VIRTUAL_8086 = 0 from by decide]
  simp

-- The flags a creation adds keep a legal value legal.
theorem flags_created {e : Word} (flags : e = 0 ∨ Flags e) :
    Flags (e ||| (CPU_EFLAGS_BASE_FLAG ||| CPU_EFLAGS_FLAG_INTERRUPT_ENABLE)) := by
  rcases flags with rfl | flags
  · unfold Flags
    decide
  · have split : CPU_EFLAGS_BASE_FLAG ||| CPU_EFLAGS_FLAG_INTERRUPT_ENABLE = ALWAYS ||| 0x200 := by decide
    have base : e ||| ALWAYS = e := by
      rw [← flags,BitVec.or_assoc,show ALWAYS ||| ALWAYS = ALWAYS from by decide]
    have added : (0x200 : Word) &&& WRITABLE = 0x200 := by decide
    rw [split,← BitVec.or_assoc,base,Flags,BitVec.and_or_distrib_right,added,BitVec.or_assoc,
      BitVec.or_comm _ ALWAYS,← BitVec.or_assoc,flags]

theorem stub_frame {t : Tick} (user : UserMode t.user) : ∃ s, stub t = some s ∧
    s.regs.cs = GDT_KERNEL_CODE_SEGMENT_SELECTOR ∧
    Window.Shows s.memory ⟨s.regs.esp,savedWords t.user (PIC1_OFFSET + IRQ_TIMER)⟩ := by
  have agree : Agree Window.Shows (⟨t.user,t.memory⟩ : State Memory) ⟨t.user,⟨t.esp0,[]⟩⟩ :=
    ⟨rfl,Window.shows_nil t.memory t.esp0⟩
  have follows := (interrupt_follows Window.refines agree GDT_KERNEL_CODE_SEGMENT_SELECTOR
    GDT_KERNEL_DATA_SEGMENT_SELECTOR t.esp0).bind fun _ _ agree => exec_follows Window.refines agree 0
      (interrupt_handler (PIC1_OFFSET + IRQ_TIMER) ++ call_generic_handler)
  obtain ⟨s,ran,regs,shows_⟩ := follows _ (stub_saves t.user _ _ t.esp0 _ user.cs user.ds)
  refine ⟨s,ran,?_,?_⟩
  · rw [regs]
    rfl
  · rw [regs]
    exact shows_

theorem frame_read {m : Memory} {a int_number : Word} {r : Registers} (shows_ : Window.Shows m ⟨a,savedWords r int_number⟩) :
    InterruptFrame.read m a = ⟨savedRegisters r,int_number,0,r.eip,r.cs.setWidth 32,r.eflags⟩ := by
  have at_ {k : Nat} {v : Word} (found : (savedWords r int_number)[k]? = some v) : word m a k = v := shows_.words k v found
  unfold InterruptFrame.read
  rw [CPURegister.read_words shows_,at_ (k := 12) rfl,at_ (k := 13) rfl,at_ (k := 14) rfl,at_ (k := 15) rfl,
    at_ (k := 16) rfl]

theorem leave_switched {t : Tick} {s : State Memory} {ctx : Context}
    (kernel : t.compiled.regs.cs = GDT_KERNEL_CODE_SEGMENT_SELECTOR) (flags : Flags ctx.eflags) :
    ∃ s', leave t s (some ctx) = some s' ∧ s'.regs = resumed ctx := by
  have agree : Agree Window.Shows t.compiled ⟨t.compiled.regs,⟨t.compiled.regs.esp,[]⟩⟩ := ⟨rfl,Window.shows_nil _ _⟩
  have follows := (pushAll_follows Window.refines agree
    (t.to_ :: ctx.words t.page_directory_virtual_addr).reverse).bind fun _ _ agree =>
      exec_follows Window.refines agree 0 process_context_switch
  obtain ⟨s',ran,regs,_⟩ := follows _ (context_switch_resumes t.compiled.regs ctx t.to_ t.page_directory_virtual_addr kernel
    (flags_protected flags))
  exact ⟨s',ran,regs⟩

theorem leave_returned {t : Tick} {s : State Memory} (user : UserMode t.user)
    (kernel : s.regs.cs = GDT_KERNEL_CODE_SEGMENT_SELECTOR)
    (shows_ : Window.Shows s.memory ⟨s.regs.esp,savedWords t.user (PIC1_OFFSET + IRQ_TIMER)⟩) :
    ∃ s', leave t s none = some s' ∧ s'.regs = t.user := by
  have agree : Agree Window.Shows (⟨{t.compiled.regs with esp := s.regs.esp,cs := s.regs.cs},s.memory⟩ : State Memory)
      ⟨_,⟨s.regs.esp,savedWords t.user (PIC1_OFFSET + IRQ_TIMER)⟩⟩ := ⟨rfl,shows_⟩
  obtain ⟨s',ran,regs,_⟩ := exec_follows Window.refines agree 0 call_generic_handler_return _
    (stub_returns t.user _ s.regs.esp _ rfl kernel user.cs (flags_protected user.eflags))
  refine ⟨s',ran,?_⟩
  rw [regs,user.eflags]

theorem snapshot_resumed {ctx : Context} (flags : Flags ctx.eflags) :
    Snapshot.ofRegisters (resumed ctx) = Snapshot.ofContext ctx := by
  unfold Snapshot.ofRegisters resumed
  rw [flags]
  rfl

theorem resumed_user {ctx : Context} (flags : Flags ctx.eflags) : UserMode (resumed ctx) := by
  refine ⟨rfl,rfl,rfl,rfl,rfl,rfl,?_⟩
  change Flags ((ctx.eflags &&& WRITABLE) ||| ALWAYS)
  rw [show (ctx.eflags &&& WRITABLE) ||| ALWAYS = ctx.eflags from flags]
  exact flags

open KernelState

-- The directory of an active process is in use, and is what was recorded for it.
structure Housed (m : Machine) (i : Slot) (d : Fin PAGING_DIRECTORY_TABLE_MAX_COUNT) : Prop where
  pcb : (m.kernel.process_list i).context.page_directory_virtual_addr = some (.list d)
  used : m.kernel.paging.page_directory_used d = true
  directory : m.directory i = some (.list d)
  mapping : m.mapping i = some (m.kernel.paging.directory (.list d))

structure Sound (m : Machine) : Prop where
  table : Table m.kernel
  running : ∃ cur : Slot, m.kernel.cur_idx = cur.val ∧ m.kernel.active cur = true
  saved : ∀ i, m.kernel.active i = true → m.kernel.cur_idx ≠ i.val →
    Snapshot.ofContext (m.kernel.process_list i).context = m.last i
  flags : ∀ i, (m.kernel.process_list i).context.eflags = 0 ∨ Flags (m.kernel.process_list i).context.eflags
  legal : ∀ i, m.kernel.active i = true → Flags (m.kernel.process_list i).context.eflags
  housed : ∀ i, m.kernel.active i = true → ∃ d, Housed m i d
  apart : ∀ i j, m.kernel.active i = true → m.kernel.active j = true → m.directory i = m.directory j → i = j

variable {m m' : Machine}

theorem Housed.kept {i : Slot} {d : Fin PAGING_DIRECTORY_TABLE_MAX_COUNT} (housed : Housed m i d)
    (pcb : (m'.kernel.process_list i).context.page_directory_virtual_addr =
      (m.kernel.process_list i).context.page_directory_virtual_addr)
    (used : m'.kernel.paging.page_directory_used d = m.kernel.paging.page_directory_used d)
    (table : m'.kernel.paging.directory (.list d) = m.kernel.paging.directory (.list d))
    (directory : m'.directory i = m.directory i) (mapping : m'.mapping i = m.mapping i) : Housed m' i d :=
  ⟨pcb.trans housed.pcb,used.trans housed.used,directory.trans housed.directory,
    mapping.trans (housed.mapping.trans (congrArg some table.symm))⟩

section created
variable {request : FAT32DriverRequest} {k : KernelState} {i : Slot} {d : Fin PAGING_DIRECTORY_TABLE_MAX_COUNT}
  {opened : PagingState}

theorem enrolled_housed (created : Created m.kernel k request i d opened) : Housed (m.enroll k i) i d := by
  obtain ⟨used,_,_⟩ := mapPages_frame created.mapped
  refine ⟨created.directory,?_,?_,?_⟩
  · change k.paging.page_directory_used d = true
    rw [used,created.opens.used,Function.update_self]
  · simp only [enroll,Function.update_self,created.directory]
  · simp only [enroll,Function.update_self,created.directory,Option.map_some]

theorem enrolled_others (created : Created m.kernel k request i d opened) {j : Slot} (active : k.active j = true)
    (other : j ≠ i) : m.kernel.active j = true :=
  created.active_other other ▸ active

-- A new process gets a directory that was not in use, so nobody else's.
theorem Housed.created {j : Slot} {d' : Fin PAGING_DIRECTORY_TABLE_MAX_COUNT} (housed : Housed m j d')
    (created : Created m.kernel k request i d opened) (other : j ≠ i) : d' ≠ d ∧ Housed (m.enroll k i) j d' := by
  obtain ⟨used,_,tables⟩ := mapPages_frame created.mapped
  have different : d' ≠ d := by
    rintro rfl
    have unused := created.opens.unused
    rw [housed.used] at unused
    cases unused
  have table : k.paging.directory (.list d') = m.kernel.paging.directory (.list d') := by
    have elsewhere : PageDirectoryPtr.list d' ≠ .list d := fun same => different (PageDirectoryPtr.list.inj same)
    rw [tables _ elsewhere]
    funext page
    exact created.opens.others _ page (Or.inl elsewhere)
  have pcb := congrArg (fun pcb => pcb.context.page_directory_virtual_addr) (created.others j other)
  refine ⟨different,housed.kept pcb ?_ table (Function.update_of_ne other _ _) (Function.update_of_ne other _ _)⟩
  change k.paging.page_directory_used d' = _
  rw [used,created.opens.used,Function.update_of_ne different]

theorem Sound.unlike_created (sound : Sound m) (created : Created m.kernel k request i d opened) {j : Slot}
    (active : k.active j = true) (other : j ≠ i) : (m.enroll k i).directory j ≠ (m.enroll k i).directory i := by
  obtain ⟨d',housed⟩ := sound.housed j (enrolled_others created active other)
  obtain ⟨different,kept⟩ := housed.created created other
  rw [kept.directory,(enrolled_housed created).directory]
  rintro ⟨⟩
  exact different rfl

theorem Sound.created_flags (sound : Sound m) (created : Created m.kernel k request i d opened) :
    Flags (k.process_list i).context.eflags := by
  rw [created.eflags]
  exact flags_created (sound.flags i)

theorem Sound.created (sound : Sound m) (created : Created m.kernel k request i d opened) : Sound (m.enroll k i) where
  table := sound.table.created created
  running := by
    obtain ⟨cur,idx,active⟩ := sound.running
    have other : cur ≠ i := by
      rintro rfl
      rw [created.inactive sound.table.count] at active
      cases active
    exact ⟨cur,created.cur_idx.trans idx,(created.active_other other).trans active⟩
  saved := by
    intro j active waiting
    by_cases same : j = i
    · subst same
      simp only [enroll,Function.update_self]
    · change Snapshot.ofContext (k.process_list j).context = Function.update m.last i _ j
      rw [Function.update_of_ne same,created.others j same]
      exact sound.saved j (enrolled_others created active same) (created.cur_idx ▸ waiting)
  flags := by
    intro j
    by_cases same : j = i
    · subst same
      exact Or.inr (sound.created_flags created)
    · change (k.process_list j).context.eflags = 0 ∨ Flags (k.process_list j).context.eflags
      rw [created.others j same]
      exact sound.flags j
  legal := by
    intro j active
    by_cases same : j = i
    · subst same
      exact sound.created_flags created
    · change Flags (k.process_list j).context.eflags
      rw [created.others j same]
      exact sound.legal j (enrolled_others created active same)
  housed := by
    intro j active
    by_cases same : j = i
    · subst same
      exact ⟨d,enrolled_housed created⟩
    · obtain ⟨d',housed⟩ := sound.housed j (enrolled_others created active same)
      exact ⟨d',(housed.created created same).2⟩
  apart := by
    intro j j' active active' same
    by_cases here : j = i <;> by_cases there : j' = i
    · exact here.trans there.symm
    · exact absurd (here ▸ same.symm) (sound.unlike_created created active' there)
    · exact absurd (there ▸ same) (sound.unlike_created created active here)
    · refine sound.apart j j' (enrolled_others created active here) (enrolled_others created active' there) ?_
      simpa [enroll,here,there] using same

end created

-- A destruction touches no directory but the one of the process destroyed.
theorem destroyed_elsewhere {k k' : KernelState} {pid : Word} {i : Slot} {d d' : Fin PAGING_DIRECTORY_TABLE_MAX_COUNT}
    (destroyed : Destroyed k k' pid i) (pcb : (k.process_list i).context.page_directory_virtual_addr = some (.list d))
    (other : d' ≠ d) : k'.paging.page_directory_used d' = k.paging.page_directory_used d' ∧
      k'.paging.directory (.list d') = k.paging.directory (.list d') := by
  obtain ⟨page_dir,released,r,directory,frees,freed⟩ := destroyed.paging
  cases pcb.symm.trans directory
  have elsewhere : PageDirectoryPtr.list d' ≠ .list d := fun same => other (PageDirectoryPtr.list.inj same)
  rcases paging_free_page_directory_cases freed with ⟨kernel,_⟩ | ⟨_,same,cleared,_⟩
  · cases kernel
  · cases same
    refine ⟨?_,(cleared.other elsewhere).trans (frees.other elsewhere)⟩
    rw [cleared.used]
    exact (Function.update_of_ne other _ _).trans (congrFun frees.used d')

theorem Sound.destroyed (sound : Sound m) {pid : Word} {k : KernelState} {i : Slot}
    (destroyed : Destroyed m.kernel k pid i) (active : m.kernel.active i = true) (waiting : m.kernel.cur_idx ≠ i.val) :
    Sound {m with kernel := k} := by
  obtain ⟨d,own⟩ := sound.housed i active
  have before {j : Slot} (now : k.active j = true) : j ≠ i ∧ m.kernel.active j = true := by
    rw [← mem_actives,destroyed.actives] at now
    exact ⟨Finset.ne_of_mem_erase now,mem_actives.mp (Finset.mem_of_mem_erase now)⟩
  have contexts := destroyed.context_kept
  refine ⟨sound.table.destroyed destroyed active,?_,fun j now idle => ?_,fun j => ?_,fun j now => ?_,fun j now => ?_,
    fun j j' now now' same => sound.apart j j' (before now).2 (before now').2 same⟩
  · obtain ⟨cur,idx,running⟩ := sound.running
    have other : cur ≠ i := by
      rintro rfl
      exact waiting idx
    refine ⟨cur,destroyed.cur_idx.trans idx,?_⟩
    change k.active cur = true
    rw [← mem_actives,destroyed.actives]
    exact Finset.mem_erase.mpr ⟨other,mem_actives.mpr running⟩
  · change Snapshot.ofContext (k.process_list j).context = m.last j
    rw [contexts]
    exact sound.saved j (before now).2 (destroyed.cur_idx ▸ idle)
  · change (k.process_list j).context.eflags = 0 ∨ Flags (k.process_list j).context.eflags
    rw [contexts]
    exact sound.flags j
  · change Flags (k.process_list j).context.eflags
    rw [contexts]
    exact sound.legal j (before now).2
  · obtain ⟨other,still⟩ := before now
    obtain ⟨d',housed⟩ := sound.housed j still
    have different : d' ≠ d := by
      rintro rfl
      exact other (sound.apart j i still active (housed.directory.trans own.directory.symm))
    obtain ⟨used,table⟩ := destroyed_elsewhere destroyed own.pcb different
    exact ⟨d',housed.kept (congrArg _ (contexts j)) used table rfl rfl⟩

-- The handler between the two halves of assembly.
theorem main_interrupt_cases {k k' : KernelState} {frame : InterruptFrame} {next : Option Context}
    (ran : main_interrupt_handler k frame = some (next,k')) :
    k.active_process_count ≤ 1 ∧ next = none ∧ k' = k ∨
      k.active_process_count > 1 ∧ ∃ cur i middle ctx, next = some ctx ∧
        Saved k middle cur ⟨frame.cpu,frame.int_stack.eip,frame.int_stack.eflags,none⟩ ∧ Switched middle k' i ctx := by
  unfold main_interrupt_handler at ran
  split at ran
  · split at ran
    · rename_i several
      obtain ⟨middle,saves,ran⟩ := Option.bind_eq_some_iff.mp ran
      obtain ⟨⟨ctx,k''⟩,switches,same⟩ := Option.map_eq_some_iff.mp ran
      cases same
      obtain ⟨cur,saved⟩ := save_cases saves
      obtain ⟨i,switched⟩ := switch_cases switches
      exact Or.inr ⟨several,cur,i,middle,ctx,rfl,saved,switched⟩
    · rename_i few
      cases ran
      exact Or.inl ⟨by omega,rfl,rfl⟩
  · cases ran

-- Only the context of the slot that ran changes, and not its directory.
structure Preempted (k k' : KernelState) (cur i : Slot) (interrupted ctx : Context) : Prop where
  running : k.cur_idx = cur.val
  actives : ∀ j, k'.active j = k.active j
  saved : (k'.process_list cur).context = {(k.process_list cur).context with
    cpu := interrupted.cpu
    eflags := interrupted.eflags
    eip := interrupted.eip}
  others : ∀ j, j ≠ cur → (k'.process_list j).context = (k.process_list j).context
  paging : k'.paging = k.paging
  resumes : ctx = (k'.process_list i).context
  active : k.active i = true
  cur_idx : k'.cur_idx = i.val
  cr3 : ctx.page_directory_virtual_addr = some k'.cr3

theorem Preempted.of_saved {k middle k' : KernelState} {cur i : Slot} {interrupted ctx : Context}
    (saved : Saved k middle cur interrupted) (switched : Switched middle k' i ctx) : Preempted k k' cur i interrupted ctx := by
  have actives (j : Slot) : middle.active j = k.active j := congrArg Metadata.active (saved.metadata j)
  have contexts := switched.alike.contexts
  refine ⟨saved.running,fun j => (switched.alike.actives j).trans (actives j),(contexts cur).trans saved.context,
    fun j other => ?_,switched.alike.paging.trans saved.paging,switched.context.trans (contexts i).symm,
    (actives i).symm.trans switched.active,switched.cur_idx,switched.directory⟩
  rw [contexts,saved.others j other]

theorem Preempted.pcb {k k' : KernelState} {cur i : Slot} {interrupted ctx : Context}
    (preempted : Preempted k k' cur i interrupted ctx) (j : Slot) :
    (k'.process_list j).context.page_directory_virtual_addr = (k.process_list j).context.page_directory_virtual_addr := by
  by_cases same : j = cur
  · rw [same,preempted.saved]
  · rw [preempted.others j same]

def switchedTo (m : Machine) (k : KernelState) (r user : Registers) (cur : Slot) : Machine :=
  {m with
    kernel := k
    registers := r
    last := Function.update m.last cur (.ofRegisters user)}

theorem Sound.preempted (sound : Sound m) {k middle : KernelState} {cur i : Slot} {interrupted ctx : Context} {r user : Registers}
    (saved : Saved m.kernel middle cur interrupted) (switched : Switched middle k i ctx)
    (same : Snapshot.ofContext interrupted = .ofRegisters user) (flags : Flags interrupted.eflags) :
    Sound (m.switchedTo k r user cur) := by
  have preempted := Preempted.of_saved saved switched
  have before {j : Slot} (active : k.active j = true) : m.kernel.active j = true := preempted.actives j ▸ active
  refine ⟨(sound.table.saved saved).alike switched.alike,?_,fun j active _ => ?_,fun j => ?_,fun j active => ?_,
    fun j active => ?_,fun j j' active active' => sound.apart j j' (before active) (before active')⟩
  · exact ⟨i,preempted.cur_idx,(preempted.actives i).trans preempted.active⟩
  · change Snapshot.ofContext (k.process_list j).context = Function.update m.last cur (.ofRegisters user) j
    by_cases here : j = cur
    · rw [here,Function.update_self,preempted.saved]
      exact same
    · rw [Function.update_of_ne here,preempted.others j here]
      refine sound.saved j (before active) fun running => here (Fin.ext ?_)
      exact_mod_cast running.symm.trans preempted.running
  · change (k.process_list j).context.eflags = 0 ∨ Flags (k.process_list j).context.eflags
    by_cases here : j = cur
    · rw [here,preempted.saved]
      exact Or.inr flags
    · rw [preempted.others j here]
      exact sound.flags j
  · change Flags (k.process_list j).context.eflags
    by_cases here : j = cur
    · rw [here,preempted.saved]
      exact flags
    · rw [preempted.others j here]
      exact sound.legal j (before active)
  · obtain ⟨d,housed⟩ := sound.housed j (before active)
    have paging := preempted.paging
    exact ⟨d,housed.kept (preempted.pcb j) (congrArg (·.page_directory_used d) paging)
      (congrArg (·.directory (.list d)) paging) rfl rfl⟩

-- In a sound state, what is loaded from a waiting process's block is what was
-- recorded for it.
theorem Sound.resumed (sound : Sound m) {i : Slot} {ctx : Context} (running : m.kernel.cur_idx = i.val)
    (active : m.kernel.active i = true) (context : ctx = (m.kernel.process_list i).context)
    (saved : Snapshot.ofContext ctx = m.last i) (cr3 : ctx.page_directory_virtual_addr = some m.kernel.cr3)
    (registers : m.registers = Kernel.resumed ctx) : Resumed m i := by
  have flags : Flags ctx.eflags := context ▸ sound.legal i active
  obtain ⟨d,housed⟩ := sound.housed i active
  have here : m.kernel.cr3 = .list d := by
    rw [context,housed.pcb] at cr3
    exact (Option.some.inj cr3).symm
  refine ⟨running,active,?_,registers ▸ resumed_user flags,here ▸ housed.directory,here ▸ housed.mapping,
    fun j active' same => ?_⟩
  · rw [registers,snapshot_resumed flags,saved]
  · refine sound.apart j i active' active ?_
    rw [same,housed.directory,here]

-- A tick either comes straight back or saves the process that ran and loads another;
-- the registers loaded are the ones in the block as long as its flags are legal.
theorem tick_cases {t : Tick} (user : UserMode t.user) (kernel : t.compiled.regs.cs = GDT_KERNEL_CODE_SEGMENT_SELECTOR)
    (ticked : m.tick t = some m') : ∃ cur : Slot, m.kernel.cur_idx = cur.val ∧
      (m.kernel.active_process_count ≤ 1 ∧ m' = m.switchedTo m.kernel t.user t.user cur ∨
        m.kernel.active_process_count > 1 ∧ ∃ i middle k ctx r,
          Saved m.kernel middle cur ⟨savedRegisters t.user,t.user.eip,t.user.eflags,none⟩ ∧ Switched middle k i ctx ∧
            (Flags ctx.eflags → r = resumed ctx) ∧ m' = m.switchedTo k r t.user cur) := by
  obtain ⟨cur,running,ticked⟩ := Option.bind_eq_some_iff.mp ticked
  obtain ⟨s,stubbed,kernelStub,shows_⟩ := stub_frame user
  rw [stubbed,Option.bind_some,frame_read shows_] at ticked
  obtain ⟨⟨next,k⟩,handled,ticked⟩ := Option.bind_eq_some_iff.mp ticked
  obtain ⟨s',left_,same⟩ := Option.map_eq_some_iff.mp ticked
  cases same
  refine ⟨cur,running_val running,?_⟩
  rcases main_interrupt_cases handled with ⟨few,rfl,rfl⟩ | ⟨several,cur',i,middle,ctx,rfl,saved,switched⟩
  · obtain ⟨s'',returned,regs⟩ := leave_returned user kernelStub shows_
    cases left_.symm.trans returned
    exact Or.inl ⟨few,by rw [← regs]; rfl⟩
  · have same : cur' = cur := Fin.ext (by exact_mod_cast saved.running.symm.trans (running_val running))
    subst same
    refine Or.inr ⟨several,i,middle,k,ctx,s'.regs,saved,switched,fun flags => ?_,rfl⟩
    obtain ⟨s'',switchedBack,regs⟩ := leave_switched kernel flags
    cases left_.symm.trans switchedBack
    exact regs

theorem Sound.returned (sound : Sound m) {r user : Registers} {cur : Slot} (running : m.kernel.cur_idx = cur.val) :
    Sound (m.switchedTo m.kernel r user cur) := by
  refine ⟨sound.table,sound.running,fun j active waiting => ?_,sound.flags,sound.legal,fun j active => ?_,sound.apart⟩
  · have other : j ≠ cur := fun same => waiting (same ▸ running)
    exact (sound.saved j active waiting).trans (Function.update_of_ne other _ _).symm
  · obtain ⟨d,housed⟩ := sound.housed j active
    exact ⟨d,housed.kept rfl rfl rfl rfl rfl⟩

theorem Sound.ticked (sound : Sound m) {t : Tick} (user : UserMode t.user)
    (kernel : t.compiled.regs.cs = GDT_KERNEL_CODE_SEGMENT_SELECTOR) (ticked : m.tick t = some m') :
    Sound m' ∧ (m.kernel.active_process_count ≤ 1 → m'.kernel = m.kernel ∧ m'.registers = t.user) ∧
      (m.kernel.active_process_count > 1 → ∃ i, Resumed m' i) := by
  obtain ⟨cur,running,⟨few,rfl⟩ | ⟨several,i,middle,k,ctx,r,saved,switched,loaded,rfl⟩⟩ := tick_cases user kernel ticked
  · exact ⟨sound.returned running,fun _ => ⟨rfl,rfl⟩,fun several => absurd few (Int.not_le.mpr several)⟩
  · have after : Sound (m.switchedTo k r t.user cur) := sound.preempted saved switched rfl user.eflags
    refine ⟨after,fun few => absurd few (Int.not_le.mpr several),fun _ => ⟨i,?_⟩⟩
    have preempted := Preempted.of_saved saved switched
    have active : k.active i = true := (preempted.actives i).trans preempted.active
    refine after.resumed preempted.cur_idx active preempted.resumes ?_ preempted.cr3
      (loaded (preempted.resumes ▸ after.legal i active))
    change Snapshot.ofContext ctx = Function.update m.last cur (.ofRegisters t.user) i
    rw [preempted.resumes]
    by_cases here : i = cur
    · rw [here,Function.update_self,preempted.saved]
      rfl
    · rw [Function.update_of_ne here,preempted.others i here]
      refine sound.saved i preempted.active fun same => here (Fin.ext ?_)
      exact_mod_cast same.symm.trans running

theorem Sound.tick_defined (sound : Sound m) {t : Tick} (user : UserMode t.user)
    (kernel : t.compiled.regs.cs = GDT_KERNEL_CODE_SEGMENT_SELECTOR) : ∃ m', m.tick t = some m' := by
  obtain ⟨cur,at_,active⟩ := sound.running
  obtain ⟨s,stubbed,kernelStub,shows_⟩ := stub_frame user
  simp only [tick,running_of_val at_,stubbed,Option.bind_some,frame_read shows_,main_interrupt_handler,if_true]
  by_cases several : m.kernel.active_process_count > 1
  · rw [if_pos several]
    cases saves : m.kernel.scheduler_save_context_to_current_running_pcb
        ⟨savedRegisters t.user,t.user.eip,t.user.eflags,none⟩ with
    | none => simp [scheduler_save_context_to_current_running_pcb,running_of_val at_] at saves
    | some middle =>
      obtain ⟨cur',saved⟩ := save_cases saves
      have actives (j : Slot) : middle.active j = m.kernel.active j := congrArg Metadata.active (saved.metadata j)
      have directory (j : Slot) (active : middle.active j = true) :
          (middle.process_list j).context.page_directory_virtual_addr ≠ none := by
        obtain ⟨d,housed⟩ := sound.housed j (actives j ▸ active)
        rw [saved.directory,housed.pcb]
        exact Option.some_ne_none _
      obtain ⟨ctx,k,switches⟩ := switch_defined ((actives cur).trans active) directory
      obtain ⟨i,switched⟩ := switch_cases switches
      have after : Sound (m.switchedTo k t.user t.user cur') := sound.preempted saved switched rfl user.eflags
      have preempted := Preempted.of_saved saved switched
      have active' : k.active i = true := (preempted.actives i).trans preempted.active
      obtain ⟨s',switchedBack,_⟩ := leave_switched (s := s) kernel (preempted.resumes ▸ after.legal i active')
      exact ⟨_,by rw [Option.bind_some,switches,Option.map_some,Option.bind_some,switchedBack,Option.map_some]⟩
  · obtain ⟨s',returned,_⟩ := leave_returned user kernelStub shows_
    exact ⟨_,by rw [if_neg several,Option.bind_some,returned,Option.map_some]⟩

theorem Sound.stepped (sound : Sound m) {a : Action} (step : Step m a m') : Sound m' := by
  cases a with
  | tick t =>
    obtain ⟨user,kernel,ticked⟩ := step
    exact (sound.ticked user kernel ticked).1
  | create request =>
    obtain ⟨⟨code,k⟩,creates,same⟩ := Option.bind_eq_some_iff.mp step
    rcases create_cases creates with ⟨failed,rfl⟩ | ⟨rfl,i,d,opened,created⟩
    · dsimp only at same
      rw [if_neg failed] at same
      cases same
      exact sound
    · dsimp only at same
      rw [if_pos rfl,created.slot] at same
      cases same
      exact sound.created created
  | destroy pid =>
    obtain ⟨⟨i,active,named,waiting⟩,step⟩ := step
    obtain ⟨⟨answer,k⟩,destroys,same⟩ := Option.map_eq_some_iff.mp step
    cases same
    rcases destroy_cases destroys with ⟨_,_,unknown⟩ | ⟨_,j,destroyed⟩
    · exact absurd named (unknown i)
    · cases sound.table.destroyed_unique destroyed named
      exact sound.destroyed destroyed active waiting

-- After kernel_setup the shell is the only process, and it runs.
theorem Sound.booted {k : KernelState} (booted : kernel_setup = some k) (registers : Registers) : Sound (start k registers) := by
  have table := setup_table booted
  simp only [kernel_setup,Option.bind_eq_bind,Option.bind_eq_some_iff] at booted
  obtain ⟨⟨code,before⟩,creates,⟨ctx,after⟩,switches,same⟩ := booted
  obtain rfl : k = after := (Option.some.inj same).symm
  obtain ⟨i,switched⟩ := switch_cases switches
  rcases create_cases creates with ⟨_,rfl⟩ | ⟨_,shell,d,opened,created⟩
  · cases switched.active
  · have alone {j : Slot} (active : k.active j = true) : j = shell := by
      by_contra other
      rw [switched.alike.actives,created.active_other other] at active
      cases active
    have contexts := switched.alike.contexts
    have flags : Flags (k.process_list shell).context.eflags := by
      rw [contexts,created.eflags]
      exact flags_created (Or.inl rfl)
    have pcb : (k.process_list shell).context.page_directory_virtual_addr = some (.list d) := by
      rw [contexts]
      exact created.directory
    have used : k.paging.page_directory_used d = true := by
      rw [switched.alike.paging,(mapPages_frame created.mapped).1,created.opens.used,Function.update_self]
    refine ⟨table,⟨i,switched.cur_idx,(switched.alike.actives i).trans switched.active⟩,fun _ _ _ => rfl,fun j => ?_,
      fun j active => ?_,fun j active => ?_,fun j j' active active' _ => (alone active).trans (alone active').symm⟩
    · by_cases here : j = shell
      · exact Or.inr (here ▸ flags)
      · refine Or.inl ?_
        change (k.process_list j).context.eflags = 0
        rw [contexts,created.others j here]
        rfl
    · exact alone active ▸ flags
    · cases alone active
      exact ⟨d,pcb,used,pcb,congrArg (Option.map k.paging.directory) pcb⟩

-- Whatever the other processes did since a process was last interrupted, it goes on
-- from there.
theorem preemption_transparent {k : KernelState} (booted : kernel_setup = some k) (registers : Registers)
    {history : List (Transition Machine Action)} (run : Run Step (start k registers) history m) :
    ∀ t ∈ history, ∀ taken, t.action = .tick taken →
      (t.before.kernel.active_process_count > 1 → ∃ i, Resumed t.after i) ∧
      (t.before.kernel.active_process_count ≤ 1 → t.after.kernel = t.before.kernel ∧ t.after.registers = taken.user) := by
  intro t member taken same
  obtain ⟨step,earlier,reached,_⟩ := run.recorded member
  have sound : Sound t.before := reached.invariant (.booted booted registers) fun _ _ _ sound step => sound.stepped step
  rw [same] at step
  obtain ⟨user,kernel,ticked⟩ := step
  obtain ⟨_,few,several⟩ := sound.ticked user kernel ticked
  exact ⟨several,few⟩

def numberedTick : Tick where
  user := ⟨1,2,3,4,5,6,7,8,USER_DATA,USER_DATA,USER_DATA,USER_DATA,USER_DATA,USER_CODE,0x202,9⟩
  memory := fun _ => 0
  esp0 := 0xC0200000
  compiled := ⟨⟨0,0,0,0xC01FFF00,0,0,0,0,0,0,0,0,0,GDT_KERNEL_CODE_SEGMENT_SELECTOR,0x2,0⟩,fun _ => 0⟩
  to_ := 0
  page_directory_virtual_addr := 0

theorem preemption_transparent_helper : ∃ k history m, kernel_setup = some k ∧
    Run Step (start k numberedTick.user) history m ∧ history.map Transition.action = [.create helperRequest,.tick numberedTick] ∧
    ∃ i, Resumed m i := by
  have two : (kernel_setup.bind (·.process_create_user_process helperRequest)).any
      (fun (code,k) => code = PROCESS_CREATE_SUCCESS ∧ k.active_process_count = 2) = true := by decide +kernel
  obtain ⟨⟨code,k'⟩,creates,two⟩ := Option.any_eq_true _ _ |>.mp two
  obtain ⟨rfl,count⟩ := of_decide_eq_true two
  obtain ⟨k,booted,creates⟩ := Option.bind_eq_some_iff.mp creates
  have sound : Sound (start k numberedTick.user) := .booted booted _
  rcases create_cases creates with ⟨failed,_⟩ | ⟨_,i,d,opened,created⟩
  · exact absurd rfl failed
  · have first : Step (start k numberedTick.user) (.create helperRequest) ((start k numberedTick.user).enroll k' i) :=
      Option.bind_eq_some_iff.mpr ⟨_,creates,by dsimp only; rw [if_pos rfl]; exact congrArg _ created.slot⟩
    have user : UserMode numberedTick.user := ⟨rfl,rfl,rfl,rfl,rfl,rfl,by unfold Flags; decide⟩
    obtain ⟨m,ticked⟩ := (sound.stepped first).tick_defined user rfl
    have second : Step ((start k numberedTick.user).enroll k' i) (.tick numberedTick) m := ⟨user,rfl,ticked⟩
    have run := (Run.single first).append (Run.single second)
    refine ⟨k,_,m,booted,run,rfl,?_⟩
    refine (preemption_transparent booted _ run _ (List.mem_append_right _ (List.mem_singleton.mpr rfl)) _ rfl).1 ?_
    change k'.active_process_count > 1
    rw [count]
    decide

end Machine

end Sosis.Kernel
