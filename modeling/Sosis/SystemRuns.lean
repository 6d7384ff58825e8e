import Sosis.SystemCalls

-- The system from kernel_setup on, with the stores of the processes and all interrupts in
-- any order: a system call whose pointers keep off the kernel's page stores to the pages of
-- the process that made it and to no others, so what a process sees is changed by itself
-- alone.
namespace Sosis.Kernel
open AddressSpaces TransitionRuns PagingState
open ByteRecords (Byte Bytes)
open Console (Session Terminal)
open Fat32 (Word Memory Disk DriverState FAT32DriverRequest FsAction)

inductive SystemAction where
  | store (a : Word) (v : Byte)
  | interrupt (frame : InterruptFrame) (around : Surroundings)

-- The steps in which a process works on its own memory.
def SystemAction.Own : SystemAction → Prop
  | .store _ _ => True
  | .interrupt frame _ => frame.int_number = SYSCALL

namespace System

def power (s : DriverState) (memory : Word → Byte) : System where
  computer := .power s memory
  session := .cleared memory ⟨false,false,0,false,false,false⟩
  buffer := .initial
  shell_state := .initial
  cwd_table := Fat32.zeroTable

-- From initialize_filesystem_fat32 on. What init_terminal shows is cleared again.
def kernel_setup (disk : Disk) (memory : Word → Byte) : Option System :=
  let m := power (Fat32.initialize_filesystem_fat32 ⟨disk,fun _ => 0⟩) memory
  ((m.computer.operate (.call .init)).bind fun computer => computer.operate (.call .first)).map m.withComputer

def operate (m : System) : SystemAction → Except Stop System
  | .store a v => (orStop .pageFault (m.computer.operate (.store a v))).map m.withComputer
  | .interrupt frame around => m.main_interrupt_handler frame around

-- The kernel follows a pointer into its own page.
def Strays (m : System) (x : SystemAction) : Bool :=
  match m.operate x with
  | .error .kernelPage => true
  | _ => false

-- Nothing is known of a system whose kernel has strayed.
inductive Step (m : System) (x : SystemAction) (m' : System) : Prop where
  | ran : m.operate x = .ok m' → Step m x m'
  | strayed : m.Strays x = true → Step m x m'

-- The system calls that create or destroy a process.
def processCall (m : System) (cpu : CPURegister) : Option KernelAction :=
  match cpu.eax.toNat with
  | 10 => some (.destroy 1)
  | 13 => (m.request cpu.ebx).toOption.map .create
  | 14 => some (.destroy cpu.ebx)
  | _ => none

-- Those that may change the drive.
def fileCall (m : System) (cpu : CPURegister) : Option FsAction :=
  match cpu.eax.toNat with
  | 2 => (m.request cpu.ebx).toOption.map (.write m.seen)
  | 3 => (m.request cpu.ebx).toOption.map .delete
  | _ => none

-- The calls about processes are those that keep memories apart.
def Secludes (m : System) : SystemAction → Prop
  | .store _ _ => True
  | .interrupt frame _ => frame.int_number = SYSCALL →
      ∀ a, m.processCall frame.cpu = some a → m.computer.Allows (.call a)

def Allows (m : System) (x : SystemAction) : Prop := m.Strays x = false ∧ m.Secludes x

def Next (m : System) (x : SystemAction) (m' : System) : Prop := m.Allows x ∧ m.Step x m'

theorem Next.ran {m m' : System} {x : SystemAction} (next : m.Next x m') : m.operate x = .ok m' := by
  cases next.2 with
  | ran ran => exact ran
  | strayed strayed => exact absurd (strayed.symm.trans next.1.1) (by decide)

-- The same kernel and drive, and a memory that is the same off the pages of the process
-- that runs.
structure Rewrites (m m' : System) : Prop where
  kernel : m'.kernel = m.kernel
  drive : m'.drive = m.drive
  memory : ∀ p, m.table.back p = none → m'.computer.memory p = m.computer.memory p

section rewrites
variable {m m' m'' : System} {a w : Word} {bytes : Bytes} {n : Nat} {code : Int}

theorem Rewrites.of_computer (same : m'.computer = m.computer) : Rewrites m m' :=
  ⟨congrArg Computer.kernel same,congrArg Computer.drive same,fun p _ => congrFun (congrArg Computer.memory same) p⟩

theorem Rewrites.trans (first : Rewrites m m') (second : Rewrites m' m'') : Rewrites m m'' := by
  have table : m'.table = m.table := by rw [System.table,first.kernel,System.table]
  exact ⟨second.kernel.trans first.kernel,second.drive.trans first.drive,
    fun p outside => (second.memory p (table ▸ outside)).trans (first.memory p outside)⟩

theorem remember_memory (m : System) (seen : Memory) :
    (m.remember seen).computer.memory = settle m.table.back seen m.computer.memory := by dsimp only [remember]

theorem remember_rewrites (m : System) (seen : Memory) : Rewrites m (m.remember seen) := by
  refine ⟨by dsimp only [remember,kernel],by dsimp only [remember,drive],fun p outside => ?_⟩
  rw [remember_memory]
  exact settle_outside outside

theorem store_rewrites (ran : m.store a bytes n = .ok m') : Rewrites m m' := by
  obtain ⟨_,_,rfl⟩ := map_ok.mp ran
  exact remember_rewrites _ _

theorem storeCode_rewrites (ran : m.storeCode a code = .ok m') : Rewrites m m' := store_rewrites ran

theorem storeWord_rewrites (ran : m.storeWord a w = .ok m') : Rewrites m m' := store_rewrites ran

theorem onTerminal_rewrites {print : Terminal → Option Terminal} (ran : m.onTerminal print = .ok m') : Rewrites m m' := by
  obtain ⟨t,_,rfl⟩ := map_ok.mp ran
  exact .of_computer rfl

theorem foldlM_rewrites {f : System → Slot → Except Stop System} (each : ∀ m i m', f m i = .ok m' → Rewrites m m')
    {l : List Slot} (ran : l.foldlM f m = .ok m') : Rewrites m m' := by
  induction l generalizing m with
  | nil =>
    cases ran
    exact .of_computer rfl
  | cons i rest ih =>
    rw [List.foldlM_cons] at ran
    obtain ⟨middle,first,later⟩ := bind_ok.mp ran
    exact (each m i middle first).trans (ih later)

theorem getActivePCB_rewrites {address : PageDirectoryPtr → Word} {ptr count : Word}
    (ran : m.getActivePCB address ptr count = .ok m') : Rewrites m m' := by
  obtain ⟨middle,zeroed,listed⟩ := bind_ok.mp ran
  refine (storeWord_rewrites zeroed).trans (foldlM_rewrites (fun m i m' turn => ?_) listed)
  simp only [bind_ok] at turn
  obtain ⟨_,_,copied,stored,_,_,counted⟩ := turn
  exact (store_rewrites stored).trans (storeWord_rewrites counted)

end rewrites

section calls
variable {m m' : System} {cpu : CPURegister} {around : Surroundings}

-- What a system call does apart from its stores.
inductive Serves (m : System) (cpu : CPURegister) : System → Prop where
  | plain : m.fileCall cpu = none → m.processCall cpu = none → Serves m cpu m
  | file {a code drive} : m.fileCall cpu = some a → m.processCall cpu = none → a.respond m.drive = some (code,drive) →
      Serves m cpu (m.withDrive drive)
  | process {a computer} : m.fileCall cpu = none → m.processCall cpu = some a →
      m.computer.operate (.call a) = some computer → Serves m cpu (m.withComputer computer)

theorem call_ok {a : KernelAction} : m.call a = .ok m' ↔ ∃ computer, m.computer.operate (.call a) = some computer ∧
    m.withComputer computer = m' := by
  simp only [call,map_ok,orStop_ok]

theorem syscall_cases (ran : m.syscall cpu around = .ok m') : ∃ middle, Serves m cpu middle ∧ Rewrites middle m' := by
  have file := fileCall.eq_def m cpu
  have process := processCall.eq_def m cpu
  unfold syscall at ran
  generalize cpu.eax.toNat = number at ran file process
  split at ran
  all_goals try simp only [bind_ok,orStop_ok] at ran
  · obtain ⟨request,_,⟨code,seen⟩,_,stored⟩ := ran
    exact ⟨m,.plain file process,(remember_rewrites _ _).trans (storeCode_rewrites stored)⟩
  · obtain ⟨request,_,_,_,stored⟩ := ran
    exact ⟨m,.plain file process,(remember_rewrites _ _).trans (storeCode_rewrites stored)⟩
  · obtain ⟨request,asked,⟨code,drive⟩,written,_,_,stored⟩ := ran
    refine ⟨_,.file (a := .write m.seen request) ?_ process written,storeCode_rewrites stored⟩
    rw [file,asked]
    rfl
  · obtain ⟨request,asked,⟨code,drive⟩,deleted,stored⟩ := ran
    refine ⟨_,.file (a := .delete request) ?_ process deleted,storeCode_rewrites stored⟩
    rw [file,asked]
    rfl
  · obtain ⟨taken,took,buffer,_,⟨commandShell,idxShell⟩,_,copied,stored,counted⟩ := ran
    refine ⟨m,.plain file process,(store_rewrites took).trans (.trans ?_ ((store_rewrites stored).trans
      (storeWord_rewrites counted)))⟩
    exact .of_computer (by dsimp only)
  · obtain ⟨_,_,printed⟩ := ran
    exact ⟨m,.plain file process,onTerminal_rewrites printed⟩
  · obtain ⟨_,_,printed⟩ := ran
    exact ⟨m,.plain file process,onTerminal_rewrites printed⟩
  · cases ran
    exact ⟨m,.plain file process,.of_computer rfl⟩
  · exact ⟨m,.plain file process,onTerminal_rewrites ran⟩
  · obtain ⟨_,_,_,_,printed⟩ := ran
    exact ⟨m,.plain file process,onTerminal_rewrites printed⟩
  · obtain ⟨computer,destroyed,rfl⟩ := call_ok.mp ran
    exact ⟨_,.process file process destroyed,.of_computer rfl⟩
  · obtain ⟨_,_,stored⟩ := ran
    exact ⟨m,.plain file process,storeWord_rewrites stored⟩
  · exact ⟨m,.plain file process,store_rewrites ran⟩
  · obtain ⟨request,asked,_,_,middle,called,stored⟩ := ran
    obtain ⟨computer,created,rfl⟩ := call_ok.mp called
    refine ⟨_,.process (a := .create request) file ?_ created,storeWord_rewrites stored⟩
    rw [process,asked]
    rfl
  · obtain ⟨computer,destroyed,rfl⟩ := call_ok.mp ran
    exact ⟨_,.process file process destroyed,.of_computer rfl⟩
  · exact ⟨m,.plain file process,getActivePCB_rewrites ran⟩
  · obtain ⟨_,hours,_,minutes,seconds⟩ := ran
    exact ⟨m,.plain file process,(store_rewrites hours).trans ((store_rewrites minutes).trans (store_rewrites seconds))⟩
  · obtain ⟨buffer,_,rfl⟩ := map_ok.mp ran
    exact ⟨m,.plain file process,.of_computer rfl⟩
  · obtain ⟨_,_,_,_,same⟩ := ran
    cases same
    exact ⟨m,.plain file process,.of_computer rfl⟩
  · exact ⟨m,.plain file process,storeWord_rewrites ran⟩
  · exact ⟨m,.plain file process,storeWord_rewrites ran⟩
  · exact ⟨m,.plain file process,store_rewrites ran⟩
  · exact ⟨m,.plain file process,store_rewrites ran⟩
  · obtain ⟨_,_,printed⟩ := ran
    exact ⟨m,.plain file process,onTerminal_rewrites printed⟩
  · cases ran
    refine ⟨m,.plain (file.trans ?_) (process.trans ?_),.of_computer rfl⟩
    · split
      · exact absurd rfl ‹2 = 2 → False›
      · exact absurd rfl ‹3 = 3 → False›
      · rfl
    · split
      · exact absurd rfl ‹10 = 10 → False›
      · exact absurd rfl ‹13 = 13 → False›
      · exact absurd rfl ‹14 = 14 → False›
      · rfl

end calls

section steps
variable {m m' : System} {memory : Word → Byte} {x : SystemAction}

-- Where a pointer strays from the pages of the process without a page fault, it leads into
-- the kernel's.
theorem stopAt_kernelPage {a : Word} (secure : m.kernel.Secure) (stops : m.stopAt a = some .kernelPage) : page_index a = 0x300 := by
  by_cases own : Own (m.table (page_index a)) = true
  · rw [stopAt,if_pos own] at stops
    cases stops
  · have present : m.kernel.paging.Present m.kernel.cr3 (page_index a) := by
      by_contra absent
      have bit : (m.table (page_index a)).flag.present_bit = false := Bool.eq_false_iff.mpr absent
      simp only [stopAt,if_neg own,bit] at stops
      cases stops
    by_contra other
    have frame := secure.separate.frame_ne_zero (secure.separate.sided.user_iff.mpr ⟨present,other⟩)
    exact own (Bool.and_eq_true_iff.mpr ⟨present,bne_iff_ne.mpr frame⟩)

-- What is off the pages of the running process is off every page of the others, and
-- the kernel's own.
theorem Rewrites.step (secure : m.kernel.Secure) (running : m.kernel.cur_idx ≠ -1) (rewrites : Rewrites m m') :
    (∀ i, m.kernel.active i = true → m.kernel.cur_idx ≠ i.val → m'.computer.sees i = m.computer.sees i) ∧
      ∀ p, page_index p = 0 → m'.computer.memory p = m.computer.memory p := by
  obtain ⟨cur,at_,active,directory⟩ := secure.lodged.running.resolve_left running
  refine ⟨fun i here other => ?_,fun p zero => rewrites.memory p ?_⟩
  · obtain ⟨d,own,leads⟩ := Computer.at_directory secure here
    have leads' : m'.computer.leads i userRead = m.computer.leads i userRead := by
      funext a
      have same : m'.computer.kernel = m.computer.kernel := rewrites.kernel
      rw [Computer.leads,same,Computer.leads]
    refine Computer.sees_of_leads leads' fun a p there => rewrites.memory p ?_
    by_contra some_
    obtain ⟨b,back⟩ := Option.ne_none_iff_exists'.mp some_
    rw [leads] at there
    have place := (secure.separate.same_place there (secure.separate.back_leads back)).1
    have same := secure.lodged.apart i cur here active (own.trans (place ▸ directory.symm))
    exact other (same ▸ at_)
  · by_contra some_
    obtain ⟨b,back⟩ := Option.ne_none_iff_exists'.mp some_
    exact secure.separate.not_kernel (secure.separate.back_leads back) zero

theorem processCall_calm {cpu : CPURegister} {a : KernelAction} (asked : m.processCall cpu = some a) :
    (∃ request, a = .create request) ∨ ∃ pid, a = .destroy pid := by
  unfold processCall at asked
  split at asked
  · cases asked
    exact Or.inr ⟨_,rfl⟩
  · obtain ⟨request,_,rfl⟩ := Option.map_eq_some_iff.mp asked
    exact Or.inl ⟨request,rfl⟩
  · cases asked
    exact Or.inr ⟨_,rfl⟩
  · cases asked

theorem call_cur_idx {c c' : Computer} {a : KernelAction} (calm : (∃ request, a = .create request) ∨ ∃ pid, a = .destroy pid)
    (ran : c.operate (.call a) = some c') : c'.kernel.cur_idx = c.kernel.cur_idx := by
  rcases calm with ⟨request,rfl⟩ | ⟨pid,rfl⟩
  · rcases Computer.creation_cases ran with rfl | ⟨j,d,loaded⟩
    · rfl
    · obtain ⟨_,created⟩ := loaded.created
      exact created.cur_idx
  · obtain ⟨k,destroyed,rfl⟩ := Option.map_eq_some_iff.mp ran
    exact KernelState.operate_cur_idx destroyed rfl (by simp)

structure Guarded (memory : Word → Byte) (m : System) : Prop where
  secure : m.kernel.Secure
  running : m.kernel.cur_idx ≠ -1
  kernel : ∀ p, page_index p = 0 → m.computer.memory p = memory p

theorem tick_running {c c' : Computer} {frame : InterruptFrame} (running : c.kernel.cur_idx ≠ -1)
    (ran : c.operate (.call (.tick frame)) = some c') : c'.kernel.cur_idx ≠ -1 := by
  obtain ⟨k,ticked,rfl⟩ := Option.map_eq_some_iff.mp ran
  obtain ⟨⟨next,k'⟩,handled,same⟩ := Option.map_eq_some_iff.mp ticked
  cases same
  rcases Machine.main_interrupt_cases handled with ⟨_,_,rfl⟩ | ⟨_,_,i,_,_,_,_,switched⟩
  · exact running
  · dsimp only
    rw [switched.cur_idx]
    omega

theorem Guarded.step (guarded : Guarded memory m) (next : m.Next x m') :
    Guarded memory m' ∧ ∀ i, m.kernel.active i = true → m'.kernel.active i = true → (m.kernel.cur_idx = i.val → ¬ x.Own) →
      m'.computer.sees i = m.computer.sees i := by
  obtain ⟨secure,running,kernel⟩ := guarded
  have ran := next.ran
  have allowed := next.1.2
  cases x with
  | store a v =>
    obtain ⟨computer,stored,rfl⟩ := map_ok.mp ran
    replace stored := orStop_ok.mp stored
    obtain ⟨secure',seen,kernel'⟩ := Computer.Next.step (x := .store a v) secure ⟨running,stored⟩
    obtain ⟨memory',_,rfl⟩ := Option.map_eq_some_iff.mp stored
    refine ⟨⟨secure',running,fun p zero => (kernel' p zero).trans (kernel p zero)⟩,fun i before after quiet => ?_⟩
    refine (seen i before after).trans ?_
    simp only [Computer.ownStores]
    exact if_neg fun same => quiet same trivial
  | interrupt frame around =>
    simp only [operate,main_interrupt_handler] at ran
    split at ran
    · cases ran
    split at ran
    · cases ran
      exact ⟨⟨secure,running,kernel⟩,fun _ _ _ _ => rfl⟩
    split at ran
    · rename_i timer
      obtain ⟨computer,ticked,rfl⟩ := call_ok.mp ran
      obtain ⟨secure',seen,kernel'⟩ := Computer.Next.step (x := .call (.tick frame)) secure
        ⟨⟨⟨⟨running,timer⟩,trivial⟩,trivial⟩,ticked⟩
      exact ⟨⟨secure',tick_running running ticked,fun p zero => (kernel' p zero).trans (kernel p zero)⟩,
        fun i before after _ => seen i before after⟩
    split at ran
    · rename_i call
      obtain ⟨middle,serves,rewrites⟩ := syscall_cases ran
      cases serves with
      | plain =>
        obtain ⟨seen,same⟩ := rewrites.step secure running
        exact ⟨⟨rewrites.kernel ▸ secure,rewrites.kernel ▸ running,fun p zero => (same p zero).trans (kernel p zero)⟩,
          fun i before _ quiet => seen i before fun own => quiet own call⟩
      | @file _ _ drive =>
        obtain ⟨seen,same⟩ := @Rewrites.step (m.withDrive drive) m' secure running rewrites
        exact ⟨⟨rewrites.kernel ▸ secure,rewrites.kernel ▸ running,fun p zero => (same p zero).trans (kernel p zero)⟩,
          fun i before _ quiet => seen i before fun own => quiet own call⟩
      | @process a computer _ asked called =>
        obtain ⟨secure',seen,kernel'⟩ := Computer.Next.step secure ⟨allowed call a asked,called⟩
        have still := call_cur_idx (processCall_calm asked) called
        have running' : computer.kernel.cur_idx ≠ -1 := by
          rw [still]
          exact running
        obtain ⟨later,same⟩ := @Rewrites.step (m.withComputer computer) m' secure' running' rewrites
        refine ⟨⟨rewrites.kernel ▸ secure',rewrites.kernel ▸ running',
          fun p zero => ((same p zero).trans (kernel' p zero)).trans (kernel p zero)⟩,fun i before after quiet => ?_⟩
        have alive : computer.kernel.active i = true := by
          rw [rewrites.kernel] at after
          exact after
        refine (later i alive fun own => quiet (still ▸ own) call).trans ((seen i before alive).trans ?_)
        rcases processCall_calm asked with ⟨_,rfl⟩ | ⟨_,rfl⟩ <;> rfl
    · cases ran
      exact ⟨⟨secure,running,kernel⟩,fun _ _ _ _ => rfl⟩

end steps

section runs
variable {disk : Disk} {memory : Word → Byte} {m₀ m m' : System} {i : Slot}

end runs

instance (m : System) : DecidablePred m.Secludes
  | .store _ _ => .isTrue trivial
  | .interrupt frame _ => inferInstanceAs (Decidable (frame.int_number = SYSCALL →
      ∀ a ∈ m.processCall frame.cpu, m.computer.Allows (.call a)))

instance (m : System) : DecidablePred m.Allows := fun _ => inferInstanceAs (Decidable (_ ∧ _))

def next (m : System) (x : SystemAction) : Option System := if m.Allows x then (m.operate x).toOption else none

def calm : Surroundings := ⟨0,fun _ => 0,fun _ => 0⟩

def timer : SystemAction := .interrupt KernelState.timerFrame calm

def callFrame (eax ebx ecx edx : Word) : InterruptFrame :=
  {KernelState.timerFrame with
    int_number := SYSCALL
    cpu := {KernelState.timerFrame.cpu with eax := eax,ebx := ebx,ecx := ecx,edx := edx}}

def called (eax ebx ecx edx : Word) : SystemAction := .interrupt (callFrame eax ebx ecx edx) calm

end System

end Sosis.Kernel
