import Sosis.Fat32Walks
import Sosis.ProcessMemory

-- The creation of a process together with the read that fills its memory: when the
-- code it returns tells what became of that read.
namespace Sosis.Kernel
open LinkedCells TransitionRuns
open Fat32 (Word Cell Memory DriverState FAT32DriverRequest CLUSTER_SIZE CLUSTER_MAP_SIZE FatChain Reads)

-- The kernel, the drive, and the memory that read finds under the directory a creation
-- opens. What read stores spans less than a page, so no two of its bytes meet, even
-- where two pages of a process lie on one frame.
structure LoadState where
  kernel : KernelState
  drive : DriverState
  memory : Memory

-- A page that read can store to without a page fault, and without hitting the kernel,
-- which lies on frame 0.
def Own (entry : PageDirectoryEntry) : Bool := entry.flag.present_bit && entry.lower_address != 0

-- The pages under the stores of the loop of read.
def storesMapped (table : PageDirectory) (s : DriverState) : Nat → Word → Word → Bool
  | 0,_,_ => true
  | turns+1,buffer,cluster_number =>
    if cluster_number = Fat32.FAT32_FAT_END_OF_FILE then true
    else ((List.range CLUSTER_SIZE).all fun x => Own (table (page_index (buffer + BitVec.ofNat 32 x)))) &&
      if bound : cluster_number.toNat < CLUSTER_MAP_SIZE then
        storesMapped table s turns (buffer + BitVec.ofNat 32 CLUSTER_SIZE) (s.cluster_map ⟨_,bound⟩)
      else true

def imageMapped (table : PageDirectory) (s : DriverState) (request : FAT32DriverRequest) : Bool :=
  let dir_table := s.directory request.parent_cluster_number
  match Fat32.findEntry dir_table request.name request.ext with
  | none => true
  | some idx => storesMapped table s Fat32.walkFuel request.buf (dir_table idx).cluster

-- A page fault halts the machine in its handler.
def readInto (table : PageDirectory) (s : DriverState) (memory : Memory) (request : FAT32DriverRequest) :
    Option (Int × Memory) :=
  (Fat32.read s memory request).bind fun result =>
    if result.1 ≠ 0 || imageMapped table s request then some result else none

namespace LoadState

-- read(request): its code is not looked at. Where a page took the kernel's entry of the
-- new directory, the kernel has nothing left to run.
def load (m : LoadState) (kernel : KernelState) (page_dir : PageDirectoryPtr) (request : FAT32DriverRequest) :
    Option (Int × LoadState) :=
  let table := kernel.paging.directory page_dir
  if table 0x300 = kernel_entry then
    (readInto table m.drive m.memory request).map fun (_,memory) =>
      (PROCESS_CREATE_SUCCESS,⟨kernel,m.drive,memory⟩)
  else none

def process_create_user_process (m : LoadState) (request : FAT32DriverRequest) : Option (Int × LoadState) :=
  (m.kernel.process_create_user_process request).bind fun (code,kernel) =>
    if code ≠ PROCESS_CREATE_SUCCESS then some (code,⟨kernel,m.drive,m.memory⟩)
    else m.kernel.process_list_get_inactive_index.bind fun p_index =>
      (kernel.process_list p_index).context.page_directory_virtual_addr.bind fun page_dir =>
        m.load kernel page_dir request

end LoadState

-- The bytes of the file lie at buf, on pages of the process's own directory.
structure Image (table : PageDirectory) (s : DriverState) (memory : Memory) (request : FAT32DriverRequest) (xs : List Cell) :
    Prop where
  chain : ∃ i, Reads s request i ∧ FatChain s (s.directory request.parent_cluster_number i).cluster xs
  pages : ∀ j < xs.length, ∀ x < CLUSTER_SIZE,
    Own (table (page_index (request.buf + BitVec.ofNat 32 (CLUSTER_SIZE*j + x)))) = true
  bytes : ∀ j (inside : j < xs.length), ∀ x < CLUSTER_SIZE, memory.at request.buf (CLUSTER_SIZE*j + x) = s.cluster xs[j] x

theorem storesMapped_chain {table : PageDirectory} {s : DriverState} {p buffer : Word} {xs : List Cell} {turns : Nat}
    (chain : FatChain s p xs) (enough : xs.length ≤ turns) (mapped : storesMapped table s turns buffer p = true) {j : Nat}
    (inside : j < xs.length) {x : Nat} (low : x < CLUSTER_SIZE) :
    Own (table (page_index (buffer + BitVec.ofNat 32 (CLUSTER_SIZE*j + x)))) = true := by
  induction chain generalizing turns buffer j with
  | stop => exact absurd inside (Nat.not_lt_zero _)
  | @link c rest onward ih =>
    cases turns with
    | zero => exact absurd enough (Nat.not_succ_le_zero _)
    | succ turns =>
      unfold storesMapped at mapped
      rw [if_neg (Fat32.cellNumber_ne_end c)] at mapped
      simp only [Fat32.cellNumber_toNat,c.isLt,dite_true,Fin.eta,Bool.and_eq_true,List.all_eq_true,List.mem_range] at mapped
      obtain ⟨here,later⟩ := mapped
      cases j with
      | zero =>
        rw [Nat.mul_zero,Nat.zero_add]
        exact here x low
      | succ j =>
        have place : CLUSTER_SIZE*(j+1) + x = CLUSTER_SIZE + (CLUSTER_SIZE*j + x) := by
          rw [Nat.mul_succ]
          omega
        rw [place,BitVec.ofNat_add,← BitVec.add_assoc]
        exact ih (Nat.le_of_succ_le_succ enough) later (Nat.lt_of_succ_lt_succ inside)

-- What a read under a directory leaves there when it does not refuse.
theorem readInto_image {table : PageDirectory} {s : DriverState} {memory memory' : Memory} {request : FAT32DriverRequest}
    {code : Int} {i : Fin Fat32.DIRECTORY_ENTRY_COUNT} (reads : Reads s request i)
    (ran : readInto table s memory request = some (code,memory')) :
    Fat32.read s memory request = some (0,memory') ∧ ∃ xs, Image table s memory' request xs := by
  obtain ⟨result,read,checked⟩ := Option.bind_eq_some_iff.mp ran
  obtain ⟨xs,chain,rfl⟩ := reads.read_some.mp read
  have few := Chain.length_le Fat32.cells_pointers chain
  rw [Fintype.card_fin] at few
  split at checked
  · rename_i guard
    cases checked
    have mapped : imageMapped table s request = true := by simpa using guard
    simp only [imageMapped,reads.found] at mapped
    refine ⟨read,xs,⟨i,reads,chain⟩,fun j inside x low => storesMapped_chain chain (Nat.le_succ_of_le few) mapped inside low,
      fun j inside x low => ?_⟩
    have quotient : (CLUSTER_SIZE*j + x) / CLUSTER_SIZE = j := by
      rw [Nat.mul_add_div (by decide),Nat.div_eq_of_lt low,Nat.add_zero]
    have remainder : (CLUSTER_SIZE*j + x) % CLUSTER_SIZE = x := by
      rw [Nat.mul_add_mod,Nat.mod_eq_of_lt low]
    rw [Fat32.storeClusters_at chain _ _ (by simp only [CLUSTER_SIZE,CLUSTER_MAP_SIZE] at *; omega)]
    simp only [quotient,remainder,dif_pos inside]
  · cases checked

theorem readInto_refused (table : PageDirectory) {s : DriverState} (memory : Memory) {request : FAT32DriverRequest}
    (refused : ∀ i, ¬ Reads s request i) : ∃ code : Int, code ≠ 0 ∧ Fat32.read s memory request = some (code,memory) ∧
      readInto table s memory request = some (code,memory) := by
  obtain ⟨code,nonzero,answer⟩ := Fat32.read_refused refused
  refine ⟨code,nonzero,answer memory,?_⟩
  rw [readInto,answer memory,Option.bind_some,if_pos (by simp [nonzero])]

section mapping
variable {d : PageDirectoryPtr} {buf : Word} {turns i : Nat} {used used' : Fin PROCESS_PAGE_FRAME_COUNT_MAX → Word}
  {s s' : PagingState}

theorem PagingState.paging_allocate_defined (hinted : PagingState.Hinted s) (addr : Word) :
    ∃ r, s.paging_allocate_user_page_frame d addr = some r := by
  unfold PagingState.paging_allocate_user_page_frame
  split
  · exact ⟨_,rfl⟩
  · split
    · exact ⟨_,rfl⟩
    · rename_i outside
      exact absurd hinted.hint outside

theorem mapPages_defined (d : PageDirectoryPtr) (buf : Word) (used : Fin PROCESS_PAGE_FRAME_COUNT_MAX → Word)
    (hinted : PagingState.Hinted s) (fits : i + turns ≤ PROCESS_PAGE_FRAME_COUNT_MAX) :
    ∃ used' s', mapPages d buf turns i used s = some (used',s') := by
  induction turns generalizing i used s with
  | zero => exact ⟨used,s,rfl⟩
  | succ turns ih =>
    obtain ⟨⟨r,middle⟩,allocated⟩ := PagingState.paging_allocate_defined (d := d) hinted
      (buf + BitVec.ofNat 32 i * BitVec.ofNat 32 PAGE_FRAME_SIZE)
    have kept : PagingState.Hinted middle := by
      rcases PagingState.paging_allocate_cases allocated with ⟨_,_,rfl⟩ | ⟨_,_,f,took⟩
      · exact hinted
      · exact took.hinted_kept hinted
    have bound : i < PROCESS_PAGE_FRAME_COUNT_MAX := by omega
    obtain ⟨used',s',later⟩ := ih (i := i+1) (Function.update used ⟨i,bound⟩
      (buf + BitVec.ofNat 32 i * BitVec.ofNat 32 PAGE_FRAME_SIZE)) kept (by omega)
    exact ⟨used',s',mapPages_succ.mpr ⟨bound,r,middle,allocated,later⟩⟩

-- The loop takes a frame in every turn until the counter is used up, and it overwrites
-- the kernel's entry when one of these turns comes to it.
theorem mapPages_kernel (below : buf < KERNEL_VIRTUAL_ADDRESS_BASE) (entry : s.directory d 0x300 = kernel_entry)
    (ran : mapPages d buf turns i used s = some (used',s')) : s'.directory d 0x300 = kernel_entry ↔
      ∀ j, i ≤ j → j < i + turns → j < i + s.freeCount → pageAt buf j ≠ 0x300 := by
  induction turns generalizing i used s with
  | zero =>
    cases ran
    exact iff_of_true entry fun j low high => by omega
  | succ turns ih =>
    have fits := mapPages_fits ran (Nat.succ_ne_zero _)
    obtain ⟨bound,r,middle,allocated,later⟩ := mapPages_succ.mp ran
    rcases PagingState.paging_allocate_cases allocated with ⟨_,none,rfl⟩ | ⟨_,_,f,took⟩
    · exact iff_of_true ((ih entry later).mpr fun j low _ counted => by omega) fun j low _ counted => by omega
    · have fewer := took.count
      by_cases here : pageAt buf i = 0x300
      · have gone : s'.directory d 0x300 = ⟨userFlag,frameIndex f⟩ := by
          rw [← here,mapPages_first below fits later]
          exact took.entry
        refine iff_of_false (fun kernel => ?_) fun apart => apart i (Nat.le_refl _) (by omega) (by omega) here
        rw [gone] at kernel
        exact absurd (congrArg (fun e => e.flag.user_bit) kernel) Bool.noConfusion
      · have kept : middle.directory d 0x300 = kernel_entry :=
          (took.others d 0x300 (Or.inr fun same => here same.symm)).trans entry
        rw [ih kept later]
        constructor
        · intro apart j low high counted
          by_cases first : j = i
          · rw [first]
            exact here
          · exact apart j (by omega) (by omega) (by omega)
        · exact fun apart j low high counted => apart j (by omega) (by omega) (by omega)

end mapping

namespace KernelState
variable {k k' : KernelState} {request : FAT32DriverRequest}

-- The request passes the three checks, a slot and a directory are handed out, and no
-- page that gets a frame is the kernel's.
structure Starts (k : KernelState) (request : FAT32DriverRequest) : Prop where
  room : k.active_process_count < PROCESS_COUNT_MAX
  below : request.buf < KERNEL_VIRTUAL_ADDRESS_BASE
  checked : k.paging.paging_allocate_check (page_frame_count_needed request) = true
  fits : page_frame_count_needed request ≤ BitVec.ofNat 32 PROCESS_PAGE_FRAME_COUNT_MAX
  slot : ∃ i, k.process_list_get_inactive_index = some i
  budget : k.paging.page_dir_free ≠ 0
  directory : ∃ d, k.paging.page_directory_used d = false
  kernel : ∀ j, j < (page_frame_count_needed request).toNat → j < k.paging.freeCount → pageAt request.buf j ≠ 0x300

theorem create_room (ran : k.process_create_user_process request = some (PROCESS_CREATE_SUCCESS,k')) :
    k.active_process_count < PROCESS_COUNT_MAX := by
  by_contra full
  rw [process_create_user_process,if_pos (not_lt.mp full)] at ran
  cases ran

theorem paging_create_defined {s : PagingState} (budget : s.page_dir_free ≠ 0) (directory : ∃ d, s.page_directory_used d = false) :
    ∃ d opened, s.paging_create_new_page_directory = some (some (.list d),opened) := by
  rw [PagingState.paging_create_new_page_directory,if_neg budget]
  cases found : FirstFit.firstFit (fun i => s.page_directory_used i == false) 0 with
  | some d => exact ⟨d,_,rfl⟩
  | none =>
    obtain ⟨d,unused⟩ := directory
    have taken := FirstFit.firstFit_none.mp found d (Nat.zero_le _)
    rw [unused] at taken
    cases taken

theorem Starts.creates (starts : k.Starts request) (pooled : PoolKept k) :
    ∃ k', k.process_create_user_process request = some (PROCESS_CREATE_SUCCESS,k') := by
  obtain ⟨i,slot⟩ := starts.slot
  obtain ⟨d,opened,creates⟩ := paging_create_defined starts.budget starts.directory
  obtain ⟨d',same,opens⟩ := paging_create_cases creates
  have fits : 0 + (page_frame_count_needed request).toNat ≤ PROCESS_PAGE_FRAME_COUNT_MAX := by
    rw [Nat.zero_add]
    exact BitVec.le_def.mp starts.fits
  obtain ⟨used,paging,mapped⟩ := mapPages_defined (.list d) request.buf (k.process_list i).memory.virtual_addr_used
    (opens.pooled pooled).hinted fits
  unfold process_create_user_process
  split
  · rename_i full
    exact absurd starts.room (not_lt.mpr full)
  · split
    · rename_i high
      exact absurd starts.below (BitVec.not_lt.mpr high)
    · split
      · rename_i short
        rw [starts.checked] at short
        exact absurd starts.fits (by simpa using short)
      · simp only [Option.bind_eq_bind,Option.bind_eq_some_iff]
        exact ⟨_,i,slot,(_,opened),creates,_,rfl,(used,paging),mapped,rfl⟩

theorem Created.kernel_iff {i : Slot} {d : DirectorySlot} {opened : PagingState} (created : Created k k' request i d opened) :
    k'.paging.directory (.list d) 0x300 = kernel_entry ↔
      ∀ j, j < (page_frame_count_needed request).toNat → j < k.paging.freeCount → pageAt request.buf j ≠ 0x300 := by
  obtain ⟨_,count,_,_⟩ := Opened.same_pool created.opens
  rw [mapPages_kernel created.below created.opens.kernel created.mapped,count]
  simp

theorem Created.starts {i : Slot} {d : DirectorySlot} {opened : PagingState} (created : Created k k' request i d opened)
    (ran : k.process_create_user_process request = some (PROCESS_CREATE_SUCCESS,k'))
    (kernel : k'.paging.directory (.list d) 0x300 = kernel_entry) : k.Starts request :=
  ⟨create_room ran,created.below,created.checked,created.fits,⟨i,created.slot⟩,created.opens.budget,⟨d,created.opens.unused⟩,
    created.kernel_iff.mp kernel⟩

-- After the success of the code 0 the file is there, and after any other code nothing
-- has changed.
structure Honest (m : LoadState) (code : Int) (m' : LoadState) (request : FAT32DriverRequest) : Prop where
  loaded : code = PROCESS_CREATE_SUCCESS → Fat32.read m.drive m.memory request = some (0,m'.memory) ∧
    ∀ i page_dir, m.kernel.process_list_get_inactive_index = some i →
      (m'.kernel.process_list i).context.page_directory_virtual_addr = some page_dir →
      ∃ xs, Image (m'.kernel.paging.directory page_dir) m.drive m'.memory request xs
  rolledBack : code ≠ PROCESS_CREATE_SUCCESS → m' = m

def ReportsLoad (k : KernelState) (s : DriverState) (request : FAT32DriverRequest) : Prop :=
  ∀ memory code m', LoadState.process_create_user_process ⟨k,s,memory⟩ request = some (code,m') →
    Honest ⟨k,s,memory⟩ code m' request

-- A creation that gets to the read, and what it does there.
theorem load_cases {m m' : LoadState} {code : Int} (ran : m.process_create_user_process request = some (code,m')) :
    code ≠ PROCESS_CREATE_SUCCESS ∧ m' = m ∨
      code = PROCESS_CREATE_SUCCESS ∧ m.kernel.Starts request ∧ ∃ i d opened result,
        Created m.kernel m'.kernel request i d opened ∧
        readInto (m'.kernel.paging.directory (.list d)) m.drive m.memory request = some (result,m'.memory) := by
  obtain ⟨⟨answer,kernel⟩,creates,loads⟩ := Option.bind_eq_some_iff.mp ran
  rcases create_cases creates with ⟨failed,rfl⟩ | ⟨rfl,i,d,opened,created⟩
  · simp only [if_pos failed] at loads
    cases loads
    exact Or.inl ⟨failed,rfl⟩
  · simp only [ne_eq,not_true_eq_false,if_false,created.slot,created.directory,Option.bind_some,LoadState.load] at loads
    split at loads
    · rename_i intact
      obtain ⟨⟨result,memory⟩,read,same⟩ := Option.map_eq_some_iff.mp loads
      cases same
      exact Or.inr ⟨rfl,created.starts creates intact,i,d,opened,result,created,read⟩
    · cases loads

theorem Starts.load_refused {s : DriverState} (starts : k.Starts request) (pooled : PoolKept k)
    (refused : ∀ i, ¬ Reads s request i) (memory : Memory) :
    ∃ k', LoadState.process_create_user_process ⟨k,s,memory⟩ request = some (PROCESS_CREATE_SUCCESS,⟨k',s,memory⟩) := by
  obtain ⟨k',creates⟩ := starts.creates pooled
  rcases create_cases creates with ⟨failed,_⟩ | ⟨_,i,d,opened,created⟩
  · exact absurd rfl failed
  · obtain ⟨code,_,_,read⟩ := readInto_refused (k'.paging.directory (.list d)) memory refused
    refine ⟨k',?_⟩
    simp only [LoadState.process_create_user_process,creates,Option.bind_some,ne_eq,not_true_eq_false,if_false,created.slot,
      created.directory,LoadState.load,if_pos (created.kernel_iff.mpr starts.kernel),read,Option.map_some]

theorem reportsLoad_iff {history : List (Transition KernelState ProcessAction)} (run : Run Step boot history k)
    (s : DriverState) (request : FAT32DriverRequest) :
    ReportsLoad k s request ↔ (k.Starts request → ∃ i, Reads s request i) := by
  have pooled : PoolKept k := run.invariant boot_poolKept fun _ _ _ pooled step => pooled_kept pooled step
  constructor
  · intro reports starts
    by_contra none
    have refused : ∀ i, ¬ Reads s request i := not_exists.mp none
    obtain ⟨k',ran⟩ := starts.load_refused pooled refused fun _ => 0
    obtain ⟨code,nonzero,answer⟩ := Fat32.read_refused refused
    obtain ⟨succeeded,_⟩ := (reports _ _ _ ran).loaded rfl
    rw [answer] at succeeded
    exact nonzero (congrArg Prod.fst (Option.some.inj succeeded))
  · intro reads memory code m' ran
    rcases load_cases ran with ⟨failed,rfl⟩ | ⟨rfl,starts,i,d,opened,result,created,read⟩
    · exact ⟨fun succeeded => absurd succeeded failed,fun _ => rfl⟩
    · obtain ⟨j,reads⟩ := reads starts
      obtain ⟨succeeded,image⟩ := readInto_image reads read
      refine ⟨fun _ => ⟨succeeded,fun i' page_dir slot at_ => ?_⟩,fun failed => absurd rfl failed⟩
      cases created.slot.symm.trans slot
      cases created.directory.symm.trans at_
      exact image

theorem reportsLoad_iff_helper : ∃ history k, Run Step boot history k ∧ history.map Transition.action = setup ∧
    (ReportsLoad k (Fat32.create_fat32 Fat32.blankDrive) helperRequest ↔
      (k.Starts helperRequest → ∃ i, Reads (Fat32.create_fat32 Fat32.blankDrive) helperRequest i)) := by
  have defined : creates helperRequest 15 2 = true := by decide +kernel
  obtain ⟨history,k,_,run,actions,_⟩ := setup_create defined
  exact ⟨history,k,run,actions,reportsLoad_iff run _ _⟩

-- Booting from an empty drive: it is formatted, and the shell that is not there is
-- created all the same.
theorem emptyDrive_unreported : Run Step boot [] boot ∧
    ¬ ReportsLoad boot (Fat32.initialize_filesystem_fat32 Fat32.blankDrive) shellRequest := by
  have created : (LoadState.process_create_user_process ⟨boot,Fat32.initialize_filesystem_fat32 Fat32.blankDrive,fun _ => 0⟩
      shellRequest).any (fun result => result.1 = PROCESS_CREATE_SUCCESS) = true := by decide +kernel
  have missing : (Fat32.read (Fat32.initialize_filesystem_fat32 Fat32.blankDrive) (fun _ => 0) shellRequest).any
      (fun result => result.1 = 3) = true := by decide +kernel
  refine ⟨.nil,fun reports => ?_⟩
  obtain ⟨⟨code,m'⟩,ran,succeeded⟩ := (Option.any_eq_true _ _).mp created
  obtain ⟨result,read,refused⟩ := (Option.any_eq_true _ _).mp missing
  obtain ⟨answered,_⟩ := (reports _ _ _ ran).loaded (of_decide_eq_true succeeded)
  rw [read] at answered
  have code : result.1 = 3 := of_decide_eq_true refused
  rw [Option.some.inj answered] at code
  exact absurd code (show (0 : Int) ≠ 3 by decide)

end KernelState

end Sosis.Kernel
