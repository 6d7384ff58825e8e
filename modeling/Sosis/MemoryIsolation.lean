import Sosis.MemorySeparation
import Sosis.ProcessWaiting

-- A process sees its own stores in its memory and nobody else's, whatever the others
-- and the kernel do, and no process reaches the kernel's page.
namespace Sosis.Kernel
open AddressSpaces TransitionRuns
open ByteRecords (Byte)
open Ia32 (Access PageOffset atPage pageNumber pageOffset translate permits translate_some pageNumber_atPage
  pageOffset_atPage atPage_eta)
open Fat32 (Word DriverState FAT32DriverRequest)

theorem leads_some {table : PageDirectory} {access : Access} {a p : Word} : table.leads access a = some p ↔
    permits (table (page_index a)).word access = true ∧ p = atPage (table (page_index a)).lower_address (pageOffset a) := by
  rw [PageDirectory.leads,translate_some,pageNumber_eq]
  exact Iff.and Iff.rfl (by rw [PageDirectory.words,PageDirectoryEntry.word_address])

theorem page_index_atPage (number : PageIndex) (offset : PageOffset) : page_index (atPage number offset) = number := by
  rw [← pageNumber_eq,pageNumber_atPage]

namespace PagingState
variable {s : PagingState} {d d' : PageDirectoryPtr} {access : Access} {a p : Word}

-- A process may read and write the pages the allocator made for it, and no others.
theorem Separate.leads_some (separate : Separate s) (user : access.user = true) : (s.directory d).leads access a = some p ↔
    s.UserPage d (page_index a) ∧ p = atPage (s.directory d (page_index a)).lower_address (pageOffset a) := by
  rw [Kernel.leads_some]
  refine and_congr_left fun _ => ?_
  rw [PageDirectoryEntry.word_permits,user]
  constructor
  · intro permitted
    simp only [Bool.and_eq_true,Bool.not_true,Bool.false_or] at permitted
    exact ⟨permitted.1.1,permitted.2.1⟩
  · intro page
    rcases separate.sided d _ page.1 with ⟨kernel,_⟩ | ⟨_,flag⟩
    · exact absurd kernel (separate.sided.user_iff.mp page).2
    · rw [flag]
      cases access.write <;> rfl

theorem Separate.within (separate : Separate s) (user : access.user = true) :
    Within ((s.directory d).leads access) ((s.directory d).leads userRead) := by
  intro a p leads
  exact (separate.leads_some rfl).mpr ((separate.leads_some user).mp leads)

theorem Separate.same_place (separate : Separate s) {a' : Word} (leads : (s.directory d).leads userRead a = some p)
    (leads' : (s.directory d').leads userRead a' = some p) : d = d' ∧ a = a' := by
  obtain ⟨page,at_⟩ := (separate.leads_some rfl).mp leads
  obtain ⟨page',at_'⟩ := (separate.leads_some rfl).mp leads'
  have place := at_.symm.trans at_'
  have frame := congrArg pageNumber place
  have offset := congrArg pageOffset place
  rw [pageNumber_atPage,pageNumber_atPage] at frame
  rw [pageOffset_atPage,pageOffset_atPage] at offset
  obtain ⟨same,index⟩ := separate.exclusive.distinct _ _ _ _ page page' frame
  refine ⟨same,?_⟩
  rw [← atPage_eta a,← atPage_eta a',pageNumber_eq,pageNumber_eq,index,offset]

theorem Separate.frame_ne_zero (separate : Separate s) {page : PageIndex} (user : s.UserPage d page) :
    (s.directory d page).lower_address ≠ 0 := by
  obtain ⟨f,positive,frame⟩ := separate.ranged.mapped _ _ user
  rw [frame]
  intro zero
  have number := congrArg BitVec.toNat zero
  rw [frameIndex_toNat] at number
  exact positive (Fin.ext number)

theorem Separate.not_kernel (separate : Separate s) (leads : (s.directory d).leads userRead a = some p) : page_index p ≠ 0 := by
  obtain ⟨page,rfl⟩ := (separate.leads_some rfl).mp leads
  rw [page_index_atPage]
  exact separate.frame_ne_zero page

theorem Separate.user_of_own (separate : Separate s) {page : PageIndex} (own : Own (s.directory d page) = true) :
    s.UserPage d page := by
  simp only [Own,Bool.and_eq_true,bne_iff_ne] at own
  refine separate.sided.user_iff.mpr ⟨own.1,?_⟩
  rintro rfl
  rcases separate.sided d _ own.1 with ⟨_,entry⟩ | ⟨below,_⟩
  · rw [entry] at own
    exact own.2 rfl
  · exact absurd below (by decide)

-- What read may have stored to is read by the process itself.
theorem Separate.back_leads (separate : Separate s) (back : (s.directory d).back p = some a) :
    (s.directory d).leads userRead a = some p := by
  obtain ⟨j,found,rfl⟩ := Option.map_eq_some_iff.mp back
  have holds := List.find?_some found
  simp only [Bool.and_eq_true,beq_iff_eq] at holds
  rw [separate.leads_some rfl,page_index_atPage,pageOffset_atPage,holds.2,← pageNumber_eq,atPage_eta]
  exact ⟨separate.user_of_own holds.1,rfl⟩

end PagingState

open PagingState

namespace KernelState
variable {k k' : KernelState} {i j : Slot}

-- A process that is there before and after keeps its pages.
theorem Created.keeps {request : FAT32DriverRequest} {d : DirectorySlot} {opened : PagingState} (lodged : Lodged k)
    (created : Created k k' request i d opened) (active : k.active j = true) :
    (k'.process_list j).context.page_directory_virtual_addr = (k.process_list j).context.page_directory_virtual_addr ∧
      ∀ e, (k.process_list j).context.page_directory_virtual_addr = some (.list e) →
        e ≠ d ∧ k'.paging.directory (.list e) = k.paging.directory (.list e) := by
  have other : j ≠ i := by
    rintro rfl
    rw [created.inactive lodged.table.count] at active
    cases active
  refine ⟨by rw [created.others j other],fun e at_ => ?_⟩
  obtain ⟨e',at_',used⟩ := lodged.housed j active
  cases at_.symm.trans at_'
  have different : e ≠ d := by
    rintro rfl
    rw [created.opens.unused] at used
    cases used
  have apart : PageDirectoryPtr.list e ≠ .list d := fun same => different (PageDirectoryPtr.list.inj same)
  refine ⟨different,((mapPages_frame created.mapped).2.2 _ apart).trans ?_⟩
  exact funext fun page => created.opens.others _ page (Or.inl apart)

end KernelState

namespace Computer
variable {m m' : Computer} {i j : Slot} {access : Access} {a p : Word}

theorem leads_of {d : PageDirectoryPtr} (at_ : (m.kernel.process_list i).context.page_directory_virtual_addr = some d) :
    m.leads i access = (m.kernel.paging.directory d).leads access := by
  funext a
  rw [Computer.leads,at_]
  rfl

theorem sees_of_leads (leads : m'.leads i userRead = m.leads i userRead)
    (bytes : ∀ a p, m.leads i userRead a = some p → m'.memory p = m.memory p) : m'.sees i = m.sees i := by
  unfold sees
  rw [leads]
  exact view_congr bytes

-- What becomes of the memory when a creation goes through.
structure Loaded (m m' : Computer) (request : FAT32DriverRequest) (j : Slot) (d : DirectorySlot) : Prop where
  created : ∃ opened, KernelState.Created m.kernel m'.kernel request j d opened
  drive : m'.drive = m.drive
  memory : ∃ code seen, readInto (m'.kernel.paging.directory (.list d)) m.drive
      ((m'.kernel.paging.directory (.list d)).shown m.memory) request = some (code,seen) ∧
    m'.memory = settle (m'.kernel.paging.directory (.list d)).back seen m.memory

theorem creation_cases {request : FAT32DriverRequest} (ran : m.create request = some m') :
    m' = m ∨ ∃ j d, Loaded m m' request j d := by
  obtain ⟨⟨code,kernel⟩,creates,ran⟩ := Option.bind_eq_some_iff.mp ran
  rcases KernelState.create_cases creates with ⟨failed,rfl⟩ | ⟨rfl,j,d,opened,created⟩
  · simp only [if_pos failed] at ran
    cases ran
    exact Or.inl rfl
  · simp only [ne_eq,not_true_eq_false,if_false,created.slot,created.directory,Option.bind_some] at ran
    obtain ⟨⟨code,loaded⟩,loads,same⟩ := Option.map_eq_some_iff.mp ran
    cases same
    simp only [LoadState.load] at loads
    split at loads
    · obtain ⟨⟨code',seen⟩,read,same⟩ := Option.map_eq_some_iff.mp loads
      cases same
      exact Or.inr ⟨j,d,⟨opened,created⟩,rfl,code',seen,read,by dsimp only⟩
    · cases loads

theorem Loaded.outside {request : FAT32DriverRequest} {d : DirectorySlot} (loaded : Loaded m m' request j d)
    (outside : (m'.kernel.paging.directory (.list d)).back p = none) : m'.memory p = m.memory p := by
  obtain ⟨_,seen,_,memory⟩ := loaded.memory
  rw [memory]
  exact settle_outside outside

section steps
variable (secure : m.kernel.Secure)
include secure

theorem at_directory (active : m.kernel.active i = true) :
    ∃ d, (m.kernel.process_list i).context.page_directory_virtual_addr = some (.list d) ∧
      ∀ access, m.leads i access = (m.kernel.paging.directory (.list d)).leads access := by
  obtain ⟨d,at_,_⟩ := secure.lodged.housed i active
  exact ⟨d,at_,fun _ => leads_of at_⟩

theorem create_step {request : FAT32DriverRequest} (ran : m.create request = some m') (secluded : m.kernel.Secluded request) :
    m'.kernel.Secure ∧ (∀ i, m.kernel.active i = true → m'.sees i = m.sees i) ∧
      ∀ p, page_index p = 0 → m'.memory p = m.memory p := by
  rcases creation_cases ran with rfl | ⟨j,d,loaded⟩
  · exact ⟨secure,fun _ _ => rfl,fun _ _ => rfl⟩
  · obtain ⟨opened,created⟩ := loaded.created
    have secure' := secure.created created secluded
    refine ⟨secure',fun i active => ?_,fun p kernel => loaded.outside ?_⟩
    · obtain ⟨e,at_,leads⟩ := at_directory secure active
      obtain ⟨same,directories⟩ := created.keeps secure.lodged active
      obtain ⟨other,table⟩ := directories e at_
      have leads' : m'.leads i userRead = m.leads i userRead := by
        rw [leads_of (same.trans at_),table,leads]
      refine sees_of_leads leads' fun a p there => loaded.outside ?_
      rw [leads,← table] at there
      by_contra some_
      obtain ⟨b,back⟩ := Option.ne_none_iff_exists'.mp some_
      have place := (secure'.separate.same_place there (secure'.separate.back_leads back)).1
      exact other (PageDirectoryPtr.list.inj place)
    · by_contra some_
      obtain ⟨b,back⟩ := Option.ne_none_iff_exists'.mp some_
      exact secure'.separate.not_kernel (secure'.separate.back_leads back) kernel

theorem destroy_step {k : KernelState} {pid : Word} (active : m.kernel.active j = true) (named : m.kernel.pid j = pid)
    (waiting : m.kernel.cur_idx ≠ j.val) (ran : (m.kernel.process_destroy pid).map Prod.snd = some k) :
    k.Secure ∧ ∀ i, m.kernel.active i = true → k.active i = true → ({m with kernel := k} : Computer).sees i = m.sees i := by
  refine ⟨secure.destroyed active named waiting ran,fun i before after => ?_⟩
  have destroyed := secure.lodged.victim named ran
  have other : i ≠ j := by
    rintro rfl
    rw [KernelState.active,destroyed.metadata] at after
    cases after
  obtain ⟨e,at_,leads⟩ := at_directory secure before
  obtain ⟨d,own,_⟩ := secure.lodged.housed j active
  have different : e ≠ d := by
    rintro rfl
    exact other (secure.lodged.apart i j before active (at_.trans own.symm))
  have at_' : (k.process_list i).context.page_directory_virtual_addr = some (.list e) := by
    rw [destroyed.context_kept]
    exact at_
  have leads' : ({m with kernel := k} : Computer).leads i userRead = m.leads i userRead := by
    rw [leads_of at_',leads]
    exact congrArg (fun table : PageDirectory => table.leads userRead) (Machine.destroyed_elsewhere destroyed own different).2
  exact sees_of_leads leads' fun _ _ _ => rfl

-- The store of the process that runs, as every process sees it.
theorem store_step {v : Byte} {memory : Word → Byte} (runs : m.kernel.cur_idx ≠ -1)
    (stored : put ((m.kernel.paging.directory m.kernel.cr3).leads userWrite) m.memory a v = some memory) :
    (∀ i, m.kernel.active i = true → ({m with memory := memory} : Computer).sees i =
      if m.kernel.cur_idx = i.val then Function.update (m.sees i) a (some v) else m.sees i) ∧
      ∀ p, page_index p = 0 → memory p = m.memory p := by
  obtain ⟨cur,at_,active,running⟩ := secure.lodged.running.resolve_left runs
  refine ⟨fun i here => ?_,fun p kernel => ?_⟩
  · obtain ⟨d,directory,leads⟩ := at_directory secure here
    have sees' : ({m with memory := memory} : Computer).sees i = view ((m.kernel.paging.directory (.list d)).leads userRead) memory := by
      rw [← leads]
      rfl
    have sees : m.sees i = view ((m.kernel.paging.directory (.list d)).leads userRead) m.memory := by rw [← leads,Computer.sees]
    rw [sees',sees]
    split
    · rename_i idx
      obtain rfl : cur = i := Fin.ext (by exact_mod_cast at_.symm.trans idx)
      rw [Option.some.inj (running.symm.trans directory)] at stored
      refine view_put (fun x x' p there there' => ?_) (secure.separate.within rfl) stored
      exact (secure.separate.same_place there there').2
    · rename_i idx
      refine view_put_apart (fun x x' p there there' => idx ?_) stored
      have same := (secure.separate.same_place there (secure.separate.within rfl _ _ there')).1
      rw [secure.lodged.apart i cur here active (directory.trans (same ▸ running.symm))]
      exact at_
  · obtain ⟨q,there,rfl⟩ := put_some.mp stored
    refine Function.update_of_ne ?_ ..
    rintro rfl
    exact secure.separate.not_kernel (secure.separate.within rfl _ _ there) kernel

end steps

theorem still_step {k : KernelState} (still : KernelState.Still m.kernel k) (i : Slot) :
    ({m with kernel := k} : Computer).sees i = m.sees i := by
  refine sees_of_leads (funext fun a => ?_) fun _ _ _ => rfl
  simp only [Computer.leads,still.directory,still.paging]

-- One step of the computer, as each process that is there before and after sees it.
theorem Next.step {x : ComputerAction} (secure : m.kernel.Secure) (next : m.Next x m') :
    m'.kernel.Secure ∧ (∀ i, m.kernel.active i = true → m'.kernel.active i = true →
      m'.sees i = ownStores i (m.sees i) ⟨m,x,m'⟩) ∧ ∀ p, page_index p = 0 → m'.memory p = m.memory p := by
  obtain ⟨allowed,ran⟩ := next
  cases x with
  | drive s =>
    cases ran
    exact ⟨secure,fun _ _ _ => rfl,fun _ _ => rfl⟩
  | store a v =>
    obtain ⟨memory,stored,rfl⟩ := Option.map_eq_some_iff.mp ran
    obtain ⟨seen,kernel⟩ := store_step secure allowed stored
    exact ⟨secure,fun i active _ => seen i active,kernel⟩
  | call x =>
    obtain ⟨⟨follows,spares⟩,secludes⟩ := allowed
    cases x with
    | init | create =>
      obtain ⟨secure',seen,kernel⟩ := create_step secure ran secludes
      exact ⟨secure',fun i active _ => seen i active,kernel⟩
    | first =>
      obtain ⟨k,switched,rfl⟩ := Option.map_eq_some_iff.mp ran
      have still := KernelState.first_still switched
      exact ⟨secure.still still (secure.lodged.kept follows spares switched),fun i _ _ => still_step still i,fun _ _ => rfl⟩
    | tick frame =>
      obtain ⟨k,ticked,rfl⟩ := Option.map_eq_some_iff.mp ran
      have still := KernelState.tick_still ticked
      exact ⟨secure.still still (secure.lodged.kept follows spares ticked),fun i _ _ => still_step still i,fun _ _ => rfl⟩
    | destroy pid =>
      obtain ⟨k,destroyed,rfl⟩ := Option.map_eq_some_iff.mp ran
      obtain ⟨_,j,active,named⟩ := follows
      obtain ⟨secure',seen⟩ := destroy_step secure active named (spares j active named) destroyed
      exact ⟨secure',fun i before after => seen i before after,fun _ _ => rfl⟩

structure Sealed (memory : Word → Byte) (m : Computer) : Prop where
  secure : m.kernel.Secure
  kernel : ∀ p, page_index p = 0 → m.memory p = memory p

theorem Sealed.step {memory : Word → Byte} {x : ComputerAction} (before : Sealed memory m) (next : m.Next x m') :
    Sealed memory m' := by
  obtain ⟨secure,_,same⟩ := Next.step before.secure next
  exact ⟨secure,fun p zero => (same p zero).trans (before.kernel p zero)⟩

instance (s : PagingState) : Decidable s.HintFree := inferInstanceAs (Decidable (∀ _, _ → _))

instance (k : KernelState) (request : FAT32DriverRequest) : Decidable (k.Secluded request) :=
  decidable_of_iff (_ ∧ _) ⟨fun both => ⟨both.1,both.2⟩,fun secluded => ⟨secluded.pages,secluded.hint⟩⟩

instance (k : KernelState) : DecidablePred k.Secludes
  | .init => inferInstanceAs (Decidable (k.Secluded _))
  | .create _ => inferInstanceAs (Decidable (k.Secluded _))
  | .first | .tick _ | .destroy _ => .isTrue trivial

instance (m : Computer) : DecidablePred m.Allows
  | .call _ => inferInstanceAs (Decidable (_ ∧ _))
  | .store _ _ => inferInstanceAs (Decidable (_ ≠ _))
  | .drive _ => .isTrue trivial

def next (m : Computer) (x : ComputerAction) : Option Computer := if m.Allows x then m.operate x else none

-- The program in slot 15 stores, is interrupted, and the shell in slot 0 stores.
def crossing : List ComputerAction := [.store 0x10 65,.call (.tick KernelState.timerFrame),.store 0x20 66]

end Computer

end Sosis.Kernel
