import Sosis.MemoryIsolation

-- The program of a process: the file it is created from lies where it starts, as the
-- process sees it from user mode, and stays there until the process stores to it.
namespace Sosis.Kernel
open AddressSpaces LinkedCells TransitionRuns PagingState
open ByteRecords (Byte)
open Fat32 (Word DriverState FAT32DriverRequest FatChain Reads CLUSTER_SIZE)

-- A page that read may have stored to is found again from each of its addresses.
theorem back_some {table : PageDirectory} {a : Word} (own : Own (table (page_index a)) = true) :
    ∃ b, table.back (Ia32.atPage (table (page_index a)).lower_address (Ia32.pageOffset a)) = some b := by
  rw [← Option.isSome_iff_exists,PageDirectory.back,Option.isSome_map,List.find?_isSome]
  refine ⟨(page_index a).toNat,List.mem_range.mpr (page_index a).isLt,?_⟩
  rw [BitVec.ofNat_toNat,BitVec.setWidth_eq,own,page_index_atPage]
  exact beq_self_eq_true _

namespace Computer
variable {m m' : Computer} {i : Slot} {a : Word}

theorem Loaded.sees {request : FAT32DriverRequest} {d : DirectorySlot} (loaded : Loaded m m' request i d)
    (secure : m'.kernel.Secure) {seen : Fat32.Memory} (memory : m'.memory =
      settle (m'.kernel.paging.directory (.list d)).back seen m.memory)
    (own : Own (m'.kernel.paging.directory (.list d) (page_index a)) = true) : m'.sees i a = some (seen a) := by
  obtain ⟨opened,created⟩ := loaded.created
  obtain ⟨b,back⟩ := back_some own
  have here : (m'.kernel.paging.directory (.list d)).leads userRead a = some _ :=
    (secure.separate.leads_some rfl).mpr ⟨secure.separate.user_of_own own,rfl⟩
  obtain rfl : b = a := (secure.separate.same_place (secure.separate.back_leads back) here).2
  rw [Computer.sees,leads_of created.directory,view,here,memory,Option.map_some,settle,back]
  rfl

instance (s : DriverState) (request : FAT32DriverRequest) (n : Fin Fat32.DIRECTORY_ENTRY_COUNT) : Decidable (Reads s request n) :=
  decidable_of_iff (_ ∧ _ ∧ _) ⟨fun all => ⟨all.1,all.2.1,all.2.2⟩,fun reads => ⟨reads.found,reads.fits,reads.file⟩⟩

end Computer

end Sosis.Kernel
