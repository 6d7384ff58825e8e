import Sosis.Ia32

-- Address translation of an IA-32 processor with 4 MiB pages and without physical
-- address extension. An entry for a page table of 4 KiB pages is not followed.
namespace Sosis.Ia32

structure Access where
  user : Bool
  write : Bool
deriving DecidableEq

abbrev PageNumber := BitVec 10
abbrev PageOffset := BitVec 22

def pageNumber (a : Word) : PageNumber := a.extractLsb' 22 10
def pageOffset (a : Word) : PageOffset := a.extractLsb' 0 22
def atPage (number : PageNumber) (offset : PageOffset) : Word := number ++ offset

-- Present, read/write, user/supervisor, page size. At privilege level 0 a page can be
-- written whatever its read/write bit says (CR0.WP is clear).
def permits (entry : Word) (access : Access) : Bool :=
  entry.getLsbD 0 && entry.getLsbD 7 && (!access.user || (entry.getLsbD 2 && (!access.write || entry.getLsbD 1)))

def translate (directory : PageNumber → Word) (access : Access) (a : Word) : Option Word :=
  let entry := directory (pageNumber a)
  if permits entry access then some (atPage (pageNumber entry) (pageOffset a)) else none

@[simp] theorem pageNumber_atPage (number : PageNumber) (offset : PageOffset) : pageNumber (atPage number offset) = number :=
  BitVec.extractLsb'_append_eq_left

@[simp] theorem pageOffset_atPage (number : PageNumber) (offset : PageOffset) : pageOffset (atPage number offset) = offset :=
  BitVec.extractLsb'_append_eq_right

theorem atPage_eta (a : Word) : atPage (pageNumber a) (pageOffset a) = a :=
  @BitVec.extractLsb'_append_extractLsb' 10 22 a

variable {directory : PageNumber → Word} {access : Access} {a p : Word}

theorem translate_some : translate directory access a = some p ↔
    permits (directory (pageNumber a)) access = true ∧ p = atPage (pageNumber (directory (pageNumber a))) (pageOffset a) := by
  unfold translate
  rw [Option.ite_none_right_eq_some]
  exact and_congr_right fun _ => by rw [Option.some_inj,eq_comm]

end Sosis.Ia32
