import Mathlib.Logic.Function.Basic
import Sosis.Fat32Driver

-- The functions of string.c that fill and move bytes, over a memory that remembers
-- which addresses have been stored to.
namespace Sosis.StringMemory
open ByteRecords
open Fat32 (Word Memory)

structure Ram where
  memory : Memory
  stored : List Word -- newest first

namespace Ram

def store (ram : Ram) (addr : Word) (byte : Byte) : Ram :=
  ⟨Function.update ram.memory addr byte,addr :: ram.stored⟩

-- The first turns of a loop that goes up.
def setBytes (ram : Ram) (s : Word) (c : Byte) : Nat → Ram
  | 0 => ram
  | i+1 => (ram.setBytes s c i).store (s + BitVec.ofNat 32 i) c

def memset (ram : Ram) (s : Word) (c : Byte) (n : Word) : Ram := ram.setBytes s c n.toNat

def moveUp (ram : Ram) (dest src : Word) : Nat → Ram
  | 0 => ram
  | i+1 =>
    let ram := ram.moveUp dest src i
    ram.store (dest + BitVec.ofNat 32 i) (ram.memory (src + BitVec.ofNat 32 i))

-- for (size_t i = n; i != 0; i--), with `i` turns left
def moveDown (ram : Ram) (dest src : Word) : Nat → Ram
  | 0 => ram
  | i+1 => (ram.store (dest + BitVec.ofNat 32 i) (ram.memory (src + BitVec.ofNat 32 i))).moveDown dest src i

def memmove (ram : Ram) (dest src n : Word) : Ram :=
  if dest < src then ram.moveUp dest src n.toNat else ram.moveDown dest src n.toNat

-- Every store so far was to an address of the set.
def Within (ram : Ram) (range : Set Word) : Prop := ∀ addr ∈ ram.stored, addr ∈ range

variable {ram : Ram} {range : Set Word}

theorem Within.store (within : ram.Within range) {addr : Word} (inside : addr ∈ range) (byte : Byte) :
    (ram.store addr byte).Within range := by
  intro a member
  rcases List.mem_cons.mp member with rfl | before
  · exact inside
  · exact within a before

theorem Within.memset (within : ram.Within range) {s n : Word} (c : Byte)
    (inside : ∀ i < n.toNat, s + BitVec.ofNat 32 i ∈ range) : (ram.memset s c n).Within range := by
  unfold Ram.memset
  generalize n.toNat = turns at inside
  induction turns with
  | zero => exact within
  | succ turns ih => exact (ih fun i below => inside i (Nat.lt_succ_of_lt below)).store (inside turns (Nat.lt_succ_self _)) c

theorem Within.moveUp (within : ram.Within range) {dest : Word} (src : Word) {turns : Nat}
    (inside : ∀ i < turns, dest + BitVec.ofNat 32 i ∈ range) : (ram.moveUp dest src turns).Within range := by
  induction turns with
  | zero => exact within
  | succ turns ih => exact (ih fun i below => inside i (Nat.lt_succ_of_lt below)).store (inside turns (Nat.lt_succ_self _)) _

theorem Within.moveDown (within : ram.Within range) {dest : Word} (src : Word) {turns : Nat}
    (inside : ∀ i < turns, dest + BitVec.ofNat 32 i ∈ range) : (ram.moveDown dest src turns).Within range := by
  induction turns generalizing ram with
  | zero => exact within
  | succ turns ih =>
    exact ih (within.store (inside turns (Nat.lt_succ_self _)) _) fun i below => inside i (Nat.lt_succ_of_lt below)

theorem Within.memmove (within : ram.Within range) {dest n : Word} (src : Word)
    (inside : ∀ i < n.toNat, dest + BitVec.ofNat 32 i ∈ range) : (ram.memmove dest src n).Within range := by
  unfold Ram.memmove
  split
  · exact within.moveUp src inside
  · exact within.moveDown src inside

-- What is in memory afterwards, at distances from one base address that do not wrap.
section contents
variable {base : Word}

theorem distance_inj {a b : Nat} (boundA : a < 2^32) (boundB : b < 2^32) :
    base + BitVec.ofNat 32 a = base + BitVec.ofNat 32 b ↔ a = b := by
  constructor
  · intro same
    have distances := congrArg BitVec.toNat ((BitVec.add_right_inj _).mp same)
    rwa [BitVec.toNat_ofNat,BitVec.toNat_ofNat,Nat.mod_eq_of_lt boundA,Nat.mod_eq_of_lt boundB] at distances
  · rintro rfl
    rfl

theorem store_memory (c : Byte) {a b : Nat} (boundA : a < 2^32) (boundB : b < 2^32) :
    (ram.store (base + BitVec.ofNat 32 a) c).memory (base + BitVec.ofNat 32 b) =
      if b = a then c else ram.memory (base + BitVec.ofNat 32 b) := by
  simp only [Ram.store,Function.update_apply,distance_inj boundB boundA]

theorem memset_memory (c : Byte) {n : Word} {b : Nat} (boundB : b < 2^32) :
    (ram.memset base c n).memory (base + BitVec.ofNat 32 b) = if b < n.toNat then c else ram.memory (base + BitVec.ofNat 32 b) := by
  have small : n.toNat ≤ 2^32 := Nat.le_of_lt n.isLt
  unfold Ram.memset
  generalize n.toNat = turns at small
  induction turns with
  | zero => rfl
  | succ turns ih =>
    rw [Ram.setBytes,store_memory c small boundB,ih (Nat.le_of_succ_le small)]
    by_cases here : b = turns
    · rw [if_pos here,if_pos (by omega)]
    · rw [if_neg here]
      exact if_congr (by omega) rfl rfl

-- Moving down in memory and going up, a byte is read before anything is stored there.
theorem moveUp_memory {gap turns b : Nat} (boundB : b < 2^32) (room : gap + turns ≤ 2^32) :
    (ram.moveUp base (base + BitVec.ofNat 32 gap) turns).memory (base + BitVec.ofNat 32 b) =
      if b < turns then ram.memory (base + BitVec.ofNat 32 (gap+b)) else ram.memory (base + BitVec.ofNat 32 b) := by
  induction turns generalizing b with
  | zero => rfl
  | succ turns ih =>
    have source : base + BitVec.ofNat 32 gap + BitVec.ofNat 32 turns = base + BitVec.ofNat 32 (gap+turns) := by
      rw [BitVec.add_assoc,← BitVec.ofNat_add]
    rw [Ram.moveUp,store_memory _ (by omega) boundB,source,ih (by omega) (by omega),ih boundB (by omega),
      if_neg (Nat.not_lt.mpr (Nat.le_add_left turns gap))]
    by_cases here : b = turns
    · rw [if_pos here,if_pos (by omega),here]
    · rw [if_neg here]
      exact if_congr (by omega) rfl rfl

-- Moving up in memory and going down, likewise.
theorem moveDown_memory {gap turns b : Nat} (boundB : b < 2^32) (room : gap + turns ≤ 2^32) :
    (ram.moveDown (base + BitVec.ofNat 32 gap) base turns).memory (base + BitVec.ofNat 32 b) =
      if gap ≤ b ∧ b < gap + turns then ram.memory (base + BitVec.ofNat 32 (b-gap)) else ram.memory (base + BitVec.ofNat 32 b) := by
  induction turns generalizing ram with
  | zero => exact (if_neg (by omega)).symm
  | succ turns ih =>
    have target : base + BitVec.ofNat 32 gap + BitVec.ofNat 32 turns = base + BitVec.ofNat 32 (gap+turns) := by
      rw [BitVec.add_assoc,← BitVec.ofNat_add]
    rw [Ram.moveDown,target,ih (by omega),store_memory _ (by omega) (by omega),store_memory _ (by omega) boundB]
    by_cases later : gap ≤ b ∧ b < gap + turns
    · rw [if_pos later,if_neg (by omega),if_pos (by omega)]
    · rw [if_neg later]
      by_cases here : b = gap + turns
      · rw [if_pos here,if_pos (by omega),here,Nat.add_sub_cancel_left]
      · rw [if_neg here,if_neg (by omega)]

theorem address_eq (base a : Word) : a = base + BitVec.ofNat 32 (a - base).toNat := by
  rw [BitVec.ofNat_toNat,BitVec.setWidth_eq]
  exact (BitVec.sub_add_cancel a base).symm.trans (BitVec.add_comm _ _)

-- The first `n` bytes from `dest` on are those that were at `src`, and the others are as
-- they were.
def Moved (ram ram' : Ram) (dest src : Word) (n : Nat) : Prop :=
  (∀ i < n, ram'.memory (dest + BitVec.ofNat 32 i) = ram.memory (src + BitVec.ofNat 32 i)) ∧
  ∀ a, (∀ i < n, a ≠ dest + BitVec.ofNat 32 i) → ram'.memory a = ram.memory a

theorem moveUp_moved {gap n : Nat} (room : gap + n ≤ 2^32) :
    Moved ram (ram.moveUp base (base + BitVec.ofNat 32 gap) n) base (base + BitVec.ofNat 32 gap) n := by
  refine ⟨fun i inside => ?_,fun a outside => ?_⟩
  · rw [moveUp_memory (by omega) room,if_pos inside,BitVec.add_assoc,← BitVec.ofNat_add]
  · have behind : ¬ (a - base).toNat < n := fun inside => outside _ inside (address_eq base a)
    rw [address_eq base a,moveUp_memory (a - base).isLt room,if_neg behind]

theorem moveDown_moved {gap n : Nat} (room : gap + n ≤ 2^32) :
    Moved ram (ram.moveDown (base + BitVec.ofNat 32 gap) base n) (base + BitVec.ofNat 32 gap) base n := by
  refine ⟨fun i inside => ?_,fun a outside => ?_⟩
  · rw [BitVec.add_assoc,← BitVec.ofNat_add,moveDown_memory (by omega) room,if_pos (by omega),Nat.add_sub_cancel_left]
  · have other : ¬ (gap ≤ (a - base).toNat ∧ (a - base).toNat < gap + n) := by
      rintro ⟨low,high⟩
      refine outside ((a - base).toNat - gap) (by omega) ?_
      rw [BitVec.add_assoc,← BitVec.ofNat_add,Nat.add_sub_cancel' low]
      exact address_eq base a
    rw [address_eq base a,moveDown_memory (a - base).isLt room,if_neg other]

-- Whatever overlap: the direction is the one that reads a byte before it is stored to.
theorem memmove_moved {dest src n : Word} (destFits : dest.toNat + n.toNat ≤ 2^32) (srcFits : src.toNat + n.toNat ≤ 2^32) :
    Moved ram (ram.memmove dest src n) dest src n.toNat := by
  unfold Ram.memmove
  split
  · rename_i below
    have distance : (src - dest).toNat = src.toNat - dest.toNat := BitVec.toNat_sub_of_le (BitVec.le_of_lt below)
    have moved := @moveUp_moved ram dest (src - dest).toNat n.toNat (by omega)
    rwa [← address_eq dest src] at moved
  · rename_i above
    have distance : (dest - src).toNat = dest.toNat - src.toNat := BitVec.toNat_sub_of_le (BitVec.not_lt.mp above)
    have moved := @moveDown_moved ram src (dest - src).toNat n.toNat (by omega)
    rwa [← address_eq src dest] at moved

end contents

end Ram

end Sosis.StringMemory
