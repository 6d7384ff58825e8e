import Mathlib.Data.BitVec

-- Fixed-size records over byte strings. A byte string is a function from offsets,
-- so a record can be read at any place of a larger one.
namespace Sosis.ByteRecords

abbrev Byte := BitVec 8
abbrev Bytes := Nat → Byte

def drop (b : Bytes) (offset : Nat) : Bytes := fun k => b (offset+k)

@[simp] theorem drop_apply (b : Bytes) (offset k : Nat) : drop b offset k = b (offset+k) := rfl

-- A record format. `exact` is the whole contract: bytes that agree with an
-- encoding on the record's own extent decode to the encoded value.
structure Codec (α : Type u) where
  size : Nat
  encode : α → Bytes
  decode : Bytes → α
  exact : ∀ a b, (∀ k < size, b k = encode a k) → decode b = a

-- `n` records one after the other, without padding. Bytes past the last record
-- are not part of the array and read as zero.
def Codec.array (c : Codec α) (n : Nat) : Codec (Fin n → α) where
  size := n * c.size
  encode records k := if bound : k / c.size < n then c.encode (records ⟨k / c.size,bound⟩) (k % c.size) else 0
  decode b i := c.decode (drop b (i.val * c.size))
  exact records b agrees := by
    funext i
    refine c.exact _ _ fun k inside => ?_
    have below : i.val * c.size + k < n * c.size := by
      calc i.val * c.size + k < i.val * c.size + c.size := by omega
        _ = (i.val + 1) * c.size := by rw [Nat.add_mul,Nat.one_mul]
        _ ≤ n * c.size := Nat.mul_le_mul_right _ i.isLt
    have quotient : (i.val * c.size + k) / c.size = i.val := by
      rw [Nat.mul_comm,Nat.mul_add_div (by omega),Nat.div_eq_of_lt inside,Nat.add_zero]
    have remainder : (i.val * c.size + k) % c.size = k := by
      rw [Nat.mul_comm,Nat.mul_add_mod,Nat.mod_eq_of_lt inside]
    rw [drop_apply,agrees _ below,dif_pos (quotient.trans_lt i.isLt)]
    simp only [quotient,remainder]

-- Little-endian words, the byte order of the IA-32 integers a record holds.
def byteOf (w : BitVec n) (k : Nat) : Byte := w.extractLsb' (8*k) 8

def le16 (b : Bytes) (o : Nat) : BitVec 16 := b (o+1) ++ b o
def le32 (b : Bytes) (o : Nat) : BitVec 32 := b (o+3) ++ b (o+2) ++ b (o+1) ++ b o

theorem le16_exact (w : BitVec 16) (b : Bytes) (o : Nat)
    (low : b o = byteOf w 0) (high : b (o+1) = byteOf w 1) : le16 b o = w := by
  unfold le16
  rw [low,high]
  unfold byteOf
  rw [BitVec.extractLsb'_append_extractLsb'_eq_extractLsb' (by rfl)]
  exact BitVec.extractLsb'_eq_self

theorem le32_exact (w : BitVec 32) (b : Bytes) (o : Nat)
    (b0 : b o = byteOf w 0) (b1 : b (o+1) = byteOf w 1)
    (b2 : b (o+2) = byteOf w 2) (b3 : b (o+3) = byteOf w 3) : le32 b o = w := by
  unfold le32
  rw [b0,b1,b2,b3]
  unfold byteOf
  rw [BitVec.extractLsb'_append_extractLsb'_eq_extractLsb' (by rfl),
    BitVec.extractLsb'_append_extractLsb'_eq_extractLsb' (by rfl),
    BitVec.extractLsb'_append_extractLsb'_eq_extractLsb' (by rfl)]
  exact BitVec.extractLsb'_eq_self

def word32 : Codec (BitVec 32) where
  size := 4
  encode w := byteOf w
  decode b := le32 b 0
  exact w b agrees := le32_exact w b 0 (agrees 0 (by omega)) (agrees 1 (by omega))
    (agrees 2 (by omega)) (agrees 3 (by omega))

end Sosis.ByteRecords
