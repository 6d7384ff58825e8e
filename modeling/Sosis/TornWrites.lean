import Sosis.ByteRecords

-- Records on a medium that takes whole sectors. When the sectors of an array's new
-- contents have been stored in part, each of its records is still an old or a new one.
namespace Sosis.TornWrites
open ByteRecords

-- Sector `q` of `new`, and `old` everywhere else.
def patch (sector q : Nat) (new old : Bytes) : Bytes := fun k => if k / sector = q then new k else old k

-- What a record decodes to is settled by its own extent.
def Local (c : Codec α) : Prop := ∀ a b : Bytes, (∀ k < c.size, a k = b k) → c.decode a = c.decode b

theorem word32_local : Local word32 := by
  intro a b same
  change le32 a 0 = le32 b 0
  unfold le32
  rw [same 0 (by decide),same (0+1) (by decide),same (0+2) (by decide),same (0+3) (by decide)]

variable {c : Codec α} {n sector q : Nat}

theorem record_sector (whole : c.size ∣ sector) (i : Nat) {k : Nat} (inside : k < c.size) :
    (i * c.size + k) / sector = i * c.size / sector := by
  obtain ⟨m,rfl⟩ := whole
  have positive : 0 < c.size := by omega
  rw [← Nat.div_div_eq_div_mul,← Nat.div_div_eq_div_mul,Nat.mul_div_cancel i positive,Nat.mul_comm i,
    Nat.mul_add_div positive,Nat.div_eq_of_lt inside,Nat.add_zero]

theorem Local.array (here : Local c) : Local (c.array n) := by
  intro a b same
  funext i
  refine here _ _ fun k inside => same _ ?_
  calc i.val * c.size + k < i.val * c.size + c.size := Nat.add_lt_add_left inside _
    _ = (i.val + 1) * c.size := by rw [Nat.add_mul,Nat.one_mul]
    _ ≤ n * c.size := Nat.mul_le_mul_right _ i.isLt

-- No record straddles two sectors.
theorem patch_array (here : Local c) (whole : c.size ∣ sector) (new old : Bytes) (i : Fin n) :
    (c.array n).decode (patch sector q new old) i =
      if i.val * c.size / sector = q then (c.array n).decode new i else (c.array n).decode old i := by
  have parts (b : Bytes) : (c.array n).decode b i = c.decode (drop b (i.val * c.size)) := rfl
  rw [parts,parts,parts]
  split
  · rename_i inside
    refine here _ _ fun k low => if_pos ?_
    exact (record_sector whole i low).trans inside
  · rename_i outside
    refine here _ _ fun k low => if_neg fun same => outside ?_
    exact (record_sector whole i low).symm.trans same

end Sosis.TornWrites
