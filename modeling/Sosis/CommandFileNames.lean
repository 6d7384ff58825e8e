import Sosis.StringWords
import Mathlib.Data.List.GetD

-- parseFileName, and which names are names of 8.3 files.
namespace Sosis.StringLoops
open ByteRecords Fat32 TracedMemory TokenRuns
open Command (dot)

def baseName (filename : List Byte) : List Byte := filename.takeWhile (· != dot)
def extension (filename : List Byte) : List Byte := filename.drop ((baseName filename).length + 1)

def Fits83 (filename : List Byte) : Prop := (baseName filename).length ≤ 8 ∧ (extension filename).length ≤ 3

section padding
variable {κ : Type}

-- Cut at `n` bytes, and filled with NUL up to there.
def fitted (n : Nat) (bytes : List Byte) : List Byte := bytes.take n ++ List.replicate (n - (bytes.take n).length) 0

theorem length_fitted (n : Nat) (bytes : List Byte) : (fitted n bytes).length = n := by
  simp [fitted]

theorem fitted_getD {n : Nat} {bytes : List Byte} (short : bytes.length ≤ n) (i : Nat) :
    (fitted n bytes).getD i 0 = bytes.getD i 0 := by
  rw [fitted,List.take_of_length_le short]
  simp only [List.getD_eq_getElem?_getD]
  rw [List.getElem?_append]
  split
  · rfl
  · rename_i behind
    rw [List.getElem?_replicate,List.getElem?_eq_none (Nat.le_of_not_lt behind)]
    split <;> rfl

theorem mem_fitted {n : Nat} {bytes : List Byte} {place : Int → κ} {k : κ} {b : Byte} (member : (k,b) ∈ copied place (fitted n bytes)) :
    ∃ i : Nat, i < n ∧ k = place i := by
  obtain ⟨i,inside,same⟩ := mem_copied member
  rw [length_fitted] at inside
  exact ⟨i,inside,same⟩

variable [DecidableEq κ] {allowed : κ → Prop} {memory : κ → Byte} {fuel : Nat} {place : Int → κ}

theorem addTrailingNull_performs {start count : Nat} (small : start + count < 2^16) (enough : count < fuel) :
    Performs allowed memory (addTrailingNull fuel place (BitVec.ofNat 16 start) (BitVec.ofNat 16 (start+count))) ()
      (copied (fun i => place (start + i)) (List.replicate count 0)) := by
  have known : ∀ i, i ≤ count → (BitVec.ofNat 16 (start+i)).toNat = start + i := by
    intro i within
    rw [BitVec.toNat_ofNat,Nat.mod_eq_of_lt (by omega)]
  have zeros : ∀ i < count, (List.replicate count (0 : Byte))[i]? = some 0 := by
    intro i before
    rw [List.getElem?_replicate,if_pos before]
  rw [← flatMap_copied List.length_replicate zeros]
  refine Performs.finally (f := fun _ => ())
    (@Performs.counted _ _ _ _ _ _ _ _ (fun i : Nat => BitVec.ofNat 16 (start+i)) _ _ _ enough ?_ ?_ ?_)
  · intro i before
    have below : BitVec.ofNat 16 (start+i) < BitVec.ofNat 16 (start+count) := by
      rw [BitVec.lt_def,known i (by omega),known count (Nat.le_refl _)]
      omega
    rw [decide_eq_true below]
    exact Performs.pure _
  · intro i before
    have next : BitVec.ofNat 16 (start+i) + 1 = BitVec.ofNat 16 (start+(i+1)) :=
      (BitVec.ofNat_add_ofNat (start+i) 1).trans (congrArg _ (Nat.add_assoc _ _ _))
    rw [known i (by omega),← next]
    exact (Performs.store _ _).finally
  · rw [decide_eq_false (BitVec.lt_irrefl _)]
    exact Performs.pure _

end padding

section parse
variable {κ : Type} [DecidableEq κ] {memory : κ → Byte} {filename name ext : Int → κ} {chars : List Byte} {fuel : Nat}

theorem baseName_le (chars : List Byte) : (baseName chars).length ≤ chars.length := (List.takeWhile_prefix _).length_le

theorem baseName_getD {i : Nat} (inside : i < (baseName chars).length) :
    (baseName chars)[i]? = some (chars.getD i 0) ∧ chars.getD i 0 ≠ dot := by
  have within := Nat.lt_of_lt_of_le inside (baseName_le chars)
  have front : (baseName chars)[i] = chars[i] := (List.takeWhile_prefix (p := (· != dot)) (l := chars)).getElem inside
  have kept := List.mem_takeWhile_imp (List.getElem_mem inside)
  rw [List.getD_eq_getElem chars 0 within,List.getElem?_eq_getElem inside,front]
  exact ⟨rfl,front ▸ bne_iff_ne.mp kept⟩

theorem baseName_stops (short : (baseName chars).length < chars.length) : chars.getD (baseName chars).length 0 = dot := by
  have stops : apart (· == dot) chars (baseName chars).length = true := apart_take short
  rw [apart,List.getElem?_eq_getElem short] at stops
  rw [List.getD_eq_getElem chars 0 short]
  exact beq_iff_eq.mp stops

theorem read_behind (holds : HoldsString memory filename chars) {w : List (κ × Byte)}
    (separate : ∀ (i : Nat) b, (filename i,b) ∉ w) {i : Nat} (inside : i ≤ chars.length) :
    after w memory (filename i) = chars.getD i 0 :=
  (after_other (separate i) memory).trans (holds.getD inside)

-- The index at which the first loop stops.
def nameEnd (chars : List Byte) : Nat := ((baseName chars).take 8).length

theorem nameLoop_performs (holds : HoldsString memory filename chars) (separate : ∀ i j : Nat, name i ≠ filename j)
    (enough : 8 < fuel) :
    Performs (Inside filename chars) memory (loop (inName filename) (fun i => do
      store (name i) (← read (filename i))
      return i+1) fuel 0) (nameEnd chars : Int) (copied name ((baseName chars).take 8)) := by
  have few : nameEnd chars ≤ 8 := by
    rw [nameEnd,List.length_take]
    exact Nat.min_le_left _ _
  have inside : nameEnd chars ≤ (baseName chars).length := by
    rw [nameEnd,List.length_take]
    exact Nat.min_le_right _ _
  have within := Nat.le_trans inside (baseName_le chars)
  have bytes : ∀ i < nameEnd chars, ((baseName chars).take 8)[i]? = some (chars.getD i 0) := by
    intro i before
    rw [List.getElem?_take,if_pos (by omega)]
    exact (baseName_getD (by omega)).1
  have source : ∀ i, i ≤ nameEnd chars →
      after ((List.range i).flatMap fun i : Nat => [(name i,chars.getD i 0)]) memory (filename i) = chars.getD i 0 := by
    intro i before
    refine read_behind holds (fun j b member => ?_) (by omega)
    obtain ⟨k,_,here⟩ := List.mem_flatMap.mp member
    exact separate k j (congrArg Prod.fst (List.mem_singleton.mp here)).symm
  rw [← flatMap_copied rfl bytes]
  refine @Performs.counted _ _ _ _ _ _ _ _ (fun i : Nat => (i : Int)) _ _ _ (by omega) ?_ ?_ ?_
  · intro i before
    have byte := baseName_getD (show i < (baseName chars).length by omega)
    unfold inName
    rw [if_pos (by omega)]
    refine (Performs.test (b := true) ?_ (inside_of_le (by omega))).seen (Performs.test ?_ (inside_of_le (by omega)))
    · rw [source i (by omega)]
      exact bne_iff_ne.mpr byte.2
    · rw [source i (by omega)]
      exact bne_iff_ne.mpr (holds.getD_ne (by omega))
  · intro i before
    exact (Performs.read (source i (by omega)) (inside_of_le (by omega))).seen (Performs.store _ _).finally
  · have byte := source _ (Nat.le_refl (nameEnd chars))
    unfold inName
    split
    · rename_i below
      have whole : nameEnd chars = (baseName chars).length := by
        unfold nameEnd at below ⊢
        rw [List.length_take] at below ⊢
        omega
      rcases Nat.lt_or_eq_of_le (baseName_le chars) with short | ends
      · have stops := baseName_stops short
        rw [← whole] at stops
        exact (Performs.test (b := false) (by rw [byte,stops]; rfl) (inside_of_le within)).seen (Performs.pure false)
      · have nul : after ((List.range (nameEnd chars)).flatMap fun i : Nat => [(name i,chars.getD i 0)]) memory
            (filename (nameEnd chars)) = 0 := by
          rw [byte,whole,ends]
          exact List.getD_eq_default _ _ (Nat.le_refl _)
        exact (Performs.test (b := true) (by rw [nul]; rfl) (inside_of_le within)).seen
          (Performs.test (by rw [nul]; rfl) (inside_of_le within))
    · exact Performs.pure false

-- What padding adds to the bytes copied so far.
theorem pads_performs {allowed : κ → Prop} {n : Nat} (few : n ≤ 8) (enough : 8 < fuel) (place : Int → κ) (bytes : List Byte)
    (memory : κ → Byte) : Performs allowed memory
      (addTrailingNull fuel place (BitVec.ofInt 16 (bytes.take n).length) (BitVec.ofNat 16 n)) ()
      (copied (fun i => place ((bytes.take n).length + i)) (List.replicate (n - (bytes.take n).length) 0)) := by
  have short : (bytes.take n).length ≤ n := by
    rw [List.length_take]
    exact Nat.min_le_left _ _
  have pads := @addTrailingNull_performs κ _ allowed memory fuel place (bytes.take n).length (n - (bytes.take n).length)
    (by omega) (by omega)
  rwa [Nat.add_sub_cancel' short,← BitVec.ofInt_natCast] at pads

-- A copying loop and the padding behind it, as one list of stores.
theorem Performs.fitted {α γ : Type} {allowed : κ → Prop} {first : Traced κ Byte α} {next : α → Traced κ Byte γ} {a : α} {c : γ}
    {place : Int → κ} {n : Nat} {bytes : List Byte} {rest : List (κ × Byte)} (few : n ≤ 8) (enough : 8 < fuel)
    {start : α → BitVec 16} (known : start a = BitVec.ofInt 16 (bytes.take n).length)
    (copies : Performs allowed memory first a (copied place (bytes.take n)))
    (goes : Performs allowed (after (copied place (fitted n bytes)) memory) (next a) c rest) :
    Performs allowed memory (first >>= fun a => addTrailingNull fuel place (start a) (BitVec.ofNat 16 n) >>= fun _ => next a) c
      (copied place (fitted n bytes) ++ rest) := by
  have whole : copied place (StringLoops.fitted n bytes) = copied place (bytes.take n) ++
      copied (fun i => place ((bytes.take n).length + i)) (List.replicate (n - (bytes.take n).length) 0) := copied_append _ _ _
  rw [whole,List.append_assoc]
  rw [whole,after_append] at goes
  refine copies.bind ?_
  rw [known]
  exact (pads_performs few enough place bytes _).bind goes

-- The three separate arrays of a call.
structure Separate (filename name ext : Int → κ) : Prop where
  name_apart : ∀ i j : Nat, name i ≠ filename j
  ext_apart : ∀ i j : Nat, ext i ≠ filename j
  fields_apart : ∀ i j : Nat, name i ≠ ext j
  name_cells : ∀ i j : Nat, name i = name j → i = j
  ext_cells : ∀ i j : Nat, ext i = ext j → i = j

-- Stores elsewhere leave the file name readable.
theorem byte_behind (holds : HoldsString memory filename chars) {place : Int → κ} (separate : ∀ i j : Nat, place i ≠ filename j)
    (bytes : List Byte) {i : Nat} (inside : i ≤ chars.length) : after (copied place bytes) memory (filename i) = chars.getD i 0 :=
  read_behind holds (fun j b member => by
    obtain ⟨k,_,same⟩ := mem_copied member
    exact separate k j same.symm) inside

theorem nameEnd_le (chars : List Byte) : nameEnd chars ≤ chars.length := by
  have := baseName_le chars
  rw [nameEnd,List.length_take]
  omega

theorem name_ended (holds : HoldsString memory filename chars) (separate : Separate filename name ext) (enough : 8 < fuel)
    (ends : nameEnd chars = chars.length) :
    Performs (Inside filename chars) memory (parseFileName fuel filename name ext) 0
      (copied name (fitted 8 (baseName chars)) ++ copied ext (fitted 3 (extension chars))) := by
  have nul : after (copied name (fitted 8 (baseName chars))) memory (filename (nameEnd chars)) = 0 := by
    rw [byte_behind holds separate.name_apart _ (nameEnd_le chars),ends]
    exact List.getD_eq_default _ _ (Nat.le_refl _)
  have none : extension chars = [] := by
    have := baseName_le chars
    have few : nameEnd chars ≤ (baseName chars).length := by
      rw [nameEnd,List.length_take]
      exact Nat.min_le_right _ _
    exact List.drop_eq_nil_of_le (by omega)
  refine Performs.fitted (Nat.le_refl 8) enough rfl (nameLoop_performs holds separate.name_apart enough) ?_
  refine (Performs.test (b := true) (by rw [nul]; rfl) (inside_of_le (nameEnd_le chars))).seen ?_
  rw [none]
  exact (pads_performs (by decide) enough ext [] _).finally

theorem name_too_long (holds : HoldsString memory filename chars) (separate : Separate filename name ext) (enough : 8 < fuel)
    (goes : nameEnd chars < chars.length) (other : chars.getD (nameEnd chars) 0 ≠ dot) :
    Performs (Inside filename chars) memory (parseFileName fuel filename name ext) 1
      (copied name (fitted 8 (baseName chars))) := by
  have byte : after (copied name (fitted 8 (baseName chars))) memory (filename (nameEnd chars)) = chars.getD (nameEnd chars) 0 :=
    byte_behind holds separate.name_apart _ (nameEnd_le chars)
  rw [← List.append_nil (copied name _)]
  refine Performs.fitted (Nat.le_refl 8) enough rfl (nameLoop_performs holds separate.name_apart enough) ?_
  refine (Performs.test (b := false) ?_ (inside_of_le (nameEnd_le chars))).seen ?_
  · rw [byte]
    exact beq_eq_false_iff_ne.mpr (holds.getD_ne goes)
  · refine (Performs.test (b := true) ?_ (inside_of_le (nameEnd_le chars))).seen (Performs.pure 1)
    rw [byte]
    exact bne_iff_ne.mpr other

theorem extLoop_performs (holds : HoldsString memory filename chars) (separate : Separate filename name ext) (enough : 8 < fuel)
    {n : Nat} (dotted : n < chars.length) (bytes : List Byte) :
    Performs (Inside filename chars) (after (copied name bytes) memory) (loop (inExt filename n) (fun i => do
      store (ext (i-n-1)) (← read (filename i))
      return i+1) fuel ((n : Int)+1)) ((n : Int)+1+((chars.drop (n+1)).take 3).length) (copied ext ((chars.drop (n+1)).take 3)) := by
  have length : ((chars.drop (n+1)).take 3).length = min 3 (chars.length-(n+1)) := by
    rw [List.length_take,List.length_drop]
  have known : ∀ i < ((chars.drop (n+1)).take 3).length, ((chars.drop (n+1)).take 3)[i]? = some (chars.getD (n+1+i) 0) := by
    intro i before
    rw [List.getElem?_take,if_pos (by omega),List.getElem?_drop,List.getElem?_eq_getElem (by omega),
      List.getD_eq_getElem chars 0 (by omega)]
  have source : ∀ j i, i ≤ chars.length → after ((List.range j).flatMap fun i : Nat => [(ext i,chars.getD (n+1+i) 0)])
      (after (copied name bytes) memory) (filename i) = chars.getD i 0 := by
    intro j i before
    refine (after_other (fun b member => ?_) _).trans (byte_behind holds separate.name_apart bytes before)
    obtain ⟨k,_,here⟩ := List.mem_flatMap.mp member
    exact separate.ext_apart k i (congrArg Prod.fst (List.mem_singleton.mp here)).symm
  rw [← flatMap_copied rfl known]
  have start : (n : Int)+1 = (n : Int)+1+(0 : Nat) := (Int.add_zero _).symm
  rw [start]
  refine @Performs.counted _ _ _ _ _ _ _ _ (fun i : Nat => (n : Int)+1+i) _ _ _ (by omega) ?_ ?_ ?_
  · intro i before
    unfold inExt
    rw [if_pos (by omega)]
    refine Performs.test ?_ (inside_of_le (show n+1+i ≤ chars.length by omega))
    refine (congrArg (· != 0) (source i (n+1+i) (by omega))).trans ?_
    exact bne_iff_ne.mpr (holds.getD_ne (by omega))
  · intro i before
    have place : (n : Int)+1+i-n-1 = i := by omega
    have byte := source i (n+1+i) (by omega)
    rw [place]
    exact (Performs.read byte (inside_of_le (show n+1+i ≤ chars.length by omega))).seen (Performs.store _ _).finally
  · unfold inExt
    split
    · rename_i below
      have ends : n+1+((chars.drop (n+1)).take 3).length = chars.length := by omega
      refine Performs.test ?_ (inside_of_le (Nat.le_of_eq ends))
      refine (congrArg (· != 0) (source _ (n+1+((chars.drop (n+1)).take 3).length) (Nat.le_of_eq ends))).trans ?_
      rw [ends,List.getD_eq_default _ _ (Nat.le_refl _)]
      rfl
    · exact Performs.pure false

theorem name_dotted (holds : HoldsString memory filename chars) (separate : Separate filename name ext) (enough : 8 < fuel)
    (goes : nameEnd chars < chars.length) (stops : chars.getD (nameEnd chars) 0 = dot) :
    Performs (Inside filename chars) memory (parseFileName fuel filename name ext) (if (extension chars).length ≤ 3 then 0 else 1)
      (copied name (fitted 8 (baseName chars)) ++ copied ext (fitted 3 (extension chars))) := by
  have few : nameEnd chars ≤ (baseName chars).length := by
    rw [nameEnd,List.length_take]
    exact Nat.min_le_right _ _
  have whole : nameEnd chars = (baseName chars).length := by
    by_contra shorter
    exact (baseName_getD (Nat.lt_of_le_of_ne few shorter)).2 stops
  have rest : extension chars = chars.drop (nameEnd chars + 1) := by rw [whole]; rfl
  have byte : after (copied name (fitted 8 (baseName chars))) memory (filename (nameEnd chars)) = dot :=
    (byte_behind holds separate.name_apart _ (nameEnd_le chars)).trans stops
  have length : ((extension chars).take 3).length = min 3 (chars.length-(nameEnd chars+1)) := by
    rw [rest,List.length_take,List.length_drop]
  have long : (extension chars).length = chars.length-(nameEnd chars+1) := by rw [rest,List.length_drop]
  have inside : nameEnd chars+1+((extension chars).take 3).length ≤ chars.length := by omega
  refine Performs.fitted (Nat.le_refl 8) enough rfl (nameLoop_performs holds separate.name_apart enough) ?_
  refine (Performs.test (b := false) (by rw [byte]; rfl) (inside_of_le (nameEnd_le chars))).seen ?_
  refine (Performs.test (b := false) (by rw [byte]; rfl) (inside_of_le (nameEnd_le chars))).seen ?_
  have copies := extLoop_performs holds separate enough goes (fitted 8 (baseName chars))
  rw [← rest] at copies
  rw [← List.append_nil (copied ext _)]
  have place : (nameEnd chars : Int)+1+((extension chars).take 3).length-nameEnd chars-1 = ((extension chars).take 3).length := by
    omega
  refine Performs.fitted (by decide) enough (congrArg (BitVec.ofInt 16) place) copies ?_
  have last : after (copied ext (fitted 3 (extension chars))) (after (copied name (fitted 8 (baseName chars))) memory)
      (filename ((nameEnd chars+1+((extension chars).take 3).length : Nat) : Int)) =
        chars.getD (nameEnd chars+1+((extension chars).take 3).length) 0 := by
    refine (after_other (fun b member => ?_) _).trans (byte_behind holds separate.name_apart _ inside)
    obtain ⟨k,_,same⟩ := mem_copied member
    exact separate.ext_apart k _ same.symm
  split
  · have ends : nameEnd chars+1+((extension chars).take 3).length = chars.length := by omega
    refine (Performs.test (b := false) ?_ (inside_of_le inside)).seen (Performs.pure 0)
    refine (congrArg (· != 0) last).trans ?_
    rw [ends,List.getD_eq_default _ _ (Nat.le_refl _)]
    rfl
  · refine (Performs.test (b := true) ?_ (inside_of_le inside)).seen (Performs.pure 1)
    refine (congrArg (· != 0) last).trans ?_
    exact bne_iff_ne.mpr (holds.getD_ne (by omega))

-- What a call comes to: its return value, the cells it may store to, and the two fields of an
-- accepted name.
structure Parsed (fuel : Nat) (memory : κ → Byte) (filename name ext : Int → κ) (chars : List Byte) (r : Int)
    (stores : List (κ × Byte)) : Prop where
  performs : Performs (Inside filename chars) memory (parseFileName fuel filename name ext) r stores
  accepts : r = 0 ↔ Fits83 chars
  within : ∀ k b, (k,b) ∈ stores → (∃ i : Nat, i < 8 ∧ k = name i) ∨ ∃ i : Nat, i < 3 ∧ k = ext i
  base : r = 0 → ∀ i : Nat, i < 8 → after stores memory (name i) = (baseName chars).getD i 0
  rest : r = 0 → ∀ i : Nat, i < 3 → after stores memory (ext i) = (extension chars).getD i 0

theorem after_fitted {place : Int → κ} (distinct : ∀ i j : Nat, place i = place j → i = j) {n : Nat} {bytes : List Byte}
    (short : bytes.length ≤ n) (memory : κ → Byte) {i : Nat} (inside : i < n) :
    after (copied place (fitted n bytes)) memory (place i) = bytes.getD i 0 := by
  rw [after_copied distinct,← fitted_getD short]
  have within : i < (fitted n bytes).length := by rwa [length_fitted]
  rw [List.getD_eq_getElem _ _ within,List.getD_eq_getElem _ _ within]

theorem parsed_fields (separate : Separate filename name ext) {r : Int} (accepts : r = 0 ↔ Fits83 chars)
    (performs : Performs (Inside filename chars) memory (parseFileName fuel filename name ext) r
      (copied name (fitted 8 (baseName chars)) ++ copied ext (fitted 3 (extension chars)))) :
    Parsed fuel memory filename name ext chars r
      (copied name (fitted 8 (baseName chars)) ++ copied ext (fitted 3 (extension chars))) := by
  refine ⟨performs,accepts,?_,?_,?_⟩
  · intro k b member
    exact (List.mem_append.mp member).imp mem_fitted mem_fitted
  · intro zero i inside
    rw [after_append,after_other]
    · exact after_fitted separate.name_cells (accepts.mp zero).1 memory inside
    · intro b member
      obtain ⟨j,_,same⟩ := mem_copied member
      exact separate.fields_apart i j same
  · intro zero i inside
    rw [after_append]
    exact after_fitted separate.ext_cells (accepts.mp zero).2 _ inside

theorem parsed (holds : HoldsString memory filename chars) (separate : Separate filename name ext) (enough : 8 < fuel) :
    ∃ r stores, Parsed fuel memory filename name ext chars r stores := by
  have within := baseName_le chars
  have cut : nameEnd chars = min 8 (baseName chars).length := List.length_take
  have long : (extension chars).length = chars.length - ((baseName chars).length + 1) := List.length_drop
  rcases Nat.lt_or_eq_of_le (nameEnd_le chars) with goes | ends
  · by_cases stops : chars.getD (nameEnd chars) 0 = dot
    · have short : (baseName chars).length ≤ 8 := by
        by_contra longer
        exact (baseName_getD (show nameEnd chars < (baseName chars).length by omega)).2 stops
      refine ⟨_,_,parsed_fields separate ?_ (name_dotted holds separate enough goes stops)⟩
      unfold Fits83
      split
      · rename_i three
        exact ⟨fun _ => ⟨short,three⟩,fun _ => rfl⟩
      · rename_i more
        exact ⟨fun one => absurd one (by decide),fun fits => absurd fits.2 more⟩
    · have longer : ¬ (baseName chars).length ≤ 8 := fun short => by
        have whole : nameEnd chars = (baseName chars).length := by omega
        rw [whole] at goes stops
        exact stops (baseName_stops goes)
      refine ⟨1,_,name_too_long holds separate enough goes stops,?_,?_,?_,?_⟩
      · exact ⟨fun one => absurd one (by decide),fun fits => absurd fits.1 longer⟩
      · exact fun k b member => Or.inl (mem_fitted member)
      · exact fun one => absurd one (by decide)
      · exact fun one => absurd one (by decide)
  · refine ⟨0,_,parsed_fields separate ?_ (name_ended holds separate enough ends)⟩
    exact ⟨fun _ => ⟨by omega,by omega⟩,fun _ => rfl⟩

end parse

section injective
variable {a b : List Byte}

-- Equal, or one is the other with a final dot behind its base name.
def SameButDot (a b : List Byte) : Prop := a = b ∨ (dot ∉ b ∧ a = b ++ [dot]) ∨ (dot ∉ a ∧ b = a ++ [dot])

theorem eq_of_padded {n : Nat} (solid : ∀ x ∈ a, x ≠ 0) (solid' : ∀ x ∈ b, x ≠ 0) (short : a.length ≤ n) (short' : b.length ≤ n)
    (same : ∀ i < n, a.getD i 0 = b.getD i 0) : a = b := by
  have shorter : ∀ {a b : List Byte}, (∀ x ∈ b, x ≠ 0) → b.length ≤ n → (∀ i < n, a.getD i 0 = b.getD i 0) →
      b.length ≤ a.length := by
    intro a b solid short same
    by_contra longer
    have inside : a.length < b.length := Nat.lt_of_not_le longer
    have byte := same a.length (by omega)
    rw [List.getD_eq_default _ _ (Nat.le_refl _),List.getD_eq_getElem b 0 inside] at byte
    exact solid _ (List.getElem_mem inside) byte.symm
  have length : a.length = b.length :=
    Nat.le_antisymm (shorter solid short fun i inside => (same i inside).symm) (shorter solid' short' same)
  refine List.ext_getElem length fun i inside inside' => ?_
  have byte := same i (by omega)
  rwa [List.getD_eq_getElem a 0 inside,List.getD_eq_getElem b 0 inside'] at byte

theorem dot_notMem_baseName (a : List Byte) : dot ∉ baseName a := fun member =>
  absurd (List.mem_takeWhile_imp member) (by simp)

theorem drop_baseName (short : (baseName a).length < a.length) : a.drop (baseName a).length = dot :: extension a := by
  have stops := baseName_stops short
  rw [List.getD_eq_getElem a 0 short] at stops
  rw [List.drop_eq_getElem_cons short,stops]
  rfl

-- A name is its base name, or has a dot and the extension behind it.
theorem name_parts (a : List Byte) : a = baseName a ∧ extension a = [] ∨ a = baseName a ++ dot :: extension a := by
  rcases Nat.lt_or_eq_of_le (baseName_le a) with short | whole
  · right
    have front : baseName a = a.take (baseName a).length := List.prefix_iff_eq_take.mp (List.takeWhile_prefix _)
    calc a = a.take (baseName a).length ++ a.drop (baseName a).length := (List.take_append_drop _ _).symm
      _ = baseName a ++ dot :: extension a := by rw [← front,drop_baseName short]
  · left
    have same : baseName a = a := (List.takeWhile_prefix _).eq_of_length whole
    exact ⟨same.symm,List.drop_eq_nil_of_le (by omega)⟩

theorem sameButDot_of_parts (base : baseName a = baseName b) (rest : extension a = extension b) : SameButDot a b := by
  rcases name_parts a with ⟨whole,none⟩ | dotted
  · rcases name_parts b with ⟨whole',_⟩ | dotted'
    · exact Or.inl (whole.trans (base.trans whole'.symm))
    · rw [← rest,none,← base,← whole] at dotted'
      exact Or.inr (Or.inr ⟨whole ▸ dot_notMem_baseName a,dotted'⟩)
  · rcases name_parts b with ⟨whole',none'⟩ | dotted'
    · rw [rest,none',base,← whole'] at dotted
      exact Or.inr (Or.inl ⟨whole' ▸ dot_notMem_baseName b,dotted⟩)
    · rw [rest,base,← dotted'] at dotted
      exact Or.inl dotted

end injective

-- The same function over the list of the bytes.
section agree
variable {filename : List Byte}

theorem parseFileName_fits (fits : Fits83 filename) :
    Command.parseFileName filename = some (Command.padded 8 (baseName filename),Command.padded 3 (extension filename)) := by
  have front : (filename.take 8).takeWhile (· != dot) = baseName filename := by
    rw [← List.take_takeWhile]
    exact List.take_of_length_le fits.1
  unfold Command.parseFileName
  simp only [front]
  rcases Nat.lt_or_eq_of_le (baseName_le filename) with short | whole
  · rw [drop_baseName short]
    exact (if_neg (not_not.mpr rfl)).trans (if_neg (Nat.not_lt.mpr fits.2))
  · have ended : filename.drop (baseName filename).length = [] := List.drop_eq_nil_of_le whole.ge
    have none : extension filename = [] := List.drop_eq_nil_of_le (by omega)
    rw [ended,none]

theorem parseFileName_unfit (unfit : ¬ Fits83 filename) : Command.parseFileName filename = none := by
  unfold Command.parseFileName
  rw [← List.take_takeWhile]
  by_cases eight : (baseName filename).length ≤ 8
  · have long : ¬ (extension filename).length ≤ 3 := fun three => unfit ⟨eight,three⟩
    rw [show (filename.takeWhile (· != dot)).take 8 = baseName filename from List.take_of_length_le eight]
    rcases Nat.lt_or_eq_of_le (baseName_le filename) with short | whole
    · simp only [drop_baseName short]
      exact (if_neg (not_not.mpr rfl)).trans (if_pos (Nat.lt_of_not_le long))
    · have none : extension filename = [] := List.drop_eq_nil_of_le (by omega)
      exact absurd (by simp [none]) long
  · have cut : ((filename.takeWhile (· != dot)).take 8).length = 8 := by
      rw [List.length_take]
      exact Nat.min_eq_left (Nat.le_of_not_le eight)
    have inside : 8 < filename.length := Nat.lt_of_lt_of_le (Nat.lt_of_not_le eight) (baseName_le filename)
    obtain ⟨_,plain⟩ := baseName_getD (Nat.lt_of_not_le eight)
    rw [List.getD_eq_getElem filename 0 inside] at plain
    simp only [cut,List.drop_eq_getElem_cons inside]
    exact if_pos plain

theorem Parsed.agrees {κ : Type} [DecidableEq κ] {memory : κ → Byte} {field name ext : Int → κ} {fuel : Nat} {r : Int}
    {stores : List (κ × Byte)} (parsed : Parsed fuel memory field name ext filename r stores) :
    (r = 0 ↔ (Command.parseFileName filename).isSome) ∧ ∀ n e, Command.parseFileName filename = some (n,e) →
      (∀ i : Fin 8, after stores memory (name i) = n i) ∧ ∀ i : Fin 3, after stores memory (ext i) = e i := by
  by_cases fits : Fits83 filename
  · have zero := parsed.accepts.mpr fits
    rw [parseFileName_fits fits]
    refine ⟨iff_of_true zero rfl,fun n e same => ?_⟩
    cases same
    exact ⟨fun i => parsed.base zero i i.isLt,fun i => parsed.rest zero i i.isLt⟩
  · rw [parseFileName_unfit fits]
    exact ⟨iff_of_false (fun zero => fits (parsed.accepts.mp zero)) Bool.false_ne_true,fun n e same => nomatch same⟩

end agree

section exact
variable {κ : Type} [DecidableEq κ] {filename name ext : Int → κ} {fuel : Nat}

-- On every string the call returns, accepts just the 8.3 names, and stores in the two fields
-- only; and accepted names that come out the same are the same up to a final dot.
theorem parseFileName_exact {memory : κ → Byte} {chars : List Byte} (holds : HoldsString memory filename chars)
    (separate : Separate filename name ext) (enough : 8 < fuel) :
    (∃ r stores, Parsed fuel memory filename name ext chars r stores) ∧
    ∀ memory' chars' stores stores', HoldsString memory' filename chars' →
      Performs (Inside filename chars) memory (parseFileName fuel filename name ext) 0 stores →
      Performs (Inside filename chars') memory' (parseFileName fuel filename name ext) 0 stores' →
      (∀ i : Nat, i < 8 → after stores memory (name i) = after stores' memory' (name i)) →
      (∀ i : Nat, i < 3 → after stores memory (ext i) = after stores' memory' (ext i)) → SameButDot chars chars' := by
  refine ⟨parsed holds separate enough,?_⟩
  intro memory' chars' stores stores' holds' accepted accepted' names exts
  obtain ⟨r,w,one⟩ := parsed holds separate enough
  obtain ⟨r',w',other⟩ := parsed holds' separate enough
  obtain ⟨rfl,rfl⟩ := accepted.unique one.performs
  obtain ⟨rfl,rfl⟩ := accepted'.unique other.performs
  have fits := one.accepts.mp rfl
  have fits' := other.accepts.mp rfl
  have inBase : ∀ {a : List Byte}, (∀ x ∈ a, x ≠ 0) → ∀ x ∈ baseName a, x ≠ 0 :=
    fun solid x member => solid x ((List.takeWhile_prefix _).subset member)
  have inRest : ∀ {a : List Byte}, (∀ x ∈ a, x ≠ 0) → ∀ x ∈ extension a, x ≠ 0 :=
    fun solid x member => solid x (List.mem_of_mem_drop member)
  refine sameButDot_of_parts ?_ ?_
  · refine eq_of_padded (inBase holds.solid) (inBase holds'.solid) fits.1 fits'.1 fun i inside => ?_
    rw [← one.base rfl i inside,names i inside,other.base rfl i inside]
  · refine eq_of_padded (inRest holds.solid) (inRest holds'.solid) fits.2 fits'.2 fun i inside => ?_
    rw [← one.rest rfl i inside,exts i inside,other.rest rfl i inside]

end exact

inductive NameArray where
  | filename
  | name
  | ext
deriving DecidableEq

def typed (chars : List Byte) : NameArray × Int → Byte := fun k =>
  if k.1 = .filename ∧ 0 ≤ k.2 then chars.getD k.2.toNat 0 else 0

theorem typed_holds {chars : List Byte} (solid : ∀ b ∈ chars, b ≠ 0) :
    HoldsString (typed chars) (fun i => (NameArray.filename,i)) chars :=
  .of_getD (fun i _ => by simp [typed]) solid

theorem namePointers_separate : Separate (fun i => (NameArray.filename,i)) (fun i => (NameArray.name,i)) (fun i => (NameArray.ext,i)) :=
  ⟨by simp,by simp,by simp,by simp,by simp⟩

-- "abcdefgh.txt" is accepted, with both fields full.
theorem full_name_parsed : ∃ r stores, Parsed 9 (typed (Command.chars "abcdefgh.txt")) (fun i => (NameArray.filename,i))
    (fun i => (NameArray.name,i)) (fun i => (NameArray.ext,i)) (Command.chars "abcdefgh.txt") r stores :=
  (parseFileName_exact (typed_holds (by decide +kernel)) namePointers_separate (by decide)).1

end Sosis.StringLoops
