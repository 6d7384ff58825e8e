import Sosis.ArgumentLoops
import Sosis.StringWords
import Sosis.ShellPath
import Mathlib.Data.List.GetD

-- getDir, countPath and getLastCluster on a path in memory: what they store, and where
-- their loops stop.
namespace Sosis.StringLoops
open ByteRecords Fat32 TracedMemory
open Command (space dot slash)

section path
variable {κ : Type} {memory : κ → Byte} {path dir : Int → κ}

-- getDir stops n bytes behind idx.
structure Stops (memory : κ → Byte) (path : Int → κ) (idx : Int) (n : Nat) : Prop where
  goes : ∀ j < n, memory (path (idx + j)) ≠ slash ∧ memory (path (idx + j)) ≠ 0
  stops : memory (path (idx + n)) = slash ∨ memory (path (idx + n)) = 0

theorem Stops.unique {idx : Int} {n m : Nat} (one : Stops memory path idx n) (other : Stops memory path idx m) : n = m := by
  rcases Nat.lt_trichotomy n m with before | same | behind
  · obtain ⟨plain,solid⟩ := other.goes n before
    exact absurd one.stops (not_or.mpr ⟨plain,solid⟩)
  · exact same
  · obtain ⟨plain,solid⟩ := one.goes m behind
    exact absurd other.stops (not_or.mpr ⟨plain,solid⟩)

theorem stops_or_goes (memory : κ → Byte) (path : Int → κ) (idx : Int) (limit : Nat) :
    (∃ n ≤ limit, Stops memory path idx n) ∨ ∀ j ≤ limit, memory (path (idx + j)) ≠ slash ∧ memory (path (idx + j)) ≠ 0 := by
  by_cases any : ∃ n ≤ limit, memory (path (idx + n)) = slash ∨ memory (path (idx + n)) = 0
  · left
    have least := Nat.find_spec any
    refine ⟨Nat.find any,least.1,fun j before => ?_,least.2⟩
    exact not_or.mp fun stops => Nat.find_min any before ⟨by omega,stops⟩
  · right
    intro j within
    exact not_or.mp fun stops => any ⟨j,within,stops⟩

theorem Stops.congr {memory' : κ → Byte} {idx : Int} {n : Nat}
    (same : ∀ j : Nat, memory' (path (idx + j)) = memory (path (idx + j))) : Stops memory' path idx n ↔ Stops memory path idx n := by
  constructor
  · rintro ⟨goes,stops⟩
    exact ⟨fun j before => same j ▸ goes j before,same n ▸ stops⟩
  · rintro ⟨goes,stops⟩
    exact ⟨fun j before => (same j).symm ▸ goes j before,(same n).symm ▸ stops⟩

-- A component stops at the slash behind it, or at the end of the path.
theorem stops_of_component {idx : Int} {rest c tail : List Byte} (holds : HoldsString memory (fun i => path (idx + i)) rest)
    (parts : rest = c ++ tail) (plain : slash ∉ c) (ends : tail = [] ∨ ∃ later, tail = slash :: later) :
    Stops memory path idx c.length := by
  have within : c.length ≤ rest.length := by rw [parts,List.length_append]; omega
  have byte : ∀ j, j ≤ c.length → memory (path (idx + (j : Nat))) = (c ++ tail).getD j 0 := fun j inside =>
    parts ▸ holds.getD (Nat.le_trans inside within)
  constructor
  · intro j before
    have known := byte j (Nat.le_of_lt before)
    rw [List.getD_append _ _ _ _ before,List.getD_eq_getElem _ _ before] at known
    rw [known]
    refine ⟨fun same => plain (same ▸ List.getElem_mem before),holds.solid _ ?_⟩
    rw [parts]
    exact List.mem_append_left _ (List.getElem_mem before)
  · have known := byte c.length (Nat.le_refl _)
    rw [List.getD_append_right _ _ _ _ (Nat.le_refl _),Nat.sub_self] at known
    rw [known]
    rcases ends with rfl | ⟨later,rfl⟩
    · exact Or.inr rfl
    · exact Or.inl rfl

theorem HoldsString.suffix {memory' : κ → Byte} {idx : Int} {front later : List Byte}
    (holds : HoldsString memory (fun i => path (idx + i)) (front ++ later)) (same : ∀ k, memory' (path k) = memory (path k)) :
    HoldsString memory' (fun i => path (idx + front.length + i)) later := by
  have byte : ∀ i, i ≤ later.length → memory' (path (idx + front.length + (i : Nat))) = later.getD i 0 := by
    intro i inside
    have known := holds.getD (show front.length + i ≤ (front ++ later).length by rw [List.length_append]; omega)
    rw [List.getD_append_right _ _ _ _ (Nat.le_add_right _ _),Nat.add_sub_cancel_left] at known
    rw [same,← known,Int.add_assoc,Int.natCast_add]
  refine ⟨fun i inside => ?_,?_,fun b member => holds.solid b (List.mem_append_right _ member)⟩
  · rw [byte i (Nat.le_of_lt inside),List.getD_eq_getElem _ _ inside]
  · rw [byte _ (Nat.le_refl _),List.getD_eq_default _ _ (Nat.le_refl _)]

variable [DecidableEq κ] {fuel : Nat}

def pathByte (memory : κ → Byte) (path : Int → κ) (idx : Int) (j : Nat) : Byte := memory (path (idx + j))

-- What getDir has stored before turn i.
def dirStores (memory : κ → Byte) (path dir : Int → κ) (idx : Int) (i : Nat) : List (κ × Byte) :=
  (List.range i).flatMap fun j : Nat => [(dir j,pathByte memory path idx j)]

theorem path_kept (memory : κ → Byte) (separate : ∀ i j : Int, dir i ≠ path j) (idx : Int) (i : Nat) (k : Int) :
    after (dirStores memory path dir idx i) memory (path k) = memory (path k) := by
  refine after_other (fun b member => ?_) memory
  obtain ⟨j,_,here⟩ := List.mem_flatMap.mp member
  exact separate j k (congrArg Prod.fst (List.mem_singleton.mp here)).symm

theorem inDir_goes {i : Int} (plain : memory (path i) ≠ slash) (solid : memory (path i) ≠ 0) :
    Performs (fun _ => True) memory (inDir path slash i) true [] := by
  have first : Performs (fun _ => True) memory (test (· != slash) (path i)) true [] := Performs.test (bne_iff_ne.mpr plain) trivial
  have second : Performs (fun _ => True) memory (test (· != 0) (path i)) true [] := Performs.test (bne_iff_ne.mpr solid) trivial
  exact first.seen second

theorem inDir_stops {i : Int} (stops : memory (path i) = slash ∨ memory (path i) = 0) :
    Performs (fun _ => True) memory (inDir path slash i) false [] := by
  by_cases delimits : memory (path i) = slash
  · have first : Performs (fun _ => True) memory (test (· != slash) (path i)) false [] :=
      Performs.test (by rw [delimits]; rfl) trivial
    exact first.seen (Performs.pure false)
  · have first : Performs (fun _ => True) memory (test (· != slash) (path i)) true [] :=
      Performs.test (bne_iff_ne.mpr delimits) trivial
    have second : Performs (fun _ => True) memory (test (· != 0) (path i)) false [] :=
      Performs.test (by rw [stops.resolve_left delimits]; rfl) trivial
    exact first.seen second

theorem dirTurn_performs (separate : ∀ i j : Int, dir i ≠ path j) (idx : Int) (i : Nat) :
    Performs (fun _ => True) (after (dirStores memory path dir idx i) memory) (dirTurn path dir (idx + i,(i : Int)))
      (idx + (i+1 : Nat),((i+1 : Nat) : Int)) [(dir i,pathByte memory path idx i)] := by
  have next : ((idx + (i+1 : Nat),((i+1 : Nat) : Int)) : Int × Int) = (idx + i + 1,(i : Int) + 1) := by
    rw [Int.natCast_succ,Int.add_assoc]
  rw [next]
  exact (Performs.read (path_kept memory separate idx i _) trivial).seen (Performs.store _ _).finally

theorem loopStart (idx : Int) : ((idx,0) : Int × Int) = (idx + (0 : Nat),((0 : Nat) : Int)) := by simp

-- The bytes between idx and the stop, and the padding to eight behind them.
def component (memory : κ → Byte) (path : Int → κ) (idx : Int) (n : Nat) : List Byte :=
  (List.range n).map (pathByte memory path idx) ++ List.replicate (8-n) 0

theorem getDir_performs (separate : ∀ i j : Int, dir i ≠ path j) {idx : Int} {n : Nat} (stops : Stops memory path idx n)
    (enough : n < fuel) (eight : 8 < fuel) :
    Performs (fun _ => True) memory (getDir fuel path dir slash idx) (idx + n + 1) (copied dir (component memory path idx n)) := by
  have known : ∀ j < n, ((List.range n).map (pathByte memory path idx))[j]? = some (pathByte memory path idx j) := by
    intro j before
    simp [before]
  have copy : Performs (fun _ => True) memory (loop (fun s : Int × Int => inDir path slash s.1) (dirTurn path dir) fuel (idx,0))
      (idx + n,(n : Int)) (copied dir ((List.range n).map (pathByte memory path idx))) := by
    rw [← flatMap_copied (by simp) known,loopStart idx]
    refine @Performs.counted κ Byte _ _ _ memory _ _ (fun i : Nat => (idx + i,(i : Int))) _ n fuel enough ?_ ?_ ?_
    · intro i before
      have byte := path_kept memory separate idx i (idx + i)
      exact inDir_goes (byte.symm ▸ (stops.goes i before).1) (byte.symm ▸ (stops.goes i before).2)
    · exact fun i _ => dirTurn_performs separate idx i
    · have byte := path_kept memory separate idx n (idx + n)
      exact inDir_stops (byte.symm ▸ stops.stops)
  have length : ((List.range n).map (pathByte memory path idx)).length = n := by simp
  have zeros : ∀ j < 8-n, (List.replicate (8-n) (0 : Byte))[j]? = some 0 := by
    intro j before
    rw [List.getElem?_replicate,if_pos before]
  have pads : ∀ memory : κ → Byte, Performs (fun _ => True) memory
      (loop (fun j : Int => pure (decide (j < 8))) (fun j => do
        store (dir j) 0
        return j+1) fuel (n : Int)) ((n : Int) + (8-n : Nat)) (copied (fun i => dir (n + i)) (List.replicate (8-n) 0)) := by
    intro memory
    rw [← flatMap_copied List.length_replicate zeros]
    have start : (n : Int) = (n : Int) + (0 : Nat) := (Int.add_zero _).symm
    nth_rewrite 2 [start]
    refine @Performs.counted κ Byte _ _ _ memory _ _ (fun j : Nat => (n : Int) + j) _ (8-n) fuel (by omega) ?_ ?_ ?_
    · intro j before
      rw [decide_eq_true (by omega)]
      exact Performs.pure true
    · intro j before
      have next : (n : Int) + (j+1 : Nat) = (n : Int) + j + 1 := by omega
      rw [next]
      exact (Performs.store _ _).finally
    · rw [decide_eq_false (by omega)]
      exact Performs.pure false
  rw [component,copied_append,length]
  exact copy.bind ((pads _).finally)

-- A component of nine bytes or more is stored past the array.
theorem getDir_overflows (separate : ∀ i j : Int, dir i ≠ path j) {idx : Int}
    (goes : ∀ j : Nat, j ≤ 8 → memory (path (idx + j)) ≠ slash ∧ memory (path (idx + j)) ≠ 0) {cells : κ → Prop} (outside : ¬ cells (dir 8)) :
    ¬ Confined cells memory (getDir fuel path dir slash idx) := by
  intro confined
  obtain ⟨s,w,performs,inside⟩ := confined.first
  rw [loopStart idx] at performs
  have going : ∀ i < 9, Performs (fun _ => True) (after (dirStores memory path dir idx i) memory)
      (inDir path slash (idx + (i : Nat))) true [] := by
    intro i before
    have byte := path_kept memory separate idx i (idx + i)
    have plain := goes i (Nat.le_of_lt_succ before)
    exact inDir_goes (byte.symm ▸ plain.1) (byte.symm ▸ plain.2)
  obtain ⟨later,rfl⟩ := @Performs.first_turns κ Byte _ _ (fun _ => True) memory w (fun s => inDir path slash s.1) (dirTurn path dir) s
    (fun i : Nat => (idx + i,(i : Int))) (fun i : Nat => [(dir i,pathByte memory path idx i)]) 9 fuel going
    (fun i _ => dirTurn_performs separate idx i) performs
  refine outside (inside _ (pathByte memory path idx 8) (List.mem_append_left _ ?_))
  exact List.mem_flatMap.mpr ⟨8,by decide,List.mem_singleton.mpr rfl⟩

theorem getDir_confined_iff (separate : ∀ i j : Int, dir i ≠ path j) (enough : 8 < fuel) {cells : κ → Prop}
    (inside : ∀ i : Nat, cells (dir i) ↔ i < 8) {γ : Type} {next : Int → Traced κ Byte γ} {idx : Int} :
    Confined cells memory (getDir fuel path dir slash idx >>= next) ↔ ∃ n ≤ 8, Stops memory path idx n ∧
      Confined cells (after (copied dir (component memory path idx n)) memory) (next (idx + n + 1)) := by
  have outside : ¬ cells (dir 8) := fun reached => absurd ((inside 8).mp reached) (Nat.lt_irrefl 8)
  constructor
  · intro confined
    rcases stops_or_goes memory path idx 8 with ⟨n,within,stops⟩ | goes
    · refine ⟨n,within,stops,((confined_bind_iff ?_).mp confined).2⟩
      exact getDir_performs separate stops (by omega) enough
    · exact absurd confined.first (getDir_overflows separate goes outside)
  · rintro ⟨n,within,stops,confined⟩
    refine (confined_bind_iff (getDir_performs separate stops (by omega) enough)).mpr ⟨fun k b member => ?_,confined⟩
    obtain ⟨i,before,rfl⟩ := mem_copied member
    refine (inside i).mpr (Nat.lt_of_lt_of_eq before ?_)
    simp only [component,List.length_append,List.length_map,List.length_range,List.length_replicate]
    omega

-- The path is as it was behind a getDir.
theorem path_behind (separate : ∀ i j : Int, dir i ≠ path j) (bytes : List Byte) (memory : κ → Byte) (k : Int) :
    after (copied dir bytes) memory (path k) = memory (path k) := by
  refine after_other (fun b member => ?_) memory
  obtain ⟨i,_,same⟩ := mem_copied member
  exact separate i k same.symm

-- What follows a component and its slash, once the component has been taken.
theorem HoldsString.behind {idx : Int} {rest c later : List Byte} (holds : HoldsString memory (fun i => path (idx + i)) rest)
    (separate : ∀ i j : Int, dir i ≠ path j) (parts : rest = c ++ slash :: later) :
    HoldsString (after (copied dir (component memory path idx c.length)) memory) (fun i => path (idx + c.length + 1 + i)) later := by
  have whole : rest = (c ++ [slash]) ++ later := by rw [parts,List.append_assoc]; rfl
  have suffix := (whole ▸ holds).suffix (path_behind separate (component memory path idx c.length) memory)
  have length : idx + (c ++ [slash]).length = idx + c.length + 1 := by
    rw [List.length_append,List.length_singleton,Int.natCast_succ,Int.add_assoc]
  rwa [length] at suffix

theorem followDirs_confined_iff (separate : ∀ i j : Int, dir i ≠ path j) (enough : 8 < fuel) {cells : κ → Prop}
    (inside : ∀ i : Nat, cells (dir i) ↔ i < 8) (find : Name → Word → Word) {comps : List (List Byte)} {rest : List Byte}
    {idx : Int} {w : Word} (holds : HoldsString memory (fun i => path (idx + i)) rest) (split : rest.splitOn slash = comps) :
    Confined cells memory (getDir fuel path dir slash idx >>= fun lastIdx => followDirs fuel path dir find comps.length w lastIdx) ↔
      (∀ c ∈ comps, c.length ≤ 8) ∧ ∃ n ≤ 8, Stops memory path (idx + rest.length + 1) n := by
  induction comps generalizing memory rest idx w with
  | nil => exact absurd split (List.splitOn_ne_nil _ _)
  | cons c more ih =>
    rw [getDir_confined_iff separate enough inside]
    have only : ∀ {stopped : Nat → Prop} {m : Nat}, Stops memory path idx m →
        ((∃ n ≤ 8, Stops memory path idx n ∧ stopped n) ↔ m ≤ 8 ∧ stopped m) := by
      intro stopped m first
      constructor
      · rintro ⟨n,within,stops,rest⟩
        cases stops.unique first
        exact ⟨within,rest⟩
      · rintro ⟨within,rest⟩
        exact ⟨m,within,first,rest⟩
    have turn : ∀ (memory : κ → Byte) (n : Nat) (w : Word) (idx : Int),
        (Confined cells memory (followDirs fuel path dir find (n+1) w idx) ↔ Confined cells memory
          (getDir fuel path dir slash idx >>= fun lastIdx =>
            followDirs fuel path dir find n (find (fun i => memory (dir i)) w) lastIdx)) :=
      fun memory n w idx => confined_seen_iff (Performs.readAll fun _ => trivial)
    rw [List.length_cons]
    by_cases delimited : slash ∈ rest
    · obtain ⟨front,later,parts,plain⟩ := List.eq_append_cons_of_mem delimited
      rw [parts,List.splitOn_append_cons_self_of_not_mem plain] at split
      cases split
      have same := path_behind separate (component memory path idx c.length) memory
      have long : rest.length = c.length + 1 + later.length := by
        rw [parts,List.length_append,List.length_cons]
        omega
      have onward := holds.behind separate parts
      rw [only (stops_of_component holds parts plain (Or.inr ⟨later,rfl⟩)),turn,ih onward rfl,List.forall_mem_cons,and_assoc]
      have behind : idx + c.length + 1 + later.length + 1 = idx + rest.length + 1 := by omega
      simp only [behind,Stops.congr fun j : Nat => same (idx + rest.length + 1 + j)]
    · rw [List.splitOn_eq_singleton delimited] at split
      cases split
      have same := path_behind separate (component memory path idx c.length) memory
      rw [only (stops_of_component holds (List.append_nil c).symm delimited (Or.inl rfl)),turn,
        getDir_confined_iff separate enough inside,List.forall_mem_singleton]
      simp only [Stops.congr fun j : Nat => same (idx + c.length + 1 + j)]
      refine and_congr_right fun _ => exists_congr fun n => and_congr_right fun _ => ?_
      exact and_iff_left (Confined.pure _)

theorem countPath_performs {chars : List Byte} (holds : HoldsString memory path chars) (enough : chars.length < fuel) :
    Performs (Inside path chars) memory (countPath fuel path) ((chars.splitOn slash).length : Int) [] := by
  have count : ((chars.splitOn slash).length : Int) = ((chars.take chars.length).count slash : Int) + 1 := by
    rw [Command.length_splitOn,Command.countPath,List.take_length]
    rfl
  rw [count]
  refine (@Performs.scans κ Byte _ _ _ memory _ _ (fun i : Nat => (((chars.take i).count slash : Int),(i : Int))) chars.length fuel
    enough ?_ ?_ ?_).finally
  · intro i before
    refine Performs.test ?_ (inside_of_le (Nat.le_of_lt before))
    rw [holds.getD (Nat.le_of_lt before)]
    exact bne_iff_ne.mpr (holds.getD_ne before)
  · intro i before
    have byte := holds.byte i before
    have grown : (chars.take (i+1)).count slash = (chars.take i).count slash + if chars[i] == slash then 1 else 0 := by
      rw [List.take_add_one,List.count_append,List.getElem?_eq_getElem before,Option.toList_some,List.count_singleton]
    rw [grown]
    by_cases here : chars[i] = slash
    · have look : Performs (Inside path chars) memory (test (· == slash) (path i)) true [] :=
        Performs.test (by rw [byte]; exact beq_iff_eq.mpr here) (inside_of_le (Nat.le_of_lt before))
      rw [if_pos (beq_iff_eq.mpr here)]
      exact look.finally
    · have look : Performs (Inside path chars) memory (test (· == slash) (path i)) false [] :=
        Performs.test (by rw [byte]; exact beq_eq_false_iff_ne.mpr here) (inside_of_le (Nat.le_of_lt before))
      rw [if_neg fun same => here (beq_iff_eq.mp same)]
      exact look.finally
  · refine Performs.test ?_ (inside_of_le (Nat.le_refl _))
    rw [holds.nul]
    rfl

theorem getLastCluster_confined_iff (separate : ∀ i j : Int, dir i ≠ path j) (eight : 8 < fuel) {cells : κ → Prop}
    (inside : ∀ i : Nat, cells (dir i) ↔ i < 8) (find : Name → Word → Word) (cur_cluster : Word) {chars : List Byte}
    (holds : HoldsString memory path chars) (enough : chars.length < fuel) :
    Confined cells memory (getLastCluster fuel path dir find cur_cluster) ↔
      (∀ c ∈ chars.splitOn slash, c.length ≤ 8) ∧ ∃ n ≤ 8, Stops memory path (chars.length + 1) n := by
  have front : HoldsString memory (fun i => path (0 + i)) chars := by simpa using holds
  have turns := @followDirs_confined_iff κ memory path dir _ fuel separate eight cells inside find _ chars 0 cur_cluster front rfl
  rw [Int.zero_add] at turns
  rw [← turns]
  exact confined_seen_iff ((countPath_performs holds enough).mono fun _ _ => trivial)

theorem strcmp_from {chars : List Byte} (holds : HoldsString memory path chars) {literal : List Byte}
    (solid : ∀ b ∈ literal, b ≠ 0) {i : Nat} (within : i ≤ chars.length) :
    Performs (fun _ => True) memory (strcmp path literal i) (decide (chars.drop i = literal)) [] := by
  induction literal generalizing i with
  | nil =>
    refine Performs.test ?_ trivial
    rw [holds.getD within,Bool.eq_iff_iff,beq_iff_eq,decide_eq_true_eq,List.drop_eq_nil_iff]
    constructor
    · intro nul
      by_contra before
      exact holds.getD_ne (Nat.lt_of_not_le before) nul
    · exact fun ends => List.getD_eq_default _ _ ends
  | cons c rest ih =>
    rcases Nat.lt_or_eq_of_le within with before | rfl
    · have byte := holds.byte i before
      have goes : Performs (fun _ => True) memory (test (· == 0) (path i)) false [] :=
        Performs.test (by rw [byte]; exact beq_eq_false_iff_ne.mpr (holds.solid _ (List.getElem_mem before))) trivial
      refine goes.seen ?_
      rw [List.drop_eq_getElem_cons before]
      by_cases same : chars[i] = c
      · have agrees : Performs (fun _ => True) memory (test (· != c) (path i)) false [] :=
          Performs.test (by rw [byte,same]; simp) trivial
        have onward := ih (fun b member => solid b (List.mem_cons_of_mem _ member)) (i := i+1) before
        refine agrees.seen ?_
        simpa [same] using onward
      · have differs : Performs (fun _ => True) memory (test (· != c) (path i)) true [] :=
          Performs.test (by rw [byte]; exact bne_iff_ne.mpr same) trivial
        refine differs.seen ?_
        rw [decide_eq_false fun whole => same (List.cons.inj whole).1]
        exact Performs.pure false
    · have ends : Performs (fun _ => True) memory (test (· == 0) (path chars.length)) true [] :=
        Performs.test (by rw [holds.nul]; rfl) trivial
      refine ends.seen ?_
      rw [List.drop_length,decide_eq_false (by simp)]
      exact Performs.pure false

theorem strcmp_performs {chars : List Byte} (holds : HoldsString memory path chars) (literal : List Byte)
    (solid : ∀ b ∈ literal, b ≠ 0) : Performs (fun _ => True) memory (strcmp path literal 0) (decide (chars = literal)) [] :=
  strcmp_from holds solid (Nat.zero_le _)

end path

end Sosis.StringLoops
