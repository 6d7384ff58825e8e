import Mathlib.Data.Fintype.Card
import Mathlib.Data.List.Nodup

-- Singly linked lists kept in an array of cells: a cell holds either the pointer
-- to the next cell or a stop value. Nothing here knows what the cells store.
namespace Sosis.LinkedCells

-- `Chain cells ptr stop p xs`: following the cells from the pointer `p` visits
-- exactly the cells `xs` and then meets the stop value.
inductive Chain (cells : ι → ν) (ptr : ι → ν) (stop : ν) : ν → List ι → Prop where
  | stop : Chain cells ptr stop stop []
  | link : Chain cells ptr stop (cells i) rest → Chain cells ptr stop (ptr i) (i :: rest)

-- From the pointer `p` the cells `xs` lead on to the pointer `q`.
inductive Path (cells : ι → ν) (ptr : ι → ν) : ν → List ι → ν → Prop where
  | nil : Path cells ptr p [] p
  | cons : Path cells ptr (cells i) rest q → Path cells ptr (ptr i) (i :: rest) q

-- What it takes for the stop value and the pointers not to be confused.
structure Pointers (ptr : ι → ν) (stop : ν) : Prop where
  injective : Function.Injective ptr
  neverStop : ∀ i, ptr i ≠ stop

variable {ι : Type u} {ν : Type v} {cells cells' : ι → ν} {ptr : ι → ν} {stop p : ν}
  {i j : ι} {xs ys rest : List ι}

theorem Chain.congr (chain : Chain cells ptr stop p xs)
    (same : ∀ i ∈ xs, cells' i = cells i) : Chain cells' ptr stop p xs := by
  induction chain with
  | stop => exact .stop
  | @link i rest tail ih =>
    refine .link ?_
    rw [same i (by simp)]
    exact ih fun j member => same j (List.mem_cons_of_mem _ member)

theorem Chain.stop_nil (legal : Pointers ptr stop) (chain : Chain cells ptr stop stop xs) :
    xs = [] := by
  generalize at_ : stop = q at chain
  cases chain with
  | stop => rfl
  | link tail => exact absurd at_.symm (legal.neverStop _)

theorem Chain.ptr_cons (legal : Pointers ptr stop) (chain : Chain cells ptr stop (ptr i) xs) :
    ∃ rest, xs = i :: rest ∧ Chain cells ptr stop (cells i) rest := by
  generalize at_ : ptr i = q at chain
  cases chain with
  | stop => exact absurd at_ (legal.neverStop _)
  | @link j rest tail =>
    have same : i = j := legal.injective at_
    subst same
    exact ⟨rest,rfl,tail⟩

theorem Chain.unique (legal : Pointers ptr stop) (left : Chain cells ptr stop p xs)
    (right : Chain cells ptr stop p ys) : xs = ys := by
  induction left generalizing ys with
  | stop => exact (Chain.stop_nil legal right).symm
  | link tail ih =>
    obtain ⟨rest,rfl,onward⟩ := Chain.ptr_cons legal right
    rw [ih onward]

theorem Chain.start_unique (left : Chain cells ptr stop p xs) (right : Chain cells' ptr stop q xs) : p = q := by
  cases left <;> cases right <;> rfl

-- Where two memories have the same chain, the cells on it are the same.
theorem Chain.same_cells (legal : Pointers ptr stop) (left : Chain cells ptr stop p xs) (right : Chain cells' ptr stop p xs)
    (member : i ∈ xs) : cells i = cells' i := by
  induction left with
  | stop => cases member
  | link tail ih =>
    obtain ⟨_,list,tail'⟩ := right.ptr_cons legal
    cases list
    have next := tail.start_unique tail'
    rcases List.mem_cons.mp member with rfl | later
    · exact next
    · exact ih (next ▸ tail') later

-- Where the chain passes through a cell, the rest of it is that cell's own chain.
theorem Chain.tail_of_mem (chain : Chain cells ptr stop p xs) (member : i ∈ xs) :
    ∃ earlier rest, xs = earlier ++ i :: rest ∧ Chain cells ptr stop (ptr i) (i :: rest) := by
  induction chain with
  | stop => cases member
  | @link j rest tail ih =>
    rcases List.mem_cons.mp member with rfl | inTail
    · exact ⟨[],rest,rfl,.link tail⟩
    · obtain ⟨earlier,later,split,onward⟩ := ih inTail
      exact ⟨j :: earlier,later,by rw [split]; rfl,onward⟩

-- A chain that stops never repeats a cell: a repetition would make it its own
-- proper suffix.
theorem Chain.nodup (legal : Pointers ptr stop) (chain : Chain cells ptr stop p xs) :
    xs.Nodup := by
  induction chain with
  | stop => exact List.nodup_nil
  | @link i rest tail ih =>
    refine List.nodup_cons.mpr ⟨fun member => ?_,ih⟩
    obtain ⟨earlier,later,split,onward⟩ := tail.tail_of_mem member
    have same := Chain.unique legal (.link tail) onward
    have lengths := congrArg List.length same
    rw [split] at lengths
    simp only [List.length_cons,List.length_append] at lengths
    omega

theorem Chain.length_le [Fintype ι] (legal : Pointers ptr stop)
    (chain : Chain cells ptr stop p xs) : xs.length ≤ Fintype.card ι :=
  (chain.nodup legal).length_le_card

-- Every cell on a chain holds the stop value or points at a cell of the chain.
theorem Chain.cell_of_mem (chain : Chain cells ptr stop p xs) (member : i ∈ xs) :
    cells i = stop ∨ ∃ j ∈ xs, cells i = ptr j := by
  obtain ⟨earlier,rest,rfl,onward⟩ := chain.tail_of_mem member
  generalize at_ : ptr i = q at onward
  generalize list : i :: rest = zs at onward
  cases onward with
  | stop => cases list
  | link tail =>
    cases list
    generalize held : cells i = q at tail
    cases tail with
    | stop => exact Or.inl rfl
    | @link k later _ => exact Or.inr ⟨k,by simp,rfl⟩

theorem Chain.of_ptr (legal : Pointers ptr stop) (chain : Chain cells ptr stop (ptr i) xs) : i ∈ xs := by
  obtain ⟨rest,rfl,_⟩ := chain.ptr_cons legal
  simp

-- On one chain no two cells point at the same cell, and none points at the first.
theorem Chain.pointer_unique (legal : Pointers ptr stop) (chain : Chain cells ptr stop p xs)
    (left : i ∈ xs) (right : j ∈ xs) (same : cells i = cells j) : i = j := by
  obtain ⟨earlierI,restI,splitI,onwardI⟩ := chain.tail_of_mem left
  obtain ⟨earlierJ,restJ,splitJ,onwardJ⟩ := chain.tail_of_mem right
  obtain ⟨_,listI,tailI⟩ := onwardI.ptr_cons legal
  obtain ⟨_,listJ,tailJ⟩ := onwardJ.ptr_cons legal
  cases listI
  cases listJ
  rw [same] at tailI
  have tails := Chain.unique legal tailI tailJ
  rw [splitI,tails] at splitJ
  have lengths : (i :: restJ).length = (j :: restJ).length := rfl
  exact (List.cons.inj (List.append_inj' splitJ lengths).2).1

theorem Chain.head_unpointed (legal : Pointers ptr stop) (chain : Chain cells ptr stop p (i :: rest))
    (member : j ∈ i :: rest) : cells j ≠ ptr i := by
  intro points
  obtain ⟨earlier,later,split,onward⟩ := chain.tail_of_mem member
  obtain ⟨_,list,tail⟩ := onward.ptr_cons legal
  cases list
  rw [points] at tail
  have again := tail.of_ptr legal
  have distinct := chain.nodup legal
  rw [split] at distinct
  cases earlier with
  | nil =>
    cases split
    exact (List.nodup_cons.mp distinct).1 again
  | cons first between =>
    cases split
    exact (List.nodup_cons.mp distinct).1 (List.mem_append_right _ (List.mem_cons_of_mem _ again))

theorem Path.congr {q : ν} (path : Path cells ptr p xs q) (same : ∀ i ∈ xs, cells' i = cells i) :
    Path cells' ptr p xs q := by
  induction path with
  | nil => exact .nil
  | @cons i rest _ tail ih =>
    refine .cons ?_
    rw [same i (by simp)]
    exact ih fun j member => same j (List.mem_cons_of_mem _ member)

theorem Path.not_stop {q : ν} (legal : Pointers ptr stop) (path : Path cells ptr p xs q) (onward : q ≠ stop) : p ≠ stop := by
  cases path with
  | nil => exact onward
  | cons => exact legal.neverStop _

-- Every cell on a path holds the pointer behind it or points at a cell of the path.
theorem Path.cell_of_mem {q : ν} (path : Path cells ptr p xs q) (member : i ∈ xs) :
    cells i = q ∨ ∃ j ∈ xs, cells i = ptr j := by
  induction path with
  | nil => cases member
  | @cons k rest q tail ih =>
    rcases List.mem_cons.mp member with rfl | inTail
    · generalize held : cells i = next at tail
      cases tail with
      | nil => exact Or.inl rfl
      | @cons j => exact Or.inr ⟨j,by simp,rfl⟩
    · rcases ih inTail with last | ⟨j,inRest,points⟩
      · exact Or.inl last
      · exact Or.inr ⟨j,List.mem_cons_of_mem _ inRest,points⟩

theorem Chain.split {earlier : List ι} (chain : Chain cells ptr stop p (earlier ++ i :: rest)) :
    Path cells ptr p earlier (ptr i) ∧ Chain cells ptr stop (cells i) rest := by
  induction earlier generalizing p with
  | nil =>
    cases chain with
    | link tail => exact ⟨.nil,tail⟩
  | cons j earlier ih =>
    cases chain with
    | link tail =>
      obtain ⟨path,onward⟩ := ih tail
      exact ⟨.cons path,onward⟩

theorem Chain.single (ends : cells i = stop) : Chain cells ptr stop (ptr i) [i] :=
  .link (ends ▸ .stop)

end Sosis.LinkedCells
