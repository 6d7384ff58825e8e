import Mathlib.Algebra.BigOperators.Group.List.Basic
import Mathlib.Algebra.GroupWithZero.Nat
import Mathlib.Algebra.Order.BigOperators.Group.List
import Mathlib.Algebra.Order.Group.Nat
import Mathlib.Data.List.Count
import Mathlib.Data.List.Nodup
import Mathlib.Logic.Relation

-- Walks that serve the front of a queue and append its children behind, over any
-- nodes. Nothing is marked as seen: a node is served once for every way down to it.
namespace Sosis.QueueWalk

-- Starting with this queue, the nodes served until it is empty, in order.
inductive Served (children : α → List α) : List α → List α → Prop where
  | done : Served children [] []
  | next : Served children (rest ++ children a) served → Served children (a :: rest) (a :: served)

-- `b` lies below `a`, or is `a`.
abbrev Below (children : α → List α) : α → α → Prop := Relation.ReflTransGen fun a b => b ∈ children a

variable {α : Type u} {children : α → List α} {queue served : List α} {a b : α}

theorem Served.nil_iff : Served children [] served ↔ served = [] := by
  constructor
  · intro walk
    cases walk
    rfl
  · rintro rfl
    exact .done

theorem Served.cons_iff {rest : List α} : Served children (a :: rest) served ↔
    ∃ later, Served children (rest ++ children a) later ∧ served = a :: later := by
  constructor
  · intro walk
    cases walk with
    | next later => exact ⟨_,later,rfl⟩
  · rintro ⟨later,walk,rfl⟩
    exact .next walk

-- Everything in the queue and every child of a node served is served, and nothing else.
theorem Served.eq_append (h : Served children queue served) : served = queue ++ served.flatMap children := by
  induction h with
  | done => rfl
  | @next rest a served _ ih =>
    rw [List.flatMap_cons,List.cons_append,← List.append_assoc]
    exact congrArg _ ih

theorem Served.child (h : Served children queue served) (member : a ∈ served) (below : b ∈ children a) : b ∈ served := by
  rw [h.eq_append]
  exact List.mem_append_right _ (List.mem_flatMap.mpr ⟨a,member,below⟩)

theorem Served.closed_below (h : Served children queue served) (member : a ∈ served) (below : Below children a b) :
    b ∈ served := by
  induction below with
  | refl => exact member
  | tail _ step ih => exact h.child ih step

theorem Served.mem_iff (h : Served children queue served) : b ∈ served ↔ ∃ a ∈ queue, Below children a b := by
  constructor
  · intro member
    induction h with
    | done => cases member
    | @next rest a served _ ih =>
      rcases List.mem_cons.mp member with rfl | later
      · exact ⟨b,by simp,.refl⟩
      · obtain ⟨c,inQueue,below⟩ := ih later
        rcases List.mem_append.mp inQueue with waiting | child
        · exact ⟨c,List.mem_cons_of_mem _ waiting,below⟩
        · exact ⟨a,by simp,.head child below⟩
  · rintro ⟨a,waiting,below⟩
    refine h.closed_below ?_ below
    rw [h.eq_append]
    exact List.mem_append_left _ waiting

section count
variable [DecidableEq α]

-- A node is served as often as it waits and as it is a child of nodes served.
theorem Served.count_eq (h : Served children queue served) (b : α) :
    served.count b = queue.count b + (served.map fun a => (children a).count b).sum := by
  conv => lhs; rw [h.eq_append]
  rw [List.count_append,List.count_flatMap]
  rfl

theorem sum_map_ite_eq (l : List α) (a : α) (n : Nat) : (l.map fun x => if x = a then n else 0).sum = l.count a * n := by
  induction l with
  | nil => simp
  | cons x rest ih =>
    by_cases here : x = a
    · simp [here,ih,Nat.succ_mul,Nat.add_comm]
    · simp [here,ih,List.count_cons_of_ne here]

-- Where all of a node's places in the walk come from one parent, it is served as often.
theorem Served.count_child (h : Served children queue served) {parent : α} (waiting : queue.count b = 0)
    (once : (children parent).count b = 1) (only : ∀ a ∈ served, a ≠ parent → b ∉ children a) :
    served.count b = served.count parent := by
  rw [h.count_eq,waiting,Nat.zero_add]
  have each : served.map (fun a => (children a).count b) = served.map fun a => if a = parent then 1 else 0 := by
    refine List.map_congr_left fun a member => ?_
    by_cases here : a = parent
    · rw [if_pos here,here,once]
    · rw [if_neg here,List.count_eq_zero]
      exact only a member here
  rw [each,sum_map_ite_eq,Nat.mul_one]

theorem Served.count_root (h : Served children [a] served) (only : ∀ c ∈ served, a ∉ children c) :
    served.count a = 1 := by
  rw [h.count_eq]
  have each : served.map (fun c => (children c).count a) = served.map fun _ => 0 := by
    refine List.map_congr_left fun c member => ?_
    rw [List.count_eq_zero]
    exact only c member
  rw [each]
  simp

-- A node below one that is served twice is served twice, and so is one with two parents.
theorem Served.count_le_child (h : Served children queue served) (below : b ∈ children a) :
    served.count a ≤ served.count b := by
  rw [h.count_eq b,← Nat.mul_one (served.count a),← sum_map_ite_eq]
  refine le_trans (List.sum_le_sum fun c _ => ?_) (Nat.le_add_left _ _)
  split
  · rename_i here
    rw [here]
    exact List.count_pos_iff.mpr below
  · exact Nat.zero_le _

theorem Served.count_two_parents (h : Served children queue served) {c : α} (other : a ≠ c) (left : a ∈ served)
    (right : c ∈ served) (belowLeft : b ∈ children a) (belowRight : b ∈ children c) : 2 ≤ served.count b := by
  rw [h.count_eq b]
  have both : served.count a * 1 + served.count c * 1 ≤ (served.map fun x => (children x).count b).sum := by
    rw [← sum_map_ite_eq,← sum_map_ite_eq,← List.sum_map_add]
    refine List.sum_le_sum fun x _ => ?_
    have inLeft := List.count_pos_iff.mpr belowLeft
    have inRight := List.count_pos_iff.mpr belowRight
    by_cases atA : x = a
    · rw [atA,if_pos rfl,if_neg other]
      omega
    · rw [if_neg atA]
      split
      · rename_i atC
        rw [atC]
        omega
      · omega
  have first := List.count_pos_iff.mpr left
  have second := List.count_pos_iff.mpr right
  omega

theorem Served.count_waiting (h : Served children queue served) (waiting : b ∈ queue) (member : a ∈ served)
    (below : b ∈ children a) : 2 ≤ served.count b := by
  rw [h.count_eq b]
  have first := List.count_pos_iff.mpr waiting
  have inside : (children a).count b ∈ served.map fun x => (children x).count b :=
    List.mem_map.mpr ⟨a,member,rfl⟩
  have second := List.single_le_sum (fun _ _ => Nat.zero_le _) _ inside
  have third := List.count_pos_iff.mpr below
  omega

end count

-- A node outweighs all of its children together.
theorem children_lighter {rank : α → Nat} {bound width : Nat} (higher : ∀ b ∈ children a, rank a < rank b ∧ rank b ≤ bound)
    (narrow : (children a).length ≤ width) :
    ((children a).map fun b => (width+1)^(bound - rank b)).sum < (width+1)^(bound - rank a) := by
  by_cases leaf : children a = []
  · rw [leaf]
    exact Nat.pow_pos (Nat.succ_pos _)
  · obtain ⟨b,below⟩ := List.exists_mem_of_ne_nil _ leaf
    have top := higher b below
    have each : ∀ c ∈ children a, (width+1)^(bound - rank c) ≤ (width+1)^(bound - rank a - 1) := by
      intro c child
      have := higher c child
      exact Nat.pow_le_pow_right (Nat.succ_pos _) (by omega)
    calc ((children a).map fun b => (width+1)^(bound - rank b)).sum
        ≤ (children a).length • (width+1)^(bound - rank a - 1) := by
          refine le_trans (List.sum_le_card_nsmul _ _ fun n inMap => ?_) (by rw [List.length_map])
          obtain ⟨c,child,rfl⟩ := List.mem_map.mp inMap
          exact each c child
      _ ≤ width * (width+1)^(bound - rank a - 1) := Nat.mul_le_mul_right _ narrow
      _ < (width+1) * (width+1)^(bound - rank a - 1) :=
          Nat.mul_lt_mul_of_pos_right (Nat.lt_succ_self _) (Nat.pow_pos (Nat.succ_pos _))
      _ = (width+1)^(bound - rank a) := by
          rw [← Nat.pow_succ']
          congr 1
          omega

-- Where every child ranks higher and no rank exceeds a bound, the queue runs empty: its
-- weight goes down in every turn.
theorem Served.exists {members : Set α} {rank : α → Nat} {bound width : Nat}
    (closed : ∀ a ∈ members, ∀ b ∈ children a, b ∈ members ∧ rank a < rank b)
    (bounded : ∀ a ∈ members, rank a ≤ bound) (narrow : ∀ a, (children a).length ≤ width)
    (inside : ∀ a ∈ queue, a ∈ members) : ∃ served, Served children queue served := by
  generalize weight : (queue.map fun a => (width+1)^(bound - rank a)).sum = w
  induction w using Nat.strong_induction_on generalizing queue with
  | _ w ih =>
    cases queue with
    | nil => exact ⟨[],.done⟩
    | cons a rest =>
      have member := inside a (by simp)
      have lighter := children_lighter (fun b child => ⟨(closed a member b child).2,bounded b (closed a member b child).1⟩)
        (narrow a)
      have less : ((rest ++ children a).map fun b => (width+1)^(bound - rank b)).sum < w := by
        rw [← weight,List.map_append,List.sum_append,List.map_cons,List.sum_cons,Nat.add_comm]
        exact Nat.add_lt_add_right lighter _
      obtain ⟨served,walk⟩ := @ih _ less (rest ++ children a) (fun b waiting => by
        rcases List.mem_append.mp waiting with old | new
        · exact inside b (List.mem_cons_of_mem _ old)
        · exact (closed a member b new).1) rfl
      exact ⟨_,.next walk⟩

end Sosis.QueueWalk
