import Mathlib.Logic.Function.Basic

-- Memory as the users of it see it, each through a translation of its addresses of
-- its own. What is stored through one translation is found through it again, and is
-- not seen through one that leads nowhere the first one leads.
namespace Sosis.AddressSpaces
variable {α : Type u} {π : Type v} {β : Type w}

def view (leads : α → Option π) (m : π → β) (a : α) : Option β := (leads a).map m

def put [DecidableEq π] (leads : α → Option π) (m : π → β) (a : α) (b : β) : Option (π → β) :=
  (leads a).map fun p => Function.update m p b

-- A whole memory of the user's brought back, where `back` tells which places are its.
def settle (back : π → Option α) (seen : α → β) (m : π → β) (p : π) : β := (back p).elim (m p) seen

def Apart (leads leads' : α → Option π) : Prop := ∀ a a' p, leads a = some p → leads' a' ≠ some p

def Injects (leads : α → Option π) : Prop := ∀ a a' p, leads a = some p → leads a' = some p → a = a'

def Within (leads leads' : α → Option π) : Prop := ∀ a p, leads a = some p → leads' a = some p

variable {leads leads' : α → Option π} {m m' : π → β} {a : α} {b : β}

theorem view_congr (same : ∀ a p, leads a = some p → m' p = m p) : view leads m' = view leads m := by
  funext a
  unfold view
  cases at_ : leads a with
  | none => rfl
  | some p => exact congrArg some (same a p at_)

theorem put_some [DecidableEq π] : put leads m a b = some m' ↔ ∃ p, leads a = some p ∧ m' = Function.update m p b := by
  unfold put
  rw [Option.map_eq_some_iff]
  exact exists_congr fun p => and_congr_right fun _ => eq_comm

-- What may be written through is part of what may be read through.
theorem view_put [DecidableEq α] [DecidableEq π] (injects : Injects leads) (within : Within leads' leads)
    (stored : put leads' m a b = some m') : view leads m' = Function.update (view leads m) a (some b) := by
  obtain ⟨p,at_,rfl⟩ := put_some.mp stored
  have here := within a p at_
  funext x
  unfold view
  by_cases same : x = a
  · rw [same,here,Function.update_self]
    exact congrArg some (Function.update_self ..)
  · rw [Function.update_of_ne same]
    cases there : leads x with
    | none => rfl
    | some q =>
      have other : q ≠ p := by
        rintro rfl
        exact same (injects x a q there here)
      exact congrArg some (Function.update_of_ne other ..)

theorem view_put_apart [DecidableEq π] (apart : Apart leads leads') (stored : put leads' m a b = some m') :
    view leads m' = view leads m := by
  obtain ⟨p,at_,rfl⟩ := put_some.mp stored
  refine view_congr fun x q there => Function.update_of_ne ?_ ..
  rintro rfl
  exact apart x a q there at_

theorem settle_outside {back : π → Option α} {seen : α → β} {p : π} (outside : back p = none) : settle back seen m p = m p := by
  rw [settle,outside]
  rfl

end Sosis.AddressSpaces
