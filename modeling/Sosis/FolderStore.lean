import Mathlib.Data.Set.Card
import Sosis.TransitionRuns

-- What a medium of folders and files is for, without the cells that hold it. Folders
-- are known by a key, items by a name in a folder, and only the number of blocks that
-- are left is counted.
namespace Sosis.FolderStore
open TransitionRuns

-- `masked` is data that answers like a folder, `cut` the beginning of a content that
-- found no room for its end.
inductive Item (δ : Type u) (β : Type v) where
  | folder (key : δ)
  | file (content : List β)
  | masked (size blocks : Nat)
  | cut (size : Nat) (content : List β)

structure Store (δ : Type u) (ν : Type v) (β : Type w) where
  folders : Set δ
  entry : δ → ν → Option (Item δ β)
  -- folders that have lost a folder, where new data may end up masked
  worn : Set δ
  free : Nat

inductive Request (δ : Type u) (ν : Type v) (β : Type w) where
  | put (parent : δ) (name : ν) (content : List β)
  | remove (parent : δ) (name : ν)

inductive Answer where
  | done
  | taken
  | full
  | absent
  | occupied
  deriving DecidableEq

variable {δ : Type u} {ν : Type v} {β : Type w}

def Request.parent : Request δ ν β → δ
  | .put parent _ _ => parent
  | .remove parent _ => parent

def Request.name : Request δ ν β → ν
  | .put _ name _ => name
  | .remove _ name => name

namespace Store

def names (s : Store δ ν β) (d : δ) : Set ν := {n | s.entry d n ≠ none}

open Classical in
noncomputable def set (s : Store δ ν β) (d : δ) (n : ν) (item : Option (Item δ β)) : δ → ν → Option (Item δ β) :=
  fun d' n' => if d' = d ∧ n' = n then item else s.entry d' n'

end Store

-- A medium has a room for names in each folder and a size of block.
structure Medium where
  room : Nat
  block : Nat
  positive : 0 < block

namespace Medium

def blocks (m : Medium) (size : Nat) : Nat := (size + (m.block-1)) / m.block

def released (m : Medium) : Item δ β → Nat
  | .folder _ => 1
  | .file content => m.blocks content.length
  | .masked _ _ => 1
  | .cut _ content => m.blocks content.length

-- What may become of content that is put where there is room for `blocks` of it: the
-- part that fits, unless the folder is worn and masks it.
inductive Kept (m : Medium) (s : Store δ ν β) (d : δ) (content : List β) : Item δ β → Prop where
  | file : m.blocks content.length ≤ s.free → Kept m s d content (.file content)
  | cut : s.free < m.blocks content.length → Kept m s d content (.cut content.length (content.take (m.block*s.free)))
  | masked : d ∈ s.worn → Kept m s d content (.masked content.length (min (m.blocks content.length) s.free))

inductive Responds (m : Medium) : Store δ ν β → Request δ ν β × Answer → Store δ ν β → Prop where
  | taken {s d n content} : s.entry d n ≠ none → Responds m s (.put d n content,.taken) s
  | full {s d n content} : s.entry d n = none → ((s.names d).ncard = m.room ∨ s.free = 0) →
      Responds m s (.put d n content,.full) s
  | folder {s d n e} : s.entry d n = none → (s.names d).ncard < m.room → 0 < s.free → e ∉ s.folders →
      Responds m s (.put d n [],.done)
        {s with folders := insert e s.folders, entry := s.set d n (some (.folder e)), worn := s.worn \ {e}, free := s.free-1}
  | stored {s d n content item} : s.entry d n = none → (s.names d).ncard < m.room → 0 < s.free → content ≠ [] →
      m.Kept s d content item → Responds m s
        (.put d n content,if m.blocks content.length ≤ s.free then .done else .full)
        {s with entry := s.set d n (some item), free := s.free - m.blocks content.length}
  | absent {s d n} : s.entry d n = none → Responds m s (.remove d n,.absent) s
  | occupied {s d n e} : s.entry d n = some (.folder e) → (s.names e).Nonempty → Responds m s (.remove d n,.occupied) s
  | posing {s d n size blocks} : s.entry d n = some (.masked size blocks) → Responds m s (.remove d n,.occupied) s
  | emptied {s d n e} : s.entry d n = some (.folder e) → s.names e = ∅ → Responds m s (.remove d n,.done)
        {s with folders := s.folders \ {e}, entry := s.set d n none, worn := insert d s.worn, free := s.free+1}
  | removed {s d n item} : s.entry d n = some item → (∀ e, item ≠ .folder e) → Responds m s (.remove d n,.done)
        {s with entry := s.set d n none, free := s.free + m.released item}

section responds
variable {m : Medium} {s s' : Store δ ν β} {act : Request δ ν β × Answer} {d : δ} {n : ν}

theorem set_here (item : Option (Item δ β)) : s.set d n item d n = item := if_pos ⟨rfl,rfl⟩

theorem set_other {d' : δ} {n' : ν} (item : Option (Item δ β)) (other : ¬ (d' = d ∧ n' = n)) :
    s.set d n item d' n' = s.entry d' n' := if_neg other

-- A request changes what is under its own name and nothing else.
theorem Responds.frame (step : m.Responds s act s') (other : ¬ (d = act.1.parent ∧ n = act.1.name)) :
    s'.entry d n = s.entry d n := by
  cases step with
  | taken | full | absent | occupied | posing => rfl
  | folder | stored | emptied | removed => exact set_other _ other

-- What is under a name stays until a removal of that name is done.
theorem Responds.keeps (step : m.Responds s act s') {item : Item δ β} (there : s.entry d n = some item)
    (other : act ≠ (.remove d n,.done)) : s'.entry d n = some item := by
  by_cases same : d = act.1.parent ∧ n = act.1.name
  · obtain ⟨rfl,rfl⟩ := same
    cases step with
    | taken | full | absent | occupied | posing => exact there
    | folder vacant | stored vacant => exact absurd (there.symm.trans vacant) (by simp)
    | emptied | removed => exact absurd rfl other
  · rw [step.frame same]
    exact there

-- A folder wears by losing a folder and not otherwise.
theorem Responds.whole (step : m.Responds s act s') (whole : d ∉ s.worn)
    (files : ∀ n e, act = (.remove d n,.done) → s.entry d n ≠ some (.folder e)) : d ∉ s'.worn := by
  cases step with
  | taken | full | absent | occupied | posing | stored | removed => exact whole
  | folder => exact fun worn => whole worn.1
  | @emptied _ n e here =>
    rintro (rfl | worn)
    · exact files n e rfl here
    · exact whole worn

-- Content that is accepted is there, whole or masked.
theorem Responds.put_accepted {content : List β} (step : m.Responds s (.put d n content,.done) s') (data : content ≠ []) :
    m.blocks content.length ≤ s.free ∧ ∃ item, m.Kept s d content item ∧ s'.entry d n = some item := by
  generalize request : (Request.put d n content,Answer.done) = act at step
  cases step with
  | taken | full | absent | occupied | posing | emptied | removed => simp at request
  | folder =>
    cases request
    exact absurd rfl data
  | @stored d' n' content' item vacant room positive nonempty kept =>
    simp only [Prod.mk.injEq,Request.put.injEq] at request
    obtain ⟨⟨rfl,rfl,rfl⟩,answer⟩ := request
    refine ⟨?_,item,kept,set_here _⟩
    by_contra few
    simp [few] at answer

-- Content that is accepted and not masked is there in full.
theorem Responds.put_done {content : List β} (step : m.Responds s (.put d n content,.done) s') (data : content ≠ [])
    (whole : d ∉ s.worn) : s'.entry d n = some (.file content) := by
  obtain ⟨enough,item,kept,there⟩ := step.put_accepted data
  cases kept with
  | file => exact there
  | cut few => exact absurd enough (Nat.not_le_of_lt few)
  | masked worn => exact absurd worn whole

theorem Responds.folder_gone {e : δ} (step : m.Responds s (.remove d n,.done) s') (there : s.entry d n = some (.folder e)) :
    e ∉ s'.folders := by
  generalize request : (Request.remove d n,Answer.done) = act at step
  cases step with
  | taken | full | folder | stored | absent | occupied | posing => simp at request
  | @emptied d' n' e' here =>
    simp only [Prod.mk.injEq,Request.remove.injEq] at request
    obtain ⟨⟨rfl,rfl⟩,_⟩ := request
    cases there.symm.trans here
    exact fun member => member.2 rfl
  | @removed d' n' item here file =>
    simp only [Prod.mk.injEq,Request.remove.injEq] at request
    obtain ⟨⟨rfl,rfl⟩,_⟩ := request
    cases there.symm.trans here
    exact absurd rfl (file e)

end responds

theorem Run.keeps {m : Medium} {s last : Store δ ν β} {history : List (Transition (Store δ ν β) (Request δ ν β × Answer))}
    {d : δ} {n : ν} {item : Item δ β} (run : Run m.Responds s history last) (there : s.entry d n = some item)
    (never : ∀ t ∈ history, t.action ≠ (.remove d n,.done)) : last.entry d n = some item :=
  @Run.invariant_of _ _ _ _ _ _ (fun s => s.entry d n = some item) (fun _ a => a ≠ (.remove d n,.done)) there
    (fun _ _ _ held met step => step.keeps held met) run never

theorem Run.whole {m : Medium} {s last : Store δ ν β} {history : List (Transition (Store δ ν β) (Request δ ν β × Answer))}
    {d : δ} (run : Run m.Responds s history last) (whole : d ∉ s.worn)
    (files : ∀ t ∈ history, ∀ n e, t.action = (.remove d n,.done) → t.before.entry d n ≠ some (.folder e)) : d ∉ last.worn :=
  @Run.invariant_of _ _ _ _ _ _ (fun s => d ∉ s.worn)
    (fun s a => ∀ n e, a = (.remove d n,.done) → s.entry d n ≠ some (.folder e)) whole
    (fun _ _ _ held met step => step.whole held met) run files

end Medium

namespace Store

-- What a look-up with room for `room` elements is given.
inductive Reading (β : Type w) where
  | absent
  | small
  | folder
  | content (content : List β)

def read (s : Store δ ν β) (d : δ) (n : ν) (room : Nat) : Reading β :=
  match s.entry d n with
  | none => .absent
  | some (.folder _) => .folder
  | some (.file content) => if room < content.length then .small else .content content
  | some (.masked size _) => if room < size then .small else .folder
  | some (.cut size content) => if room < size then .small else .content content

end Store

end Sosis.FolderStore
