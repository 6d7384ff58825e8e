import Mathlib.Data.List.Forall2

namespace Sosis.TransitionRuns

structure Transition (σ : Type u) (α : Type v) where
  before : σ
  action : α
  after : σ

-- A run is the list of the transitions it took, oldest first, so a property of
-- a history can speak about every state in it and not only about the last one.
inductive Run (step : σ → α → σ → Prop) (start : σ) : List (Transition σ α) → σ → Prop where
  | nil : Run step start [] start
  | snoc : Run step start earlier middle → step middle action after →
      Run step start (earlier ++ [⟨middle,action,after⟩]) after

variable {σ : Type u} {α : Type v} {step : σ → α → σ → Prop} {start : σ}

theorem Run.single (taken : step start action after) :
    Run step start [⟨start,action,after⟩] after := by
  simpa using Run.snoc Run.nil taken

theorem Run.append (left : Run step start earlier middle) (right : Run step middle later after) :
    Run step start (earlier ++ later) after := by
  induction right with
  | nil => simpa using left
  | snoc prior taken ih => simpa only [List.append_assoc] using Run.snoc ih taken

theorem Run.cons (taken : step start action middle) (right : Run step middle later after) :
    Run step start (⟨start,action,middle⟩ :: later) after :=
  (Run.single taken).append right

theorem Run.nil_inv (run : Run step start [] last) : last = start := by
  generalize empty : ([] : List (Transition σ α)) = history at run
  cases run with
  | nil => rfl
  | snoc prior taken => simp at empty

-- A run over two stretches is a run over the first and then one over the second.
theorem Run.split {front back : List (Transition σ α)} (run : Run step start (front ++ back) last) :
    ∃ middle, Run step start front middle ∧ Run step middle back last := by
  generalize joined : front ++ back = history at run
  induction run generalizing back with
  | nil =>
    obtain ⟨rfl,rfl⟩ := List.append_eq_nil_iff.mp joined
    exact ⟨start,.nil,.nil⟩
  | @snoc earlier middle action after prior taken ih =>
    rcases List.eq_nil_or_concat back with rfl | ⟨rest,final,rfl⟩
    · rw [List.append_nil] at joined
      subst joined
      exact ⟨after,.snoc prior taken,.nil⟩
    · rw [List.concat_eq_append,← List.append_assoc] at joined
      obtain ⟨rfl,same⟩ := List.append_inj' joined rfl
      cases same
      obtain ⟨cut,left,right⟩ := ih rfl
      exact ⟨cut,left,by simpa using Run.snoc right taken⟩

theorem Run.uncons {first : Transition σ α} (run : Run step start (first :: rest) last) :
    first.before = start ∧ step start first.action first.after ∧ Run step first.after rest last := by
  obtain ⟨middle,one,later⟩ := @Run.split _ _ _ _ _ [first] rest run
  generalize alone : [first] = history at one
  cases one with
  | nil => simp at alone
  | @snoc earlier before action after prior taken =>
    obtain ⟨rfl,same⟩ := @List.append_inj' _ [] _ _ _ alone rfl
    cases same
    cases prior.nil_inv
    exact ⟨rfl,taken,later⟩

-- Every recorded transition is a step, taken from a state the run had reached.
theorem Run.recorded (run : Run step start history last) (member : t ∈ history) :
    step t.before t.action t.after ∧ ∃ earlier, Run step start earlier t.before ∧
      ∀ u ∈ earlier, u ∈ history := by
  induction run with
  | nil => cases member
  | snoc prior taken ih =>
    rcases List.mem_append.mp member with old | new
    · obtain ⟨stepped,earlier,reached,inside⟩ := ih old
      exact ⟨stepped,earlier,reached,fun u inEarlier => List.mem_append_left _ (inside u inEarlier)⟩
    · cases List.mem_singleton.mp new
      exact ⟨taken,_,prior,fun u inEarlier => List.mem_append_left _ inEarlier⟩

theorem Run.invariant {holds : σ → Prop} (initial : holds start)
    (preserved : ∀ s a s', holds s → step s a s' → holds s')
    (run : Run step start history last) : holds last := by
  induction run with
  | nil => exact initial
  | snoc prior taken ih => exact preserved _ _ _ ih taken

-- The same rule when a step preserves the invariant only under a side condition
-- that every transition of the run is known to meet.
theorem Run.invariant_of {holds : σ → Prop} {allowed : σ → α → Prop} (initial : holds start)
    (preserved : ∀ s a s', holds s → allowed s a → step s a s' → holds s')
    (run : Run step start history last) (met : ∀ t ∈ history, allowed t.before t.action) :
    holds last := by
  induction run with
  | nil => exact initial
  | snoc prior taken ih =>
    refine preserved _ _ _ (ih fun t member => met t (List.mem_append_left _ member)) ?_ taken
    exact met ⟨_,_,_⟩ (List.mem_append_right _ (List.mem_singleton.mpr rfl))

theorem Run.last_of_always {good : σ → Prop} (initial : good start) (run : Run step start history last)
    (always : ∀ t ∈ history, good t.after) : good last := by
  cases run with
  | nil => exact initial
  | snoc prior taken => exact always ⟨_,_,_⟩ (List.mem_append_right _ (List.mem_singleton.mpr rfl))

theorem Run.mono {step' : σ → α → σ → Prop} (weaker : ∀ s a s', step s a s' → step' s a s')
    (run : Run step start history last) : Run step' start history last := by
  induction run with
  | nil => exact .nil
  | snoc prior taken ih => exact .snoc ih (weaker _ _ _ taken)

-- Where each step is good exactly when its condition holds, as long as all steps
-- before it met theirs, a run is good throughout exactly when every step meets its
-- condition.
theorem Run.each_iff {support : σ → Prop} {good : σ → α → σ → Prop} {allowed : σ → α → Prop} (initial : support start)
    (keeps : ∀ s a s', support s → allowed s a → step s a s' → support s')
    (exact : ∀ s a s', support s → step s a s' → (good s a s' ↔ allowed s a))
    (run : Run step start history last) :
    (∀ t ∈ history, good t.before t.action t.after) ↔ ∀ t ∈ history, allowed t.before t.action := by
  suffices strong : ((∀ t ∈ history, good t.before t.action t.after) ↔ ∀ t ∈ history, allowed t.before t.action) ∧
      ((∀ t ∈ history, allowed t.before t.action) → support last) from strong.1
  induction run with
  | nil => exact ⟨by simp,fun _ => initial⟩
  | @snoc earlier middle action after prior taken ih =>
    simp only [List.mem_append,List.mem_singleton,or_imp,forall_and,forall_eq]
    refine ⟨⟨?_,?_⟩,?_⟩
    · rintro ⟨goods,now⟩
      have alloweds := ih.1.mp goods
      exact ⟨alloweds,(exact _ _ _ (ih.2 alloweds) taken).mp now⟩
    · rintro ⟨alloweds,now⟩
      exact ⟨ih.1.mpr alloweds,(exact _ _ _ (ih.2 alloweds) taken).mpr now⟩
    · rintro ⟨alloweds,now⟩
      exact keeps _ _ _ (ih.2 alloweds) now taken

-- The same for a property of the states reached.
theorem Run.always_iff {support good : σ → Prop} {allowed : σ → α → Prop}
    (initialSupport : support start) (initialGood : good start)
    (keeps : ∀ s a s', support s → good s → allowed s a → step s a s' → support s')
    (exact : ∀ s a s', support s → good s → step s a s' → (good s' ↔ allowed s a))
    (run : Run step start history last) :
    (∀ t ∈ history, good t.after) ↔ ∀ t ∈ history, allowed t.before t.action := by
  have kept : ∀ s a s', support s ∧ good s → allowed s a → step s a s' → support s' ∧ good s' := by
    rintro s a s' ⟨supported,reached⟩ met taken
    exact ⟨keeps s a s' supported reached met taken,(exact s a s' supported reached taken).mpr met⟩
  have exactly : ∀ s a s', support s ∧ good s → step s a s' → (good s' ↔ allowed s a) := by
    rintro s a s' ⟨supported,reached⟩ taken
    exact exact s a s' supported reached taken
  exact Run.each_iff ⟨initialSupport,initialGood⟩ kept exactly run

-- A transition of one system and the transition of a second one that stands for it.
structure Paired {τ : Type w} {γ : Type x} (rel : σ → τ → Prop) (label : α → γ) (one : Transition σ α)
    (other : Transition τ γ) : Prop where
  before : rel one.before other.before
  action : other.action = label one.action
  after : rel one.after other.after

-- Forward simulation: where each step of a related state is matched, so is each run,
-- transition by transition.
theorem Run.simulated {τ : Type w} {γ : Type x} {step' : τ → γ → τ → Prop} {start' : τ} {rel : σ → τ → Prop} {label : α → γ}
    (initial : rel start start')
    (matched : ∀ s a s' t, rel s t → step s a s' → ∃ t', step' t (label a) t' ∧ rel s' t')
    (run : Run step start history last) :
    ∃ history' last', Run step' start' history' last' ∧ rel last last' ∧ List.Forall₂ (Paired rel label) history history' := by
  induction run with
  | nil => exact ⟨[],start',.nil,initial,.nil⟩
  | @snoc earlier middle action after prior taken ih =>
    obtain ⟨history',middle',run',related,pairs⟩ := ih
    obtain ⟨after',taken',related'⟩ := matched _ _ _ _ related taken
    refine ⟨history' ++ [⟨middle',label action,after'⟩],after',.snoc run' taken',related',?_⟩
    exact List.rel_append pairs (.cons ⟨related,rfl,related'⟩ .nil)

theorem paired_mem {γ : Type w} {pair : α → γ → Prop} {l : List α} {l' : List γ} (pairs : List.Forall₂ pair l l') {b : γ}
    (member : b ∈ l') : ∃ a ∈ l, pair a b := by
  induction pairs with
  | nil => cases member
  | @cons a c rest rest' both _ ih =>
    rcases List.mem_cons.mp member with rfl | later
    · exact ⟨a,by simp,both⟩
    · obtain ⟨a',inRest,both'⟩ := ih later
      exact ⟨a',List.mem_cons_of_mem _ inRest,both'⟩

-- What is known of each transition may be taken for a part of the step.
theorem Run.restrict {allowed : σ → α → σ → Prop} (run : Run step start history last)
    (met : ∀ t ∈ history, allowed t.before t.action t.after) :
    Run (fun s a s' => step s a s' ∧ allowed s a s') start history last := by
  induction run with
  | nil => exact .nil
  | snoc prior taken ih =>
    refine .snoc (ih fun t member => met t (List.mem_append_left _ member)) ⟨taken,?_⟩
    exact met ⟨_,_,_⟩ (List.mem_append_right _ (List.mem_singleton.mpr rfl))

-- Bounded waiting: until the goal is reached each turn lowers the rank, and nothing
-- raises it.
theorem Run.within {rank : σ → Nat} {turn : α → Bool} {support goal : σ → Prop} (initial : support start)
    (each : ∀ s a s', support s → step s a s' → goal s' ∨ support s' ∧ rank s' + (turn a).toNat ≤ rank s)
    (run : Run step start history last) :
    (∃ t ∈ history, goal t.after) ∨ support last ∧ rank last + history.countP (fun t => turn t.action) ≤ rank start := by
  induction run with
  | nil => exact Or.inr ⟨initial,Nat.le_refl _⟩
  | @snoc earlier middle action after prior taken ih =>
    rcases ih with ⟨t,member,reached⟩ | ⟨supported,bound⟩
    · exact Or.inl ⟨t,List.mem_append_left _ member,reached⟩
    · rcases each _ _ _ supported taken with reached | ⟨kept,falls⟩
      · exact Or.inl ⟨⟨middle,action,after⟩,List.mem_append_right _ (List.mem_singleton.mpr rfl),reached⟩
      · refine Or.inr ⟨kept,?_⟩
        have counted : [(⟨middle,action,after⟩ : Transition σ α)].countP (fun t => turn t.action) = (turn action).toNat := by
          cases turned : turn action <;> simp [turned]
        rw [List.countP_append,counted]
        omega

-- A concrete sequence of actions, as long as each state it comes to is good.
def follow (next : σ → α → Option σ) (good : σ → Bool) : List α → σ → Option σ
  | [],s => some s
  | a :: rest,s => (next s a).bind fun s' => if good s' then follow next good rest s' else none

-- A loop whose every turn returns and keeps what holds.
theorem foldlM_holds {holds : σ → Prop} {f : σ → α → Option σ} {l : List α} {s : σ} (initial : holds s)
    (each : ∀ a ∈ l, ∀ s, holds s → ∃ s', f s a = some s' ∧ holds s') : ∃ s', l.foldlM f s = some s' ∧ holds s' := by
  induction l generalizing s with
  | nil => exact ⟨s,rfl,initial⟩
  | cons a rest ih =>
    obtain ⟨middle,ran,held⟩ := each a (by simp) s initial
    obtain ⟨last,onward,ends⟩ := ih held fun b member => each b (List.mem_cons_of_mem _ member)
    refine ⟨last,?_,ends⟩
    rw [List.foldlM_cons,ran]
    exact onward

end Sosis.TransitionRuns
