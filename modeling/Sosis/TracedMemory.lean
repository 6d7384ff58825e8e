import Mathlib.Logic.Function.Basic
import Mathlib.Data.List.Basic
import Mathlib.Data.List.Induction

-- Programs that read and store single cells of a memory, with every access on record. A
-- cell is named by whatever the program has for an address.
namespace Sosis.TracedMemory

-- What a program returns, reads and stores, each in order, by the memory it starts on;
-- `none` is a loop that was given too few turns.
def Traced (κ β α : Type) := (κ → β) → Option (α × List κ × List (κ × β))

section programs
variable {κ β σ : Type} [DecidableEq κ]

-- The memory behind a list of stores.
def after (stores : List (κ × β)) (memory : κ → β) : κ → β :=
  stores.foldl (fun memory stored => Function.update memory stored.1 stored.2) memory

instance : Monad (Traced κ β) where
  pure a := fun _ => some (a,[],[])
  bind program next := fun memory => (program memory).bind fun first =>
    (next first.1 (after first.2.2 memory)).map fun last => (last.1,first.2.1 ++ last.2.1,first.2.2 ++ last.2.2)

def read (k : κ) : Traced κ β β := fun memory => some (memory k,[k],[])

-- A block of cells at once.
def readAll (n : Nat) (place : Int → κ) : Traced κ β (Fin n → β) := fun memory =>
  some (fun i => memory (place i),List.ofFn fun i : Fin n => place i,[])

def store (k : κ) (b : β) : Traced κ β Unit := fun _ => some ((),[],[(k,b)])

-- What a condition on one cell comes to.
def test (p : β → Bool) (k : κ) : Traced κ β Bool := do return p (← read k)

def loop (guard : σ → Traced κ β Bool) (body : σ → Traced κ β σ) : Nat → σ → Traced κ β σ
  | 0,_ => fun _ => none
  | fuel+1,s => do if ← guard s then loop guard body fuel (← body s) else pure s

-- The stores that put a list of bytes down, the first one at index 0.
def copied (place : Int → κ) (bytes : List β) : List (κ × β) := bytes.mapIdx fun i b => (place i,b)

-- Started on this memory, the program returns `a`, makes just these stores, and reads
-- allowed cells only.
def Performs (allowed : κ → Prop) (memory : κ → β) (program : Traced κ β α) (a : α) (stores : List (κ × β)) : Prop :=
  ∃ reads, (∀ k ∈ reads, allowed k) ∧ program memory = some (a,reads,stores)

-- The program returns, and stores to these cells only.
def Confined (cells : κ → Prop) (memory : κ → β) (program : Traced κ β α) : Prop :=
  ∃ a w, Performs (fun _ => True) memory program a w ∧ ∀ k b, (k,b) ∈ w → cells k

end programs

section single
variable {κ β α : Type} {allowed : κ → Prop} {memory : κ → β} {w w' : List (κ × β)}

theorem Performs.read {k : κ} (known : memory k = b) (inside : allowed k) : Performs allowed memory (read k) b [] :=
  ⟨[k],by simpa using inside,known ▸ rfl⟩

theorem Performs.store (k : κ) (b : β) : Performs allowed memory (store k b) () [(k,b)] := ⟨[],by simp,rfl⟩

theorem Performs.mono {allowed' : κ → Prop} {program : Traced κ β α} {a : α} (weaker : ∀ k, allowed k → allowed' k)
    (performs : Performs allowed memory program a w) : Performs allowed' memory program a w := by
  obtain ⟨reads,inside,ran⟩ := performs
  exact ⟨reads,fun k member => weaker k (inside k member),ran⟩

theorem Performs.readAll {n : Nat} {place : Int → κ} (inside : ∀ i : Fin n, allowed (place i)) :
    Performs allowed memory (readAll n place) (fun i => memory (place i)) [] := by
  refine ⟨_,?_,rfl⟩
  intro k member
  obtain ⟨i,rfl⟩ := List.mem_ofFn.mp member
  exact inside i

-- A program does one thing only.
theorem Performs.unique {program : Traced κ β α} {a a' : α} (one : Performs allowed memory program a w)
    (other : Performs allowed memory program a' w') : a = a' ∧ w = w' := by
  obtain ⟨_,_,ran⟩ := one
  obtain ⟨_,_,ran'⟩ := other
  cases ran.symm.trans ran'
  exact ⟨rfl,rfl⟩

theorem confined_iff {cells : κ → Prop} {program : Traced κ β α} {a : α} (performs : Performs (fun _ => True) memory program a w) :
    Confined cells memory program ↔ ∀ k b, (k,b) ∈ w → cells k := by
  constructor
  · rintro ⟨a',w',performs',within⟩
    obtain ⟨_,rfl⟩ := performs.unique performs'
    exact within
  · exact fun within => ⟨a,w,performs,within⟩

end single

section copies
variable {κ β : Type}

theorem copied_append (place : Int → κ) (front back : List β) :
    copied place (front ++ back) = copied place front ++ copied (fun i => place (front.length + i)) back := by
  simp [copied,List.mapIdx_append,Int.add_comm]

theorem copied_snoc (place : Int → κ) (bytes : List β) (b : β) :
    copied place (bytes ++ [b]) = copied place bytes ++ [(place bytes.length,b)] := by
  simp [copied,List.mapIdx_append]

theorem mem_copied {place : Int → κ} {bytes : List β} {k : κ} {b : β} (member : (k,b) ∈ copied place bytes) :
    ∃ i < bytes.length, k = place i := by
  obtain ⟨i,inside,same⟩ := List.mem_mapIdx.mp member
  cases same
  exact ⟨i,inside,rfl⟩

theorem flatMap_copied {place : Int → κ} {bytes : List β} {value : Nat → β} {n : Nat} (long : bytes.length = n)
    (known : ∀ i < n, bytes[i]? = some (value i)) :
    (List.range n).flatMap (fun i : Nat => [(place i,value i)]) = copied place bytes := by
  rw [← List.map_eq_flatMap]
  refine List.ext_getElem (by simp [copied,long]) fun i inRange _ => ?_
  have inside : i < n := by simpa using inRange
  have byte := List.getElem?_eq_some_iff.mp (known i inside)
  simp [copied,byte.2]

end copies

section rules
variable {κ β σ α γ : Type} [DecidableEq κ] {allowed : κ → Prop} {memory : κ → β} {w w' : List (κ × β)}

theorem after_append (w w' : List (κ × β)) (memory : κ → β) : after (w ++ w') memory = after w' (after w memory) :=
  List.foldl_append

-- A cell that is not stored to keeps its byte.
theorem after_other {k : κ} (other : ∀ b, (k,b) ∉ w) (memory : κ → β) : after w memory k = memory k := by
  induction w generalizing memory with
  | nil => rfl
  | cons stored rest ih =>
    obtain ⟨place,byte⟩ := stored
    have later : after rest (Function.update memory place byte) k = Function.update memory place byte k :=
      ih (fun b member => other b (List.mem_cons_of_mem _ member)) _
    refine later.trans (Function.update_of_ne ?_ _ _)
    rintro rfl
    exact other byte (by simp)

theorem after_copied {place : Int → κ} (distinct : ∀ i j : Nat, place i = place j → i = j) (bytes : List β)
    (memory : κ → β) (i : Nat) : after (copied place bytes) memory (place i) = bytes.getD i (memory (place i)) := by
  induction bytes using List.reverseRecOn with
  | nil => simp [copied,after]
  | append_singleton bytes b ih =>
    rw [copied_snoc,after_append]
    show Function.update (after (copied place bytes) memory) (place bytes.length) b (place i) = _
    rcases Nat.lt_trichotomy i bytes.length with before | rfl | behind
    · rw [Function.update_of_ne fun same => Nat.ne_of_lt before (distinct _ _ same),ih]
      simp [List.getElem?_append_left before]
    · simp
    · rw [Function.update_of_ne fun same => Nat.ne_of_gt behind (distinct _ _ same),ih]
      simp only [List.getD_eq_getElem?_getD]
      rw [List.getElem?_eq_none (Nat.le_of_lt behind),
        List.getElem?_eq_none (by simp only [List.length_append,List.length_singleton]; omega)]

theorem Performs.pure (a : α) : Performs allowed memory (pure a) a [] := ⟨[],by simp,rfl⟩

theorem bind_eq {program : Traced κ β α} {next : α → Traced κ β γ} {a : α} {reads : List κ}
    (ran : program memory = some (a,reads,w)) : (program >>= next) memory =
      (next a (after w memory)).map fun result => (result.1,reads ++ result.2.1,w ++ result.2.2) := by
  show (program memory).bind _ = _
  rw [ran]
  rfl

theorem Performs.bind {program : Traced κ β α} {next : α → Traced κ β γ} {a : α} {c : γ}
    (first : Performs allowed memory program a w) (second : Performs allowed (after w memory) (next a) c w') :
    Performs allowed memory (program >>= next) c (w ++ w') := by
  obtain ⟨reads,inside,ran⟩ := first
  obtain ⟨reads',inside',ran'⟩ := second
  refine ⟨reads ++ reads',?_,by rw [bind_eq ran,ran']; rfl⟩
  intro k member
  exact (List.mem_append.mp member).elim (inside k) (inside' k)

-- What a sequence does behind its first program.
theorem Performs.rest {allowed' : κ → Prop} {program : Traced κ β α} {next : α → Traced κ β γ} {a : α} {c : γ}
    (whole : Performs allowed memory (program >>= next) c w') (first : Performs allowed' memory program a w) :
    ∃ later, w' = w ++ later ∧ Performs allowed (after w memory) (next a) c later := by
  obtain ⟨reads,inside,ran⟩ := whole
  obtain ⟨_,_,ran'⟩ := first
  rw [bind_eq ran'] at ran
  cases rest : next a (after w memory) with
  | none => rw [rest] at ran; cases ran
  | some result =>
    rw [rest] at ran
    cases ran
    exact ⟨_,rfl,_,fun k member => inside k (List.mem_append_right _ member),rest⟩

-- The first program of a sequence, on its own.
theorem Performs.first {program : Traced κ β α} {next : α → Traced κ β γ} {c : γ}
    (whole : Performs allowed memory (program >>= next) c w') : ∃ a w, Performs allowed memory program a w ∧
      ∃ later, w' = w ++ later := by
  obtain ⟨reads,inside,ran⟩ := whole
  cases ran' : program memory with
  | none =>
    have stuck : (program >>= next) memory = none := by
      show (program memory).bind _ = none
      rw [ran']
      rfl
    rw [stuck] at ran
    cases ran
  | some result =>
    obtain ⟨a,reads',w⟩ := result
    rw [bind_eq ran'] at ran
    obtain ⟨last,_,same⟩ := Option.map_eq_some_iff.mp ran
    cases same
    exact ⟨a,w,⟨reads',fun k member => inside k (List.mem_append_left _ member),ran'⟩,_,rfl⟩

-- Behind a program that only looks.
theorem Performs.seen {program : Traced κ β α} {next : α → Traced κ β γ} {a : α} {c : γ}
    (first : Performs allowed memory program a []) (second : Performs allowed memory (next a) c w) :
    Performs allowed memory (program >>= next) c w :=
  first.bind second

theorem Performs.finally {program : Traced κ β α} {a : α} {f : α → γ} (first : Performs allowed memory program a w) :
    Performs allowed memory (program >>= fun a => Pure.pure (f a)) (f a) w := by
  have whole : Performs allowed memory (program >>= fun a => Pure.pure (f a)) (f a) (w ++ []) :=
    first.bind (Performs.pure (f a))
  rwa [List.append_nil] at whole

theorem Performs.test {p : β → Bool} {k : κ} (known : p (memory k) = b) (inside : allowed k) :
    Performs allowed memory (test p k) b [] := known ▸ (Performs.read rfl inside).finally

variable {guard : σ → Traced κ β Bool} {body : σ → Traced κ β σ} {s s' s'' : σ}

theorem Performs.leaves (stops : Performs allowed memory (guard s) false []) (fuel : Nat) :
    Performs allowed memory (loop guard body (fuel+1) s) s [] :=
  stops.seen (Performs.pure s)

theorem Performs.turns {fuel : Nat} (goes : Performs allowed memory (guard s) true [])
    (turn : Performs allowed memory (body s) s' w)
    (later : Performs allowed (after w memory) (loop guard body fuel s') s'' w') :
    Performs allowed memory (loop guard body (fuel+1) s) s'' (w ++ w') :=
  goes.seen (turn.bind later)

-- A loop of known turns: the states it goes through, and what each turn stores.
theorem Performs.counted {states : Nat → σ} {stored : Nat → List (κ × β)} {n fuel : Nat} (enough : n < fuel)
    (goes : ∀ i < n, Performs allowed (after ((List.range i).flatMap stored) memory) (guard (states i)) true [])
    (turn : ∀ i < n, Performs allowed (after ((List.range i).flatMap stored) memory) (body (states i)) (states (i+1)) (stored i))
    (stops : Performs allowed (after ((List.range n).flatMap stored) memory) (guard (states n)) false []) :
    Performs allowed memory (loop guard body fuel (states 0)) (states n) ((List.range n).flatMap stored) := by
  suffices rest : ∀ left i fuel, i + left = n → left < fuel →
      Performs allowed (after ((List.range i).flatMap stored) memory) (loop guard body fuel (states i)) (states n)
        ((List.range' i left).flatMap stored) by
    have whole := rest n 0 fuel (Nat.zero_add n) enough
    rwa [← List.range_eq_range'] at whole
  intro left
  induction left with
  | zero =>
    intro i fuel here turns
    obtain rfl : i = n := here
    obtain ⟨fuel,rfl⟩ := Nat.exists_eq_add_one.mpr turns
    exact stops.leaves fuel
  | succ left ih =>
    intro i fuel here turns
    obtain ⟨fuel,rfl⟩ := Nat.exists_eq_add_one.mpr (show 0 < fuel by omega)
    have onward := ih (i+1) fuel (by omega) (by omega)
    rw [List.range_succ,List.flatMap_append,after_append,List.flatMap_singleton] at onward
    rw [List.range'_succ,List.flatMap_cons]
    exact (goes i (by omega)).turns (turn i (by omega)) onward

-- The same for a loop that only looks.
theorem Performs.scans {states : Nat → σ} {n fuel : Nat} (enough : n < fuel)
    (goes : ∀ i < n, Performs allowed memory (guard (states i)) true [])
    (turn : ∀ i < n, Performs allowed memory (body (states i)) (states (i+1)) [])
    (stops : Performs allowed memory (guard (states n)) false []) :
    Performs allowed memory (loop guard body fuel (states 0)) (states n) [] := by
  have nothing : ∀ i, (List.range i).flatMap (fun _ => ([] : List (κ × β))) = [] := fun i => by simp
  have whole := @Performs.counted κ β σ _ allowed memory guard body states (fun _ => []) n fuel enough
  simp only [nothing] at whole
  exact whole goes turn stops

-- The first turns of a loop are among its stores, however it goes on.
theorem Performs.first_turns {states : Nat → σ} {stored : Nat → List (κ × β)} {n fuel : Nat}
    (goes : ∀ i < n, Performs allowed (after ((List.range i).flatMap stored) memory) (guard (states i)) true [])
    (turn : ∀ i < n, Performs allowed (after ((List.range i).flatMap stored) memory) (body (states i)) (states (i+1)) (stored i))
    (whole : Performs allowed memory (loop guard body fuel (states 0)) s'' w) :
    ∃ later, w = (List.range n).flatMap stored ++ later := by
  suffices rest : ∀ left i fuel w, i + left = n →
      Performs allowed (after ((List.range i).flatMap stored) memory) (loop guard body fuel (states i)) s'' w →
        ∃ later, w = (List.range' i left).flatMap stored ++ later by
    obtain ⟨later,same⟩ := rest n 0 fuel w (Nat.zero_add n) whole
    exact ⟨later,by rwa [← List.range_eq_range'] at same⟩
  intro left
  induction left with
  | zero => exact fun i fuel w _ _ => ⟨w,rfl⟩
  | succ left ih =>
    intro i fuel w here whole
    cases fuel with
    | zero =>
      obtain ⟨_,_,ran⟩ := whole
      cases ran
    | succ fuel =>
      obtain ⟨_,rfl,taken⟩ := whole.rest (goes i (by omega))
      obtain ⟨_,rfl,onward⟩ := taken.rest (turn i (by omega))
      have next : after ((List.range (i+1)).flatMap stored) memory =
          after (stored i) (after ((List.range i).flatMap stored) memory) := by
        rw [List.range_succ,List.flatMap_append,after_append,List.flatMap_singleton]
      obtain ⟨later,same⟩ := ih (i+1) fuel _ (by omega) (next ▸ onward)
      exact ⟨later,by rw [same,List.range'_succ,List.flatMap_cons,List.append_assoc]⟩

variable {cells : κ → Prop} {program : Traced κ β α} {next : α → Traced κ β γ} {a : α}

theorem Confined.pure (a : α) : Confined cells memory (Pure.pure a : Traced κ β α) :=
  ⟨a,[],Performs.pure a,by simp⟩

-- A sequence is confined when its first program is, and what follows it.
theorem confined_bind_iff (first : Performs (fun _ => True) memory program a w) :
    Confined cells memory (program >>= next) ↔ (∀ k b, (k,b) ∈ w → cells k) ∧ Confined cells (after w memory) (next a) := by
  constructor
  · rintro ⟨c,w',whole,inside⟩
    obtain ⟨later,rfl,rest⟩ := whole.rest first
    exact ⟨fun k b member => inside k b (List.mem_append_left _ member),
      c,later,rest,fun k b member => inside k b (List.mem_append_right _ member)⟩
  · rintro ⟨inside,c,later,rest,inside'⟩
    refine ⟨c,w ++ later,first.bind rest,fun k b member => ?_⟩
    exact (List.mem_append.mp member).elim (inside k b) (inside' k b)

theorem Confined.after_first {w : List (κ × β)} (first : Performs (fun _ => True) memory program a w)
    (within : ∀ k b, (k,b) ∈ w → cells k) : Confined cells memory (program >>= next) ↔ Confined cells (after w memory) (next a) := by
  rw [confined_bind_iff first]
  exact and_iff_right within

theorem confined_seen_iff (first : Performs (fun _ => True) memory program a []) :
    Confined cells memory (program >>= next) ↔ Confined cells memory (next a) := by
  rw [confined_bind_iff first]
  exact and_iff_right (by simp)

theorem Confined.first (whole : Confined cells memory (program >>= next)) : Confined cells memory program := by
  obtain ⟨c,w,performs,inside⟩ := whole
  obtain ⟨a,w',first,later,rfl⟩ := performs.first
  exact ⟨a,w',first,fun k b member => inside k b (List.mem_append_left _ member)⟩

theorem confined_finally_iff {c : γ} : Confined cells memory (program >>= fun _ => Pure.pure c) ↔ Confined cells memory program := by
  refine ⟨Confined.first,?_⟩
  rintro ⟨a,w,performs,within⟩
  exact (confined_bind_iff performs).mpr ⟨within,Confined.pure c⟩

end rules

end Sosis.TracedMemory
