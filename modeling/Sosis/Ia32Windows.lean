import Mathlib.Data.BitVec
import Sosis.Ia32

-- Code followed in partial knowledge of memory. A window is a row of doublewords at
-- known places: running on it says what the code does to every memory that agrees
-- with it.
namespace Sosis.Ia32
open Registers

-- Whatever the second computation arrives at, the first arrives at the like of it.
def Follows (related : α → β → Prop) (x : Option α) (y : Option β) : Prop :=
  ∀ b, y = some b → ∃ a, x = some a ∧ related a b

section follows
variable {related : α → β → Prop} {related' : γ → δ → Prop} {x : Option α} {y : Option β}

theorem Follows.pure {a : α} {b : β} (like : related a b) : Follows related (some a) (some b) := by
  rintro _ ⟨⟩
  exact ⟨a,rfl,like⟩

theorem Follows.none : Follows related x (none : Option β) := by
  rintro _ ⟨⟩

theorem Follows.bind {f : α → Option γ} {g : β → Option δ} (first : Follows related x y)
    (then_ : ∀ a b, related a b → Follows related' (f a) (g b)) : Follows related' (x.bind f) (y.bind g) := by
  intro d ran
  obtain ⟨b,ran,later⟩ := Option.bind_eq_some_iff.mp ran
  obtain ⟨a,ran',like⟩ := first b ran
  obtain ⟨c,later',like'⟩ := then_ a b like d later
  exact ⟨c,Option.bind_eq_some_iff.mpr ⟨a,ran',later'⟩,like'⟩

theorem Follows.map {f : α → γ} {g : β → δ} (first : Follows related x y)
    (then_ : ∀ a b, related a b → related' (f a) (g b)) : Follows related' (x.map f) (y.map g) := by
  intro d ran
  obtain ⟨b,found,rfl⟩ := Option.map_eq_some_iff.mp ran
  obtain ⟨a,ran',like⟩ := first b found
  exact ⟨f a,Option.map_eq_some_iff.mpr ⟨a,ran',rfl⟩,then_ a b like⟩

end follows

-- One memory does whatever the other is seen to do.
structure Refines (agrees : μ → ν → Prop) (ops : MemoryOps μ) (ops' : MemoryOps ν) : Prop where
  load : ∀ m w a, agrees m w → Follows Eq (ops.load m a) (ops'.load w a)
  store : ∀ m w a v, agrees m w → Follows agrees (ops.store m a v) (ops'.store w a v)
  pop : ∀ m w a, agrees m w → Follows (fun p q => p.1 = q.1 ∧ agrees p.2 q.2) (ops.pop m a) (ops'.pop w a)

-- The same registers, over memories that agree.
structure Agree (agrees : μ → ν → Prop) (s : State μ) (t : State ν) : Prop where
  regs : s.regs = t.regs
  memory : agrees s.memory t.memory

def AgreeAfter (agrees : μ → ν → Prop) (p : Word × State μ) (q : Word × State ν) : Prop := p.1 = q.1 ∧ Agree agrees p.2 q.2

theorem withFlag_other {flag mask : Word} (clear : flag &&& mask = 0) (kept : ~~~flag &&& mask = mask) (on : Bool)
    (eflags : Word) : withFlag flag on eflags &&& mask = eflags &&& mask := by
  cases on with
  | true => rw [withFlag,if_pos rfl,BitVec.and_or_distrib_right,clear]; exact BitVec.or_zero
  | false => rw [withFlag,if_neg Bool.false_ne_true,BitVec.and_assoc,kept]

theorem andFlags_zero {v : Word} (some_ : v ≠ 0) (eflags : Word) : andFlags v eflags &&& ZERO = 0 := by
  have off : (v == 0) = false := beq_eq_false_iff_ne.mpr some_
  rw [andFlags,withFlag_other (by decide) (by decide),withFlag_other (by decide) (by decide),resultFlags,
    withFlag_other (by decide) (by decide),off,withFlag,if_neg Bool.false_ne_true,BitVec.and_assoc,
    show (~~~ZERO &&& ZERO : Word) = 0 from by decide]
  exact BitVec.and_zero

section refines
variable {μ : Type u} {ν : Type v} {agrees : μ → ν → Prop} {ops : MemoryOps μ} {ops' : MemoryOps ν}
  {s : State μ} {t : State ν}

theorem Agree.update (agree : Agree agrees s t) (f : Registers → Registers) :
    Agree agrees ⟨f s.regs,s.memory⟩ ⟨f t.regs,t.memory⟩ := ⟨congrArg f agree.regs,agree.memory⟩

variable (refines : Refines agrees ops ops')
include refines

theorem push_follows (agree : Agree agrees s t) (v : Word) : Follows (Agree agrees) (push ops v s) (push ops' v t) := by
  unfold push
  rw [agree.regs]
  exact (refines.store _ _ _ _ agree.memory).map fun m w agrees => ⟨rfl,agrees⟩

theorem pop_follows (agree : Agree agrees s t) : Follows (AgreeAfter agrees) (pop ops s) (pop ops' t) := by
  unfold pop
  rw [agree.regs]
  exact (refines.pop _ _ _ agree.memory).map fun _ _ like => ⟨like.1,rfl,like.2⟩

theorem pushAll_follows (agree : Agree agrees s t) (words : List Word) :
    Follows (Agree agrees) (pushAll ops words s) (pushAll ops' words t) := by
  induction words generalizing s t with
  | nil => exact .pure agree
  | cons v rest ih => exact (push_follows refines agree v).bind fun _ _ agree => ih agree

theorem popAll_follows (agree : Agree agrees s t) (into : List (Option Reg)) :
    Follows (Agree agrees) (popAll ops into s) (popAll ops' into t) := by
  induction into generalizing s t with
  | nil => exact .pure agree
  | cons r rest ih =>
    refine (pop_follows refines agree).bind ?_
    rintro ⟨v,s⟩ ⟨v',t⟩ ⟨rfl,agree⟩
    cases r with
    | none => exact ih agree
    | some r => exact ih (agree.update fun regs => regs.set v r)

theorem iret_follows (agree : Agree agrees s t) : Follows (Agree agrees) (iret ops s) (iret ops' t) := by
  refine (pop_follows refines agree).bind ?_
  rintro ⟨eip,s⟩ ⟨_,t⟩ ⟨rfl,agree⟩
  refine (pop_follows refines agree).bind ?_
  rintro ⟨cs,s⟩ ⟨_,t⟩ ⟨rfl,agree⟩
  refine (pop_follows refines agree).bind ?_
  rintro ⟨eflags,s⟩ ⟨_,t⟩ ⟨rfl,agree⟩
  dsimp only
  rw [agree.regs]
  split
  · exact .none
  · have returned := agree.update fun r => {r with
      eip := eip
      cs := cs.truncate 16
      eflags := (eflags &&& WRITABLE) ||| ALWAYS}
    rw [agree.regs] at returned
    split
    · refine (pop_follows refines returned).bind ?_
      rintro ⟨esp,s⟩ ⟨_,t⟩ ⟨rfl,agree⟩
      refine (pop_follows refines agree).bind ?_
      rintro ⟨ss,s⟩ ⟨_,t⟩ ⟨rfl,agree⟩
      exact .pure (agree.update fun r => {r with esp := esp,ss := ss.truncate 16})
    · exact .pure returned

theorem step_follows (agree : Agree agrees s t) (i : Instr) : Follows (Agree agrees) (step ops s i) (step ops' t i) := by
  obtain ⟨regs,memory⟩ := s
  obtain ⟨regs',memory'⟩ := t
  obtain ⟨same,related⟩ := agree
  cases same
  have agree : Agree agrees ⟨regs,memory⟩ ⟨regs,memory'⟩ := ⟨rfl,related⟩
  cases i with
  | push | pushImm | pushSeg | pushf => exact push_follows refines agree _
  | pushad => exact pushAll_follows refines agree _
  | pop | popad => exact popAll_follows refines agree _
  | iret => exact iret_follows refines agree
  | popSeg r =>
    refine (pop_follows refines agree).map ?_
    rintro ⟨v,s⟩ ⟨_,t⟩ ⟨rfl,agree⟩
    exact agree.update fun regs => regs.setSeg (v.truncate 16) r
  | popf =>
    refine (pop_follows refines agree).map ?_
    rintro ⟨v,s⟩ ⟨_,t⟩ ⟨rfl,agree⟩
    exact agree.update fun regs =>
      {regs with eflags := (v &&& POPF_WRITABLE) ||| (regs.eflags &&& VIRTUAL_8086) ||| ALWAYS}
  | load r base offset =>
    refine (refines.load _ _ _ related).map ?_
    rintro v _ rfl
    exact agree.update fun regs => regs.set v r
  | store base offset from_ => exact (refines.store _ _ _ _ related).map fun m w agrees => ⟨rfl,agrees⟩
  | mov | movImm | movImm16 | movSeg | lea | and | add | jz => exact .pure ⟨rfl,related⟩

theorem exec_follows (agree : Agree agrees s t) (skipped : Nat) (code : List Instr) :
    Follows (Agree agrees) (exec ops skipped code s) (exec ops' skipped code t) := by
  induction code generalizing s t skipped with
  | nil =>
    rw [exec,exec]
    exact .pure agree
  | cons i rest ih =>
    cases skipped with
    | zero =>
      rw [exec,exec,agree.regs]
      exact (step_follows refines agree i).bind fun _ _ agree => ih agree _
    | succ skipped => exact ih agree skipped

theorem interrupt_follows (agree : Agree agrees s t) (gate ss0 : Selector) (esp0 : Word) :
    Follows (Agree agrees) (interrupt ops gate ss0 esp0 s) (interrupt ops' gate ss0 esp0 t) := by
  unfold interrupt
  rw [agree.regs]
  dsimp only
  split
  · exact pushAll_follows refines (agree.update fun _ => _) _
  · exact pushAll_follows refines (agree.update fun _ => _) _

end refines

-- The doublewords from `low` upwards.
structure Window where
  low : Word
  words : List Word

namespace Window

abbrev CAPACITY : Nat := 1024

def offset (low a : Word) : Nat := (a - low).toNat

-- The doubleword at the address, if it is one of the row.
def index (w : Window) (a : Word) : Option Nat :=
  if offset w.low a % 4 = 0 ∧ offset w.low a / 4 < w.words.length then some (offset w.low a / 4) else none

def load (w : Window) (a : Word) : Option Word := (w.index a).bind fun k => w.words[k]?

-- A doubleword stored right below the row joins it.
def store (w : Window) (a v : Word) : Option Window :=
  if a = w.low - 4 then
    if w.words.length < CAPACITY then some ⟨w.low - 4,v :: w.words⟩ else none
  else (w.index a).map fun k => {w with words := w.words.set k v}

-- The doubleword popped leaves the row, and with it those below.
def pop (w : Window) (a : Word) : Option (Word × Window) :=
  (w.index a).bind fun k => w.words[k]?.map fun v => (v,⟨a + 4,w.words.drop (k+1)⟩)

def ops : MemoryOps Window := ⟨load,store,pop⟩

-- What the window shows is what memory holds.
structure Shows (m : Memory) (w : Window) : Prop where
  fits : w.words.length ≤ CAPACITY
  words : ∀ k v, w.words[k]? = some v → Ia32.load m (w.low + BitVec.ofNat 32 (4*k)) = v

theorem shows_nil (m : Memory) (low : Word) : Shows m ⟨low,[]⟩ :=
  ⟨Nat.zero_le _,fun k v found => by simp at found⟩

theorem shows_kept {m m' : Memory} {w : Window} (shows_ : Shows m w)
    (kept : ∀ k < w.words.length, Ia32.load m' (w.low + BitVec.ofNat 32 (4*k)) = Ia32.load m (w.low + BitVec.ofNat 32 (4*k))) :
    Shows m' w :=
  ⟨shows_.fits,fun k v found => (kept k (List.getElem?_eq_some_iff.mp found).1).trans (shows_.words k v found)⟩

theorem index_some {w : Window} {a : Word} {k : Nat} (found : w.index a = some k) :
    k < w.words.length ∧ a = w.low + BitVec.ofNat 32 (4*k) := by
  unfold index at found
  split at found
  · rename_i inside
    cases found
    refine ⟨inside.2,?_⟩
    have whole : 4 * (offset w.low a / 4) = offset w.low a := by omega
    rw [whole,offset,BitVec.ofNat_toNat,BitVec.setWidth_eq,add_sub_cancel]
  · cases found

theorem apart {low : Word} {j k : Nat} (inside : j < CAPACITY) (inside' : k < CAPACITY) (other : j ≠ k) :
    ∀ b < 4, 4 ≤ (low + BitVec.ofNat 32 (4*k) + BitVec.ofNat 32 b - (low + BitVec.ofNat 32 (4*j))).toNat := by
  intro b small
  simp only [CAPACITY] at inside inside'
  have offset : low + BitVec.ofNat 32 (4*k) + BitVec.ofNat 32 b - (low + BitVec.ofNat 32 (4*j)) =
      BitVec.ofNat 32 (4*k + b) - BitVec.ofNat 32 (4*j) := by
    rw [BitVec.ofNat_add]
    bv_omega
  rw [offset,BitVec.toNat_sub,BitVec.toNat_ofNat,BitVec.toNat_ofNat]
  omega

theorem shows_push {m : Memory} {w : Window} (shows_ : Shows m w) (v : Word) (space : w.words.length < CAPACITY) :
    Shows (Ia32.store m (w.low - 4) v) ⟨w.low - 4,v :: w.words⟩ := by
  refine ⟨space,fun k v' found => ?_⟩
  cases k with
  | zero =>
    cases found
    simpa using load_store_same m (w.low - 4) v
  | succ k =>
    have found : w.words[k]? = some v' := found
    have inside : k < w.words.length := (List.getElem?_eq_some_iff.mp found).1
    have place : w.low - 4 + BitVec.ofNat 32 (4*(k+1)) = w.low + BitVec.ofNat 32 (4*k) := by
      rw [Nat.mul_succ,BitVec.ofNat_add]
      bv_omega
    change Ia32.load _ (w.low - 4 + BitVec.ofNat 32 (4*(k+1))) = v'
    rw [place,load_store_apart]
    · exact shows_.words k v' found
    · intro b small
      simp only [CAPACITY] at space
      have offset : w.low + BitVec.ofNat 32 (4*k) + BitVec.ofNat 32 b - (w.low - 4) = BitVec.ofNat 32 (4*k + b + 4) := by
        rw [BitVec.ofNat_add,BitVec.ofNat_add]
        bv_omega
      rw [offset,BitVec.toNat_ofNat]
      omega

theorem shows_set {m : Memory} {w : Window} (shows_ : Shows m w) (v : Word) {j : Nat} (inside : j < w.words.length) :
    Shows (Ia32.store m (w.low + BitVec.ofNat 32 (4*j)) v) {w with words := w.words.set j v} := by
  have fits := shows_.fits
  refine ⟨by simpa using fits,fun k v' found => ?_⟩
  rw [List.getElem?_set] at found
  split at found
  · rename_i same
    subst same
    cases found
    exact load_store_same _ _ _
  · rename_i other
    have inside' : k < w.words.length := (List.getElem?_eq_some_iff.mp found).1
    rw [load_store_apart _ _ (apart (by omega) (by omega) other)]
    exact shows_.words k v' found

theorem shows_drop {m : Memory} {w : Window} (shows_ : Shows m w) (k : Nat) :
    Shows m ⟨w.low + BitVec.ofNat 32 (4*k),w.words.drop k⟩ := by
  have fits := shows_.fits
  refine ⟨by rw [List.length_drop]; omega,fun j v found => ?_⟩
  rw [List.getElem?_drop] at found
  have place : w.low + BitVec.ofNat 32 (4*k) + BitVec.ofNat 32 (4*j) = w.low + BitVec.ofNat 32 (4*(k+j)) := by
    rw [Nat.mul_add,BitVec.ofNat_add,add_assoc]
  rw [place]
  exact shows_.words (k+j) v found

theorem refines : Refines Shows memoryOps ops := by
  refine ⟨fun m w a shows_ v found => ?_,fun m w a v shows_ w' stored => ?_,fun m w a shows_ p popped => ?_⟩
  · obtain ⟨k,at_,word⟩ := Option.bind_eq_some_iff.mp found
    obtain ⟨_,rfl⟩ := index_some at_
    exact ⟨v,congrArg some (shows_.words k v word),rfl⟩
  · refine ⟨_,rfl,?_⟩
    simp only [ops,store] at stored
    split at stored
    · rename_i below
      split at stored
      · rename_i space
        cases stored
        rw [below]
        exact shows_push shows_ v space
      · cases stored
    · obtain ⟨k,at_,rfl⟩ := Option.map_eq_some_iff.mp stored
      obtain ⟨inside,rfl⟩ := index_some at_
      exact shows_set shows_ v inside
  · obtain ⟨k,at_,popped⟩ := Option.bind_eq_some_iff.mp popped
    obtain ⟨v,word,rfl⟩ := Option.map_eq_some_iff.mp popped
    obtain ⟨_,rfl⟩ := index_some at_
    have rest := shows_drop shows_ (k+1)
    rw [Nat.mul_succ,BitVec.ofNat_add,← add_assoc] at rest
    exact ⟨_,rfl,shows_.words k v word,rest⟩

theorem push_ops {r : Registers} {low : Word} {words : List Word} (v : Word) (top : r.esp = low)
    (space : words.length < CAPACITY) :
    Ia32.push ops v ⟨r,⟨low,words⟩⟩ = some ⟨{r with esp := low - 4},⟨low - 4,v :: words⟩⟩ := by
  simp [Ia32.push,ops,store,space,top]

theorem pushAll_ops {r : Registers} {low : Word} {words : List Word} (vs : List Word) (top : r.esp = low)
    (space : vs.length + words.length ≤ CAPACITY) : Ia32.pushAll ops vs ⟨r,⟨low,words⟩⟩ =
      some ⟨{r with esp := low - BitVec.ofNat 32 (4*vs.length)},
        ⟨low - BitVec.ofNat 32 (4*vs.length),vs.reverse ++ words⟩⟩ := by
  induction vs generalizing r low words with
  | nil =>
    subst top
    simp [pushAll]
  | cons v rest ih =>
    rw [List.length_cons] at space
    have below : low - 4 - BitVec.ofNat 32 (4*rest.length) = low - BitVec.ofNat 32 (4*(v :: rest).length) := by
      rw [List.length_cons,Nat.mul_succ,BitVec.ofNat_add]
      bv_omega
    rw [pushAll,push_ops v top (by omega),Option.bind_some,ih rfl (by rw [List.length_cons]; omega),below]
    simp

theorem offset_above (low d : Word) : offset low (low + d) = d.toNat := by rw [offset,add_sub_cancel_left]

theorem offset_across (a d e : Word) : offset (a - e) (a + d) = (d + e).toNat := by rw [offset,add_sub_sub_cancel]

theorem index_at {low a : Word} {words : List Word} {k : Nat} (at_ : offset low a = 4*k) (inside : k < words.length) :
    index ⟨low,words⟩ a = some k := by
  unfold index
  rw [at_,Nat.mul_div_cancel_left k (by omega),if_pos ⟨Nat.mul_mod_right 4 k,inside⟩]

theorem load_ops {low a : Word} {words : List Word} {k : Nat} (at_ : offset low a = 4*k) (inside : k < words.length) :
    ops.load ⟨low,words⟩ a = words[k]? := by
  simp only [ops,load,index_at at_ inside,Option.bind_some]

theorem store_ops {low a : Word} {words : List Word} {k : Nat} (v : Word) (at_ : offset low a = 4*k)
    (inside : k < words.length) (fits : words.length < CAPACITY) :
    ops.store ⟨low,words⟩ a v = some ⟨low,words.set k v⟩ := by
  have notBelow : a ≠ low - 4 := by
    rintro rfl
    rw [offset] at at_
    simp only [CAPACITY] at fits
    bv_omega
  simp only [ops,store,if_neg notBelow,index_at at_ inside,Option.map_some]

theorem pop_at {r : Registers} {low a v : Word} {words : List Word} {k : Nat} (at_ : offset low a = 4*k) (top : r.esp = a)
    (word : words[k]? = some v) : Ia32.pop ops ⟨r,⟨low,words⟩⟩ =
      some (v,⟨{r with esp := a + 4},⟨a + 4,words.drop (k+1)⟩⟩) := by
  have inside : k < words.length := (List.getElem?_eq_some_iff.mp word).1
  subst top
  simp only [Ia32.pop,ops,pop,index_at at_ inside,word,Option.bind_some,Option.map_some]

theorem pop_ops {r : Registers} {low : Word} (v : Word) (words : List Word) (top : r.esp = low) :
    Ia32.pop ops ⟨r,⟨low,v :: words⟩⟩ = some (v,⟨{r with esp := low + 4},⟨low + 4,words⟩⟩) := by
  subst top
  exact pop_at (k := 0) (by rw [offset,sub_self]; rfl) rfl rfl

end Window

end Sosis.Ia32
