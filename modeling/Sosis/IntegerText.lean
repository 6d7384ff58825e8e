import Sosis.CommandStrings
import Mathlib.Logic.Function.Basic

-- puts_integer of command-shell.c with its buffer, and string_to_int of string.c. A result
-- `none` is an access outside the buffer.
namespace Sosis.Command
open ByteRecords
open Fat32 (Word)

abbrev bufferSize : Nat := 20
abbrev IntegerBuffer := Fin bufferSize → Byte

namespace IntegerBuffer

def load (buffer : IntegerBuffer) (i : Nat) : Option Byte :=
  if inside : i < bufferSize then some (buffer ⟨i,inside⟩) else none

def store (buffer : IntegerBuffer) (i : Nat) (c : Byte) : Option IntegerBuffer :=
  if inside : i < bufferSize then some (Function.update buffer ⟨i,inside⟩ c) else none

-- do … while (number != 0), with the turns still allowed
def fill : Nat → IntegerBuffer → Nat → Int → Option (IntegerBuffer × Nat)
  | 0,_,_,_ => none
  | turns+1,buffer,i,number => do
    let buffer ← buffer.store i (BitVec.ofInt 8 (48 + number.tmod 10))
    let number := number.tdiv 10
    if number = 0 then return (buffer,i+1) else fill turns buffer (i+1) number

def swap (len : Nat) (buffer : IntegerBuffer) (j : Nat) : Option IntegerBuffer := do
  let temp ← buffer.load j
  let buffer ← buffer.store j (← buffer.load (len-j-1))
  buffer.store (len-j-1) temp

-- What puts finds at the pointer: the bytes in front of the first NUL.
def text (buffer : IntegerBuffer) : Option (List Byte) :=
  if 0 ∈ List.ofFn buffer then some ((List.ofFn buffer).takeWhile (· != 0)) else none

-- The text that puts_integer prints. One turn more than the buffer has bytes is never taken.
def puts_integer (buffer : IntegerBuffer) (number : Int) : Option (List Byte) := do
  let (buffer,len) ← fill (bufferSize+1) buffer 0 number
  let buffer ← buffer.store len 0
  let buffer ← (List.range (len/2)).foldlM (swap len) buffer
  buffer.text

end IntegerBuffer

def isDigit (c : Byte) : Bool := decide (0x30 ≤ c ∧ c ≤ 0x39)

-- `result` is an int, and wraps.
def readDigits : Word → List Byte → Word
  | result,[] => result
  | result,c :: rest => if isDigit c then readDigits (result*10 + (c.setWidth 32 - 0x30)) rest else result

def string_to_int (str : List Byte) : Word :=
  let (sign,str) : Word × List Byte := if str.head? = some 0x2D then (-1,str.tail) else (1,str)
  sign * readDigits 0 str

section reversal
variable {α : Type} {f : Nat → α}

def exchanged (f : Nat → α) (a b : Nat) : Nat → α := fun k => if k = b then f a else if k = a then f b else f k

-- The first turns exchange the two ends, going inwards.
theorem foldl_exchanged {len turns : Nat} (half : 2*turns ≤ len) (k : Nat) :
    (List.range turns).foldl (fun f j => exchanged f j (len-j-1)) f k =
      if k < turns ∨ len - turns ≤ k ∧ k < len then f (len-1-k) else f k := by
  induction turns generalizing k with
  | zero => exact (if_neg (by omega)).symm
  | succ turns ih =>
    rw [List.range_succ,List.foldl_append,List.foldl_cons,List.foldl_nil,exchanged,ih (by omega),ih (by omega),ih (by omega)]
    by_cases high : k = len - turns - 1
    · rw [if_pos high,if_neg (by omega),if_pos (by omega)]
      exact congrArg f (by omega)
    · rw [if_neg high]
      by_cases low : k = turns
      · rw [if_pos low,if_neg (by omega),if_pos (by omega)]
        exact congrArg f (by omega)
      · rw [if_neg low]
        exact if_congr (by omega) rfl rfl

end reversal

namespace IntegerBuffer

def byteAt (buffer : IntegerBuffer) (i : Nat) : Byte := if inside : i < bufferSize then buffer ⟨i,inside⟩ else 0

theorem load_inside (buffer : IntegerBuffer) {i : Nat} (inside : i < bufferSize) : buffer.load i = some (buffer.byteAt i) := by
  rw [load,dif_pos inside,byteAt,dif_pos inside]

theorem store_inside (buffer : IntegerBuffer) {i : Nat} (inside : i < bufferSize) (c : Byte) :
    ∃ next, buffer.store i c = some next ∧ next.byteAt = Function.update buffer.byteAt i c := by
  refine ⟨Function.update buffer ⟨i,inside⟩ c,dif_pos inside,funext fun k => ?_⟩
  by_cases same : k = i
  · subst same
    rw [byteAt,dif_pos inside,Function.update_self,Function.update_self]
  · rw [Function.update_of_ne same,byteAt,byteAt]
    split
    · exact Function.update_of_ne (fun eq => same (congrArg Fin.val eq)) _ _
    · rfl

theorem swap_exchanged (buffer : IntegerBuffer) {len j : Nat} (half : j < len) (size : len ≤ bufferSize) :
    ∃ next, swap len buffer j = some next ∧ next.byteAt = exchanged buffer.byteAt j (len-j-1) := by
  have mirror : len-j-1 < bufferSize := by omega
  obtain ⟨front,stored,frontBytes⟩ := buffer.store_inside (half.trans_le size) (buffer.byteAt (len-j-1))
  obtain ⟨next,stored',nextBytes⟩ := front.store_inside mirror (buffer.byteAt j)
  refine ⟨next,?_,?_⟩
  · simp only [swap,load_inside buffer (half.trans_le size),load_inside buffer mirror,Option.bind_eq_bind,Option.bind_some,
      stored]
    exact stored'
  · funext k
    rw [nextBytes,frontBytes,exchanged,Function.update_apply,Function.update_apply]

-- The loop of puts_integer over j, as the exchanges it makes.
theorem swaps_exchanged (buffer : IntegerBuffer) {len turns : Nat} (half : 2*turns ≤ len) (size : len ≤ bufferSize) :
    ∃ next, (List.range turns).foldlM (swap len) buffer = some next ∧
      next.byteAt = (List.range turns).foldl (fun f j => exchanged f j (len-j-1)) buffer.byteAt := by
  induction turns with
  | zero => exact ⟨buffer,rfl,rfl⟩
  | succ turns ih =>
    obtain ⟨middle,ran,middleBytes⟩ := ih (by omega)
    obtain ⟨next,swapped,nextBytes⟩ := middle.swap_exchanged (j := turns) (by omega) size
    refine ⟨next,?_,?_⟩
    · rw [List.range_succ,List.foldlM_append,ran]
      simpa using swapped
    · rw [List.range_succ,List.foldl_append,← middleBytes]
      exact nextBytes

theorem ofFn_byteAt (buffer : IntegerBuffer) (k : Nat) (inside : k < (List.ofFn buffer).length) :
    (List.ofFn buffer)[k] = buffer.byteAt k := by
  rw [List.getElem_ofFn,byteAt,dif_pos (by simpa using inside)]

theorem text_of_bytes {buffer : IntegerBuffer} {str : List Byte} (solid : ∀ c ∈ str, c ≠ 0)
    (room : str.length < bufferSize) (bytes : ∀ k (inside : k < str.length), buffer.byteAt k = str[k])
    (ended : buffer.byteAt str.length = 0) : buffer.text = some str := by
  have split : List.ofFn buffer = str ++ 0 :: (List.ofFn buffer).drop (str.length+1) := by
    refine List.ext_getElem ?_ fun k inside _ => ?_
    · simp only [List.length_append,List.length_cons,List.length_drop,List.length_ofFn]
      omega
    · rcases Nat.lt_trichotomy k str.length with before | at_end | behind
      · rw [List.getElem_append_left before,ofFn_byteAt,bytes k before]
      · subst at_end
        rw [ofFn_byteAt,ended,List.getElem_append_right le_rfl]
        simp only [Nat.sub_self,List.getElem_cons_zero]
      · rw [List.getElem_append_right behind.le,List.getElem_cons,dif_neg (by omega),List.getElem_drop]
        congr 1
        omega
  have nonzero : ∀ c ∈ str, (c != 0) = true := fun c mem => bne_iff_ne.mpr (solid c mem)
  rw [text,if_pos (by rw [split]; exact List.mem_append_right _ List.mem_cons_self),split,
    List.takeWhile_append_of_pos nonzero]
  simp

end IntegerBuffer

theorem one_digit_less {number : Int} {places : Nat} (small : number.natAbs < 10^(places+1)) :
    (number.tdiv 10).natAbs < 10^places := by
  rw [Int.natAbs_tdiv]
  exact Nat.div_lt_of_lt_mul (by rwa [pow_succ,Nat.mul_comm] at small)

theorem digit_left {number : Int} {places : Nat} (small : number.natAbs < 10^places) (nonzero : number ≠ 0) :
    0 < places := by
  refine Nat.pos_of_ne_zero ?_
  rintro rfl
  exact nonzero (Int.natAbs_eq_zero.mp (Nat.lt_one_iff.mp small))

theorem digits_length {turns : Nat} {number : Int} {places : Nat} (some_place : 0 < places)
    (small : number.natAbs < 10^places) : (digits turns number).length ≤ places := by
  induction turns generalizing number places with
  | zero => exact Nat.zero_le _
  | succ turns ih =>
    rw [digits,List.length_cons]
    split
    · exact some_place
    · rename_i more
      obtain ⟨places,rfl⟩ := Nat.exists_eq_succ_of_ne_zero some_place.ne'
      have shorter := one_digit_less small
      exact Nat.succ_le_succ (ih (digit_left shorter more) shorter)

theorem fill_digits (buffer : IntegerBuffer) {turns fuel i : Nat} {number : Int} (allowed : fuel ≤ turns)
    (small : number.natAbs < 10^fuel) (some_digit : 0 < fuel) (room : i + (digits fuel number).length ≤ bufferSize) :
    ∃ filled, IntegerBuffer.fill turns buffer i number = some (filled,i + (digits fuel number).length) ∧
      (∀ k (inside : k < (digits fuel number).length), filled.byteAt (i+k) = (digits fuel number)[k]) ∧
      ∀ k < i, filled.byteAt k = buffer.byteAt k := by
  induction fuel generalizing turns buffer i number with
  | zero => exact absurd some_digit (lt_irrefl 0)
  | succ fuel ih =>
    obtain ⟨turns,rfl⟩ := Nat.exists_eq_add_of_le' (Nat.succ_le_of_lt (some_digit.trans_le allowed))
    rw [digits,List.length_cons] at room
    obtain ⟨first,stored,firstBytes⟩ := buffer.store_inside (show i < bufferSize by omega)
      (BitVec.ofInt 8 (48 + number.tmod 10))
    have one_turn : IntegerBuffer.fill (turns+1) buffer i number =
        if number.tdiv 10 = 0 then some (first,i+1) else IntegerBuffer.fill turns first (i+1) (number.tdiv 10) := by
      rw [IntegerBuffer.fill,stored]
      rfl
    by_cases last : number.tdiv 10 = 0
    · refine ⟨first,?_,fun k inside => ?_,fun k before => ?_⟩
      · rw [one_turn,if_pos last,digits,if_pos last]
        rfl
      · simp only [digits,if_pos last,List.length_singleton,Nat.lt_one_iff] at inside
        subst inside
        simp only [digits,if_pos last,firstBytes,Nat.add_zero,Function.update_self,List.getElem_cons_zero]
      · rw [firstBytes,Function.update_of_ne before.ne]
    · rw [if_neg last] at room
      have shorter := one_digit_less small
      obtain ⟨filled,ran,written,kept⟩ := ih first (show fuel ≤ turns by omega) shorter (digit_left shorter last)
        (show i+1 + (digits fuel (number.tdiv 10)).length ≤ bufferSize by omega)
      refine ⟨filled,?_,fun k inside => ?_,fun k before => ?_⟩
      · rw [one_turn,if_neg last,ran,digits,if_neg last,List.length_cons]
        congr 2
        omega
      · simp only [digits,if_neg last,List.length_cons] at inside
        simp only [digits,if_neg last]
        cases k with
        | zero => rw [Nat.add_zero,kept i (Nat.lt_succ_self i),firstBytes,Function.update_self,List.getElem_cons_zero]
        | succ k =>
          rw [List.getElem_cons_succ,← written k (by omega)]
          congr 1
          omega
      · rw [kept k (by omega),firstBytes,Function.update_of_ne before.ne]

theorem tmod_ten (number : Int) : -10 < number.tmod 10 ∧ number.tmod 10 < 10 :=
  ⟨Int.lt_tmod_of_pos number (by decide),Int.tmod_lt_of_pos number (by decide)⟩

-- What a quotient by ten keeps of the number gives each of its digits.
theorem digits_all (kept : Int → Prop) {found : Byte → Prop} (quotient : ∀ number, kept number → kept (number.tdiv 10))
    (digit : ∀ number, kept number → found (BitVec.ofInt 8 (48 + number.tmod 10))) {turns : Nat} {number : Int}
    (start : kept number) : ∀ c ∈ digits turns number, found c := by
  induction turns generalizing number with
  | zero => exact fun c mem => absurd mem List.not_mem_nil
  | succ turns ih =>
    intro c mem
    rcases List.mem_cons.mp mem with rfl | mem
    · exact digit number start
    · split at mem
      · exact absurd mem List.not_mem_nil
      · exact ih (quotient number start) c mem

theorem digits_nonzero {turns : Nat} {number : Int} : ∀ c ∈ digits turns number, c ≠ 0 := by
  refine digits_all (fun _ => True) (fun _ _ => trivial) (fun number _ zero => ?_) trivial
  obtain ⟨least,most⟩ := tmod_ten number
  have value := congrArg BitVec.toInt zero
  rw [BitVec.toInt_ofInt,Int.bmod_eq_of_le (by omega) (by omega)] at value
  have : 48 + number.tmod 10 = 0 := value
  omega

-- Twenty bytes are room for nineteen digits and the NUL, and an int has at most ten.
theorem puts_integer_text (buffer : IntegerBuffer) {number : Int} (small : number.natAbs < 10^19) :
    buffer.puts_integer number = some (integerText number) := by
  have length : (digits 20 number).length ≤ 19 := digits_length (by decide) small
  have room : (digits 20 number).length < bufferSize := Nat.lt_succ_of_le length
  obtain ⟨filled,ran,written,-⟩ := fill_digits buffer (i := 0) (show 20 ≤ bufferSize+1 by decide)
    (small.trans (by decide)) (by decide) ((Nat.zero_add _).trans_le room.le)
  obtain ⟨ended,stored,endedBytes⟩ := filled.store_inside room 0
  obtain ⟨turned,swapped,turnedBytes⟩ := ended.swaps_exchanged (Nat.mul_div_le (digits 20 number).length 2) room.le
  have nonzero : ∀ c ∈ integerText number, c ≠ 0 := fun c mem => digits_nonzero c (List.mem_reverse.mp mem)
  have size : (integerText number).length = (digits 20 number).length := List.length_reverse
  rw [IntegerBuffer.puts_integer,ran]
  simp only [Option.bind_eq_bind,Option.bind_some,Nat.zero_add,stored,swapped]
  refine IntegerBuffer.text_of_bytes nonzero (by omega) (fun k inside => ?_) ?_
  · rw [size] at inside
    have mirrored : turned.byteAt k = ended.byteAt ((digits 20 number).length-1-k) := by
      rw [turnedBytes,foldl_exchanged (by omega)]
      split
      · rfl
      -- the middle digit is its own mirror
      · exact congrArg _ (by omega)
    simp only [integerText,List.getElem_reverse]
    rw [mirrored,endedBytes,Function.update_of_ne (by omega),← written _ (by omega),Nat.zero_add]
  · rw [turnedBytes,foldl_exchanged (by omega),if_neg (by omega),size,endedBytes,Function.update_self]

theorem readDigits_append {front : List Byte} (numeric : ∀ c ∈ front, isDigit c = true) (result : Word) (rest : List Byte) :
    readDigits result (front ++ rest) = readDigits (readDigits result front) rest := by
  induction front generalizing result with
  | nil => rfl
  | cons c front ih =>
    have first : isDigit c = true := numeric c List.mem_cons_self
    simp only [List.cons_append,readDigits,first,if_true]
    exact ih (fun d mem => numeric d (List.mem_cons_of_mem c mem)) _

theorem digit_read {r : Int} (least : 0 ≤ r) (most : r < 10) : isDigit (BitVec.ofInt 8 (48 + r)) = true ∧
    (BitVec.ofInt 8 (48 + r)).setWidth 32 - 0x30 = BitVec.ofInt 32 r := by
  obtain ⟨r,rfl⟩ := Int.eq_ofNat_of_zero_le least
  have every : ∀ r : Fin 10, isDigit (BitVec.ofInt 8 (48 + (r.val : Int))) = true ∧
      (BitVec.ofInt 8 (48 + (r.val : Int))).setWidth 32 - 0x30 = BitVec.ofInt 32 r.val := by decide
  exact every ⟨r,by omega⟩

theorem digits_numeric {turns : Nat} {number : Int} (positive : 0 ≤ number) :
    ∀ c ∈ digits turns number, isDigit c = true :=
  digits_all (0 ≤ ·) (fun _ positive => Int.tdiv_nonneg positive (by decide))
    (fun number positive => (digit_read (Int.tmod_nonneg 10 positive) (tmod_ten number).2).1) positive

-- Horner's rule: the last digit that is read is the first one that was written.
theorem readDigits_digits {turns : Nat} {number : Int} (positive : 0 ≤ number) (small : number.natAbs < 10^turns) :
    readDigits 0 (digits turns number).reverse = BitVec.ofInt 32 number := by
  induction turns generalizing number with
  | zero =>
    have nothing : number = 0 := Int.natAbs_eq_zero.mp (Nat.lt_one_iff.mp small)
    rw [nothing]
    rfl
  | succ turns ih =>
    obtain ⟨numeric,value⟩ := digit_read (Int.tmod_nonneg 10 positive) (tmod_ten number).2
    have fewer := Int.tdiv_nonneg positive (show 0 ≤ 10 by decide)
    have front : readDigits 0 (if number.tdiv 10 = 0 then [] else digits turns (number.tdiv 10)).reverse =
        BitVec.ofInt 32 (number.tdiv 10) := by
      split
      · rename_i last
        rw [last]
        rfl
      · exact ih fewer (one_digit_less small)
    have front_numeric : ∀ c ∈ (if number.tdiv 10 = 0 then [] else digits turns (number.tdiv 10)).reverse,
        isDigit c = true := by
      intro c mem
      rw [List.mem_reverse] at mem
      split at mem
      · exact absurd mem List.not_mem_nil
      · exact digits_numeric fewer c mem
    calc readDigits 0 (digits (turns+1) number).reverse
        = readDigits (BitVec.ofInt 32 (number.tdiv 10)) [BitVec.ofInt 8 (48 + number.tmod 10)] := by
          rw [digits,List.reverse_cons,readDigits_append front_numeric,front]
      _ = BitVec.ofInt 32 (number.tdiv 10) * 10 + BitVec.ofInt 32 (number.tmod 10) := by
          simp only [readDigits,numeric,if_true,value]
      _ = BitVec.ofInt 32 (number.tdiv 10 * 10 + number.tmod 10) := by
          rw [BitVec.ofInt_add,BitVec.ofInt_mul]
          rfl
      _ = BitVec.ofInt 32 number := by rw [Int.mul_comm,Int.mul_tdiv_add_tmod]

theorem string_to_int_unsigned {str : List Byte} (numeric : ∀ c ∈ str, isDigit c = true) :
    string_to_int str = readDigits 0 str := by
  have unsigned : ¬ str.head? = some 0x2D := fun sign =>
    absurd (numeric 0x2D (List.mem_of_head? sign)) (by decide)
  simp only [string_to_int,if_neg unsigned]
  exact BitVec.one_mul _

-- The characters of a negative remainder lie below '0': the first of them ends the number.
theorem readDigits_low {str : List Byte} (low : ∀ c ∈ str, c ≤ 0x30) : readDigits 0 str = 0 := by
  induction str with
  | nil => rfl
  | cons c rest ih =>
    rw [readDigits]
    split
    · rename_i numeric
      have zero : c = 0x30 := BitVec.le_antisymm (low c List.mem_cons_self) (of_decide_eq_true numeric).1
      rw [zero]
      exact ih fun d mem => low d (List.mem_cons_of_mem c mem)
    · rfl

theorem low_digit {r : Int} (least : -10 < r) (most : r ≤ 0) : BitVec.ofInt 8 (48 + r) ≤ 0x30 := by
  obtain ⟨k,opposite⟩ := Int.eq_ofNat_of_zero_le (Int.neg_nonneg_of_nonpos most)
  have every : ∀ k : Fin 10, BitVec.ofInt 8 (48 + -(k.val : Int)) ≤ 0x30 := by decide
  rw [← Int.neg_neg r,opposite]
  exact every ⟨k,by omega⟩

theorem digits_low {turns : Nat} {number : Int} (negative : number ≤ 0) : ∀ c ∈ digits turns number, c ≤ 0x30 := by
  refine digits_all (· ≤ 0) (fun number negative => ?_) (fun number negative => low_digit (tmod_ten number).1 ?_) negative
  · have quotient := Int.tdiv_nonneg (Int.neg_nonneg_of_nonpos negative) (show 0 ≤ 10 by decide)
    rw [Int.neg_tdiv] at quotient
    exact Int.nonpos_of_neg_nonneg quotient
  · have remainder := Int.tmod_nonneg 10 (Int.neg_nonneg_of_nonpos negative)
    rw [Int.neg_tmod] at remainder
    exact Int.nonpos_of_neg_nonneg remainder

theorem string_to_int_low {str : List Byte} (low : ∀ c ∈ str, c ≤ 0x30) : string_to_int str = 0 := by
  have tail_low : ∀ c ∈ str.tail, c ≤ 0x30 := fun c mem => low c (List.mem_of_mem_tail mem)
  by_cases sign : str.head? = some 0x2D
  · simp only [string_to_int,if_pos sign,readDigits_low tail_low]
    rfl
  · simp only [string_to_int,if_neg sign,readDigits_low low]
    rfl

def SignedDecimal (text : List Byte) : Prop :=
  ∃ sign digits, text = sign ++ digits ∧ (sign = [] ∨ sign = chars "-") ∧ ∀ c ∈ digits, isDigit c = true

-- `buffer` is what the bytes of the array hold when puts_integer is entered.
def IntegerRoundTrip (buffer : IntegerBuffer) (n : Word) : Prop :=
  ∃ text, buffer.puts_integer n.toInt = some text ∧ text.length < bufferSize ∧ SignedDecimal text ∧ string_to_int text = n

theorem integer_round_trip_iff (buffer : IntegerBuffer) (n : Word) : IntegerRoundTrip buffer n ↔ 0 ≤ n.toInt := by
  have least := BitVec.le_toInt n
  have most := BitVec.toInt_lt (x := n)
  have small : n.toInt.natAbs < 10^10 := by omega
  have printed := puts_integer_text buffer (small.trans (by decide))
  constructor
  · rintro ⟨text,put,-,-,read⟩
    by_contra negative
    have nothing : string_to_int text = 0 := by
      rw [← Option.some.inj (printed.symm.trans put)]
      exact string_to_int_low fun c mem => digits_low (not_le.mp negative).le c (List.mem_reverse.mp mem)
    rw [← read,nothing] at negative
    exact negative le_rfl
  · intro positive
    have numeric : ∀ c ∈ integerText n.toInt, isDigit c = true := fun c mem =>
      digits_numeric positive c (List.mem_reverse.mp mem)
    have length : (integerText n.toInt).length ≤ 10 := List.length_reverse.trans_le (digits_length (by decide) small)
    refine ⟨integerText n.toInt,printed,length.trans_lt (by decide),⟨[],_,rfl,.inl rfl,numeric⟩,?_⟩
    calc string_to_int (integerText n.toInt)
        = readDigits 0 (integerText n.toInt) := string_to_int_unsigned numeric
      _ = BitVec.ofInt 32 n.toInt := readDigits_digits positive (small.trans (by decide))
      _ = n := BitVec.ofInt_toInt

-- The remainder -5 gives '0'-5 = '+', and no sign is written.
theorem negative_read_as_zero : ¬ IntegerRoundTrip (fun _ => 0) (-5) := by
  rintro ⟨text,put,-,-,read⟩
  have printed : IntegerBuffer.puts_integer (fun _ => 0) (-5 : Word).toInt = some (chars "+") := by decide +kernel
  rw [← Option.some.inj (printed.symm.trans put)] at read
  exact absurd read (by decide)

end Sosis.Command
