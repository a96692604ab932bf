import Mathlib.Data.Nat.Digits.Lemmas
import Mathlib.Data.List.DropRight
import Cats.Codec.Hex

/-!
# Base58 text of byte strings

A byte string is read as one big-endian number and written in base 58.  The
zero bytes in front do not show in the number, so each of them is written as
the symbol of zero.
-/

namespace Cats

namespace Base58

def alphabet : List Char :=
  "123456789ABCDEFGHJKLMNPQRSTUVWXYZabcdefghijkmnopqrstuvwxyz".toList

/-- The symbol of a value below fifty-eight. -/
def symbol (value : Nat) : Char := alphabet.getD value '1'

def value? (character : Char) : Option Nat :=
  alphabet.findIdx? (· == character)

/-- `int.from_bytes(data, 'big')`. -/
def number (data : Bytes) : Nat :=
  Nat.ofDigits 256 (data.map UInt8.toNat).reverse

/-- `number.to_bytes((number.bit_length() + 7) // 8, 'big')`. -/
def body (number : Nat) : Bytes :=
  ((Nat.digits 256 number).map UInt8.ofNat).reverse

def zeros (data : Bytes) : Nat := (data.takeWhile (· = 0)).length

def encode (data : Bytes) : List Char :=
  List.replicate (zeros data) '1' ++
    ((Nat.digits 58 (number data)).map symbol).reverse

/-- The number a text spells, most significant symbol first. -/
def readFrom (start : Nat) : List Char → Option Nat
  | [] => some start
  | character :: rest =>
      match value? character with
      | some value => readFrom (start * 58 + value) rest
      | none => none

def decode (text : List Char) : Option Bytes :=
  (readFrom 0 text).map fun found =>
    List.replicate (text.takeWhile (· = '1')).length 0 ++ body found

private theorem value?_symbol_table :
    ∀ value ∈ List.range 58, value? (symbol value) = some value := by
  decide +kernel

private theorem symbol_ne_one_table :
    ∀ value ∈ List.range 58, symbol value = '1' → value = 0 := by
  decide +kernel

private theorem symbol_mem_table :
    ∀ value ∈ List.range 58, symbol value ∈ alphabet := by
  decide +kernel

theorem value?_symbol {value : Nat} (small : value < 58) :
    value? (symbol value) = some value :=
  value?_symbol_table value (List.mem_range.mpr small)

theorem eq_zero_of_symbol {value : Nat} (small : value < 58)
    (one : symbol value = '1') : value = 0 :=
  symbol_ne_one_table value (List.mem_range.mpr small) one

theorem symbol_mem {value : Nat} (small : value < 58) :
    symbol value ∈ alphabet :=
  symbol_mem_table value (List.mem_range.mpr small)

/-- Reading symbols adds their value at the place they stand. -/
theorem readFrom_symbols (start : Nat) (digits : List Nat)
    (small : ∀ digit ∈ digits, digit < 58) :
    readFrom start (digits.map symbol) =
      some (start * 58 ^ digits.length + Nat.ofDigits 58 digits.reverse) := by
  induction digits generalizing start with
  | nil => simp [readFrom]
  | cons digit digits induction =>
      have first : digit < 58 := small digit (by simp)
      have later : ∀ other ∈ digits, other < 58 := fun other member =>
        small other (List.mem_cons_of_mem _ member)
      simp only [List.map_cons, readFrom, value?_symbol first]
      rw [induction _ later, Nat.ofDigits_reverse_cons, List.length_cons,
        pow_succ]
      congr 1
      ring

theorem readFrom_ones (start count : Nat) (rest : List Char) :
    readFrom start (List.replicate count '1' ++ rest) =
      readFrom (start * 58 ^ count) rest := by
  induction count generalizing start with
  | zero => simp
  | succ count induction =>
      have zero : value? '1' = some 0 := value?_symbol (by omega : 0 < 58)
      rw [List.replicate_succ, List.cons_append]
      simp only [readFrom, zero]
      rw [induction, pow_succ]
      congr 1
      ring

/-- A byte string is its zeros in front and what follows them. -/
theorem zeros_append (data : Bytes) :
    List.replicate (zeros data) 0 ++ data.dropWhile (· = 0) = data := by
  have front : data.takeWhile (· = 0) = List.replicate (zeros data) 0 := by
    apply List.eq_replicate_of_mem
    intro byte member
    simpa using List.mem_takeWhile_imp member
  rw [← front]
  exact List.takeWhile_append_dropWhile

theorem number_dropWhile (data : Bytes) :
    number (data.dropWhile (· = 0)) = number data := by
  conv_rhs => rw [← zeros_append data]
  simp [number, Nat.ofDigits_append, Nat.ofDigits_replicate_zero]

/-- The digits of a number without zeros in front give back its bytes. -/
theorem body_number {data : Bytes} (start : data.head? ≠ some 0) :
    body (number data) = data := by
  have small : ∀ digit ∈ (data.map UInt8.toNat).reverse, digit < 256 := by
    intro digit member
    obtain ⟨byte, _, same⟩ :=
      List.mem_map.mp (List.mem_reverse.mp member)
    rw [← same]
    exact byte.toNat_lt
  have last : ∀ nonempty : (data.map UInt8.toNat).reverse ≠ [],
      (data.map UInt8.toNat).reverse.getLast nonempty ≠ 0 := by
    intro nonempty zero
    cases data with
    | nil => exact nonempty rfl
    | cons byte rest =>
        apply start
        simp only [List.map_cons, List.reverse_cons, List.getLast_append,
          List.getLast_singleton] at zero
        have isZero : byte = 0 := UInt8.toNat_inj.mp (by simpa using zero)
        simp [isZero]
  simp only [body, number]
  rw [Nat.digits_ofDigits 256 (by omega) _ small last, List.map_reverse,
    List.reverse_reverse, List.map_map]
  simp [Function.comp_def]

theorem head?_dropWhile_zero (data : Bytes) :
    (data.dropWhile (· = 0)).head? ≠ some 0 := by
  intro found
  have refused := List.head?_dropWhile_not (fun byte => decide (byte = 0)) data
  rw [found] at refused
  simp at refused

/-- The first digit written is not zero, so the ones in front are counted
exactly. -/
theorem takeWhile_encode (data : Bytes) :
    ((encode data).takeWhile (· = '1')).length = zeros data := by
  have stops : (((Nat.digits 58 (number data)).map symbol).reverse).takeWhile
      (· = '1') = [] := by
    cases shape : (Nat.digits 58 (number data)).reverse with
    | nil => simp [List.map_reverse.symm, shape]
    | cons digit digits =>
        have nonempty : Nat.digits 58 (number data) ≠ [] := by
          intro empty
          simp [empty] at shape
        have last : (Nat.digits 58 (number data)).getLast nonempty = digit := by
          have head := List.head?_reverse (l := Nat.digits 58 (number data))
          rw [shape, List.getLast?_eq_some_getLast nonempty] at head
          simpa using head.symm
        have positive : number data ≠ 0 := by
          intro zero
          simp [zero] at nonempty
        have nonzero : digit ≠ 0 := by
          rw [← last]
          exact Nat.getLast_digit_ne_zero 58 positive
        have small : digit < 58 := by
          rw [← last]
          exact Nat.digits_lt_base (by omega) (List.getLast_mem nonempty)
        have notOne : symbol digit ≠ '1' := fun one =>
          nonzero (eq_zero_of_symbol small one)
        rw [← List.map_reverse, shape]
        simp [notOne]
  rw [encode, List.takeWhile_append_of_pos (by simp), stops]
  simp

theorem decode_encode (data : Bytes) : decode (encode data) = some data := by
  have small : ∀ digit ∈ (Nat.digits 58 (number data)).reverse,
      digit < 58 := by
    intro digit member
    exact Nat.digits_lt_base (by omega) (List.mem_reverse.mp member)
  have read : readFrom 0 (encode data) = some (number data) := by
    rw [encode, readFrom_ones, ← List.map_reverse,
      readFrom_symbols _ _ small, List.reverse_reverse, Nat.ofDigits_digits]
    simp
  rw [decode, read, Option.map_some, takeWhile_encode,
    ← number_dropWhile, body_number (head?_dropWhile_zero data),
    zeros_append]

theorem symbol_of_value? {character : Char} {value : Nat}
    (found : value? character = some value) :
    value < 58 ∧ symbol value = character := by
  obtain ⟨inside, same, -⟩ := List.findIdx?_eq_some_iff_getElem.mp found
  constructor
  · exact inside
  · rw [symbol, List.getD_eq_getElem?_getD, List.getElem?_eq_getElem inside]
    simpa using same

/-- What a readable text spells, symbol by symbol. -/
theorem readFrom_ok {start found : Nat} {text : List Char}
    (read : readFrom start text = some found) :
    ∃ digits : List Nat, text = digits.map symbol ∧
      ∀ digit ∈ digits, digit < 58 := by
  induction text generalizing start with
  | nil => exact ⟨[], rfl, by simp⟩
  | cons character text induction =>
      rw [readFrom] at read
      cases known : value? character with
      | none => simp [known] at read
      | some value =>
          simp only [known] at read
          obtain ⟨digits, shape, small⟩ := induction read
          obtain ⟨below, same⟩ := symbol_of_value? known
          refine ⟨value :: digits, by rw [shape, List.map_cons, same], ?_⟩
          intro digit member
          rcases List.mem_cons.mp member with here | later
          · exact here ▸ below
          · exact small digit later

theorem head?_body (number : Nat) : (body number).head? ≠ some 0 := by
  intro zero
  rw [body, List.head?_reverse, List.getLast?_map] at zero
  obtain ⟨digit, last, same⟩ := Option.map_eq_some_iff.mp zero
  have nonempty : Nat.digits 256 number ≠ [] := by
    intro empty
    simp [empty] at last
  have digitEq : (Nat.digits 256 number).getLast nonempty = digit := by
    rw [List.getLast?_eq_some_getLast nonempty] at last
    simpa using last
  have small : digit < 256 := by
    rw [← digitEq]
    exact Nat.digits_lt_base (by omega) (List.getLast_mem nonempty)
  have positive : number ≠ 0 := by
    intro isZero
    simp [isZero] at nonempty
  apply Nat.getLast_digit_ne_zero 256 positive
  rw [digitEq]
  have back := congrArg UInt8.toNat same
  rw [UInt8.toNat_ofNat_of_lt' (by simpa using small)] at back
  simpa using back

theorem number_body (found : Nat) : number (body found) = found := by
  have digits : ((Nat.digits 256 found).map UInt8.ofNat).map UInt8.toNat =
      Nat.digits 256 found := by
    have each : ∀ digit ∈ Nat.digits 256 found,
        (UInt8.toNat ∘ UInt8.ofNat) digit = id digit := by
      intro digit member
      have small : digit < 256 := Nat.digits_lt_base (by omega) member
      simpa using small
    rw [List.map_map, List.map_congr_left each, List.map_id]
  rw [number, body, List.map_reverse, List.reverse_reverse, digits,
    Nat.ofDigits_digits]

theorem zeros_replicate_append {data : Bytes} (count : Nat)
    (start : data.head? ≠ some 0) :
    zeros (List.replicate count 0 ++ data) = count := by
  have stops : data.takeWhile (· = 0) = [] := by
    cases data with
    | nil => rfl
    | cons byte rest =>
        have nonzero : byte ≠ 0 := by
          intro zero
          exact start (by rw [zero]; rfl)
        simp [nonzero]
  rw [zeros, List.takeWhile_append_of_pos (by simp), stops]
  simp

/-- Only the text `encode` writes decodes to a byte string. -/
theorem encode_decode {text : List Char} {data : Bytes}
    (decoded : decode text = some data) : encode data = text := by
  obtain ⟨found, read, rfl⟩ := Option.map_eq_some_iff.mp decoded
  let count := (text.takeWhile (· = '1')).length
  let rest := text.dropWhile (· = '1')
  have front : text.takeWhile (· = '1') = List.replicate count '1' := by
    apply List.eq_replicate_of_mem
    intro character member
    simpa using List.mem_takeWhile_imp member
  have shape : text = List.replicate count '1' ++ rest := by
    rw [← front]
    exact List.takeWhile_append_dropWhile.symm
  have readRest : readFrom 0 rest = some found := by
    rw [shape, readFrom_ones] at read
    simpa using read
  obtain ⟨digits, symbols, small⟩ := readFrom_ok readRest
  have value : Nat.ofDigits 58 digits.reverse = found := by
    rw [symbols, readFrom_symbols _ _ small] at readRest
    simpa using readRest
  have last : ∀ nonempty : digits.reverse ≠ [],
      digits.reverse.getLast nonempty ≠ 0 := by
    intro nonempty zero
    cases digits with
    | nil => exact nonempty rfl
    | cons digit digits =>
        have isZero : digit = 0 := by simpa using zero
        have refused := List.head?_dropWhile_not
          (fun character => decide (character = '1')) text
        have head : (text.dropWhile fun character =>
            decide (character = '1')).head? = some '1' := by
          change rest.head? = some '1'
          rw [symbols, List.map_cons, List.head?_cons, isZero]
          rfl
        rw [head] at refused
        simp at refused
  have written : Nat.digits 58 found = digits.reverse := by
    rw [← value]
    exact Nat.digits_ofDigits 58 (by omega) _
      (fun digit member => small digit (List.mem_reverse.mp member)) last
  have whole : number (List.replicate count 0 ++ body found) = found := by
    rw [← number_dropWhile, List.dropWhile_append_of_pos (by simp)]
    rw [number_dropWhile, number_body]
  rw [encode, zeros_replicate_append count (head?_body found), whole, written,
    List.map_reverse, List.reverse_reverse, ← symbols]
  exact shape.symm

theorem encode_mem {data : Bytes} {character : Char}
    (member : character ∈ encode data) : character ∈ alphabet := by
  rw [encode, List.mem_append] at member
  rcases member with one | digit
  · rw [List.eq_of_mem_replicate one]
    exact symbol_mem (by omega : 0 < 58)
  · obtain ⟨value, found, same⟩ :=
      List.mem_map.mp (List.mem_reverse.mp digit)
    rw [← same]
    exact symbol_mem (Nat.digits_lt_base (by omega) found)

end Base58

end Cats
