import Mathlib.Data.List.Basic

/-!
# Lowercase hexadecimal text of byte strings

`encode` is the spelling `bytes.hex` writes.  `decode` reads exactly that
spelling back; letter case is settled by the caller before it is asked.
-/

namespace Cats

abbrev Bytes := List UInt8

namespace Hex

def digits : List Char :=
  ['0', '1', '2', '3', '4', '5', '6', '7', '8', '9', 'a', 'b', 'c', 'd', 'e',
    'f']

/-- The character of a value below sixteen. -/
def digit (value : Nat) : Char := digits.getD value '0'

def value? (character : Char) : Option Nat :=
  digits.findIdx? (· == character)

def isDigit (character : Char) : Bool := digits.contains character

def encode : Bytes → List Char
  | [] => []
  | byte :: rest =>
      digit (byte.toNat / 16) :: digit (byte.toNat % 16) :: encode rest

def decode : List Char → Option Bytes
  | [] => some []
  | [_] => none
  | high :: low :: rest =>
      match value? high, value? low, decode rest with
      | some upper, some lower, some tail =>
          some (UInt8.ofNat (upper * 16 + lower) :: tail)
      | _, _, _ => none

private theorem value?_digit_range :
    ∀ value ∈ List.range 16, value? (digit value) = some value := by
  decide

private theorem isDigit_digit_range :
    ∀ value ∈ List.range 16, isDigit (digit value) = true := by
  decide

theorem value?_digit {value : Nat} (small : value < 16) :
    value? (digit value) = some value :=
  value?_digit_range value (List.mem_range.mpr small)

theorem isDigit_digit {value : Nat} (small : value < 16) :
    isDigit (digit value) = true :=
  isDigit_digit_range value (List.mem_range.mpr small)

theorem digits_lower : ∀ character ∈ digits, character.toLower = character := by
  intro character member
  have table : digits.all (fun candidate => candidate.toLower = candidate) =
      true := by decide
  simpa using List.all_eq_true.mp table character member

theorem value?_isSome {character : Char} (hex : isDigit character = true) :
    ∃ value, value? character = some value ∧ value < 16 := by
  have member : character ∈ digits := by simpa [isDigit] using hex
  have table : digits.all (fun candidate =>
      (value? candidate).any (· < 16)) = true := by decide
  have entry := List.all_eq_true.mp table character member
  cases found : value? character with
  | none => simp [found] at entry
  | some value => exact ⟨value, rfl, by simpa [found] using entry⟩

@[simp] theorem length_encode (bytes : Bytes) :
    (encode bytes).length = 2 * bytes.length := by
  induction bytes with
  | nil => rfl
  | cons byte rest induction =>
      simp only [encode, List.length_cons, induction]
      omega

/-- Reading the text of a byte string gives the byte string back. -/
@[simp] theorem decode_encode (bytes : Bytes) :
    decode (encode bytes) = some bytes := by
  induction bytes with
  | nil => rfl
  | cons byte rest induction =>
      have bound : byte.toNat < 256 := byte.toNat_lt
      have upper : byte.toNat / 16 < 16 := by omega
      have lower : byte.toNat % 16 < 16 := by omega
      have whole : byte.toNat / 16 * 16 + byte.toNat % 16 = byte.toNat := by
        omega
      simp only [encode, decode, value?_digit upper, value?_digit lower,
        induction, whole, UInt8.ofNat_toNat]

theorem encode_injective {left right : Bytes}
    (same : encode left = encode right) : left = right := by
  have decoded := congrArg decode same
  simpa using decoded

theorem encode_isDigit (bytes : Bytes) :
    ∀ character ∈ encode bytes, isDigit character = true := by
  induction bytes with
  | nil => simp [encode]
  | cons byte rest induction =>
      intro character member
      have bound : byte.toNat < 256 := byte.toNat_lt
      simp only [encode, List.mem_cons] at member
      rcases member with rfl | rfl | later
      · exact isDigit_digit (by omega)
      · exact isDigit_digit (by omega)
      · exact induction character later

theorem toLower_of_isDigit {character : Char}
    (hex : isDigit character = true) : character.toLower = character := by
  have member : character ∈ digits := by simpa [isDigit] using hex
  exact digits_lower character member

/-- Text of even length over the alphabet always decodes, to half as many
bytes. -/
theorem decode_isSome (count : Nat) (text : List Char)
    (width : text.length = 2 * count)
    (hex : ∀ character ∈ text, isDigit character = true) :
    ∃ bytes, decode text = some bytes ∧ bytes.length = count := by
  induction count generalizing text with
  | zero =>
      have empty : text = [] := List.length_eq_zero_iff.mp (by simpa using width)
      exact ⟨[], by simp [empty, decode], rfl⟩
  | succ count induction =>
      match text, width, hex with
      | high :: low :: rest, width, hex =>
          obtain ⟨upper, upperValue, _⟩ := value?_isSome (hex high (by simp))
          obtain ⟨lower, lowerValue, _⟩ := value?_isSome (hex low (by simp))
          have restWidth : rest.length = 2 * count := by
            simp only [List.length_cons] at width
            omega
          obtain ⟨bytes, decoded, length⟩ :=
            induction rest restWidth (fun character member =>
              hex character (by simp [member]))
          exact ⟨UInt8.ofNat (upper * 16 + lower) :: bytes,
            by simp [decode, upperValue, lowerValue, decoded],
            by simp [length]⟩

private theorem digit_value?_table : ∀ upper ∈ digits, ∀ lower ∈ digits,
    ∀ high, value? upper = some high → ∀ low, value? lower = some low →
      digit ((UInt8.ofNat (high * 16 + low)).toNat / 16) = upper ∧
        digit ((UInt8.ofNat (high * 16 + low)).toNat % 16) = lower := by
  have table : digits.all (fun upper => digits.all fun lower =>
      match value? upper, value? lower with
        | some high, some low =>
            digit ((UInt8.ofNat (high * 16 + low)).toNat / 16) == upper &&
              digit ((UInt8.ofNat (high * 16 + low)).toNat % 16) == lower
        | _, _ => true) = true := by decide +kernel
  intro upper upperMember lower lowerMember high highValue low lowValue
  have entry := List.all_eq_true.mp
    (List.all_eq_true.mp table upper upperMember) lower lowerMember
  simpa [highValue, lowValue] using entry

/-- Text over the alphabet is the spelling of what it decodes to. -/
theorem encode_of_decode {text : List Char} {bytes : Bytes}
    (hex : ∀ character ∈ text, isDigit character = true)
    (decoded : decode text = some bytes) : encode bytes = text := by
  induction text using decode.induct generalizing bytes with
  | case1 =>
      simp only [decode, Option.some.injEq] at decoded
      subst decoded
      rfl
  | case2 character => simp [decode] at decoded
  | case3 high low rest upper lower tail restDecoded lowerValue upperValue induction =>
      simp only [decode, upperValue, lowerValue, restDecoded,
        Option.some.injEq] at decoded
      subst decoded
      have highMember : high ∈ digits := by
        simpa [isDigit] using hex high (by simp)
      have lowMember : low ∈ digits := by
        simpa [isDigit] using hex low (by simp)
      obtain ⟨highDigit, lowDigit⟩ := digit_value?_table high highMember low
        lowMember upper upperValue lower lowerValue
      have restText : encode tail = rest :=
        induction (fun character member => hex character (by simp [member]))
          restDecoded
      simp only [encode, highDigit, lowDigit, restText]
  | case4 high low rest missing => simp_all [decode]

end Hex

end Cats
