import Cats.Codec.Hex

/-!
# Strict UTF-8 decoding

`decode` refuses what the strict decoder refuses: stray continuation bytes,
truncated sequences, overlong spellings, surrogates and values past the last
code point.
-/

namespace Cats

namespace Utf8

/-- The payload of a continuation byte. -/
def continuation? (byte : UInt8) : Option Nat :=
  if 128 ≤ byte.toNat ∧ byte.toNat < 192 then some (byte.toNat - 128) else none

/-- A scalar value that needs at least `least` to be spelled this wide. -/
def scalar? (least value : Nat) : Option Char :=
  if least ≤ value ∧ value.isValidChar then some (Char.ofNat value) else none

def decode : Bytes → Option (List Char)
  | [] => some []
  | first :: rest =>
      if first.toNat < 128 then
        (decode rest).map (Char.ofNat first.toNat :: ·)
      else if first.toNat < 192 then none
      else if first.toNat < 224 then
        match rest with
        | second :: tail => do
            let low ← continuation? second
            let character ← scalar? 128 ((first.toNat - 192) * 64 + low)
            (decode tail).map (character :: ·)
        | _ => none
      else if first.toNat < 240 then
        match rest with
        | second :: third :: tail => do
            let middle ← continuation? second
            let low ← continuation? third
            let character ← scalar? 2048
              ((first.toNat - 224) * 4096 + middle * 64 + low)
            (decode tail).map (character :: ·)
        | _ => none
      else if first.toNat < 248 then
        match rest with
        | second :: third :: fourth :: tail => do
            let high ← continuation? second
            let middle ← continuation? third
            let low ← continuation? fourth
            let character ← scalar? 65536
              ((first.toNat - 240) * 262144 + high * 4096 + middle * 64 + low)
            (decode tail).map (character :: ·)
        | _ => none
      else none

/-- The bytes of text that stays inside ASCII. -/
def encodeAscii (text : List Char) : Bytes :=
  text.map fun character => UInt8.ofNat character.toNat

def IsAscii (text : List Char) : Prop :=
  ∀ character ∈ text, character.toNat < 128

theorem IsAscii.of_all {text : List Char}
    (small : text.all (fun character => character.toNat < 128) = true) :
    IsAscii text := by
  intro character member
  have below := List.all_eq_true.mp small character member
  simpa using below

@[simp] theorem encodeAscii_nil : encodeAscii [] = [] := rfl

@[simp] theorem encodeAscii_append (left right : List Char) :
    encodeAscii (left ++ right) = encodeAscii left ++ encodeAscii right := by
  simp [encodeAscii]

theorem IsAscii.append {left right : List Char} (leftAscii : IsAscii left)
    (rightAscii : IsAscii right) : IsAscii (left ++ right) := by
  intro character member
  rcases List.mem_append.mp member with onLeft | onRight
  · exact leftAscii character onLeft
  · exact rightAscii character onRight

/-- ASCII text reads back from its bytes. -/
theorem decode_encodeAscii {text : List Char} (ascii : IsAscii text) :
    decode (encodeAscii text) = some text := by
  induction text with
  | nil => rfl
  | cons character text induction =>
      have small : character.toNat < 128 := ascii character (by simp)
      have tail : decode (encodeAscii text) = some text :=
        induction (fun other member => ascii other (by simp [member]))
      have byte : (UInt8.ofNat character.toNat).toNat = character.toNat := by
        rw [UInt8.toNat_ofNat_of_lt' (by simp [UInt8.size]; omega)]
      have split : encodeAscii (character :: text) =
          UInt8.ofNat character.toNat :: encodeAscii text := rfl
      rw [split, decode.eq_def]
      simp only [byte, small, if_true, tail, Option.map_some,
        Char.ofNat_toNat]

theorem encodeAscii_injective {left right : List Char}
    (leftAscii : IsAscii left) (rightAscii : IsAscii right)
    (same : encodeAscii left = encodeAscii right) : left = right := by
  have decoded := congrArg decode same
  rw [decode_encodeAscii leftAscii, decode_encodeAscii rightAscii] at decoded
  exact Option.some.inj decoded

end Utf8

end Cats
