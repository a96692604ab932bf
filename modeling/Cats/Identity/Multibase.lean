import Cats.Codec.Base58
import Cats.Raised

/-!
# Multibase base58 text

The text of a did:key identifier and of a proof value: base58 behind a `z`.
-/

namespace Cats

namespace Text

def isAscii (character : Char) : Bool := character.toNat < 128

/-- The escape an encoding error names a character by. -/
def escapeCode (character : Char) : String :=
  let code := Nat.toDigits 16 character.toNat
  let padded (width : Nat) := List.replicate (width - code.length) '0' ++ code
  if character.toNat < 256 then String.ofList ('\\' :: 'x' :: padded 2)
  else if character.toNat < 65536 then String.ofList ('\\' :: 'u' :: padded 4)
  else String.ofList ('\\' :: 'U' :: padded 8)

/-- What `text.encode('ascii')` raises, if it does: the first run of
characters past ASCII is named. -/
def asciiRefusal (text : List Char) : Option Raised :=
  let start := (text.takeWhile isAscii).length
  match text.dropWhile isAscii with
  | [] => none
  | first :: rest =>
      let more := (rest.takeWhile fun character => !isAscii character).length
      let place :=
        if more = 0 then s!"character '{escapeCode first}' in position {start}"
        else s!"characters in position {start}-{start + more}"
      some ⟨.unicodeEncodeError, "'ascii' codec can't encode " ++ place ++
        ": ordinal not in range(128)"⟩

end Text

def b58encode (data : Bytes) : String := String.ofList (Base58.encode data)

def b58decode (text : String) : Except Raised Bytes :=
  if text = "" then .ok []
  else
    match Text.asciiRefusal text.toList with
    | some raised => .error raised
    | none =>
        match text.toList.find? fun character =>
          (Base58.value? character).isNone with
        | some character => .error (.valueError
            s!"Invalid base58 character: {character.toNat}")
        | none => .ok ((Base58.decode text.toList).getD [])

def multibase_z_encode (data : Bytes) : String := "z" ++ b58encode data

def multibase_z_decode (text : String) : Except Raised Bytes :=
  if Text.startsWith text "z" then
    b58decode (String.ofList (text.toList.drop 1))
  else .error (.valueError ("Expected multibase z-prefix, got " ++
    Text.repr (String.ofList (text.toList.take 1))))

theorem alphabet_ascii {character : Char}
    (member : character ∈ Base58.alphabet) :
    Text.isAscii character = true := by
  have table : Base58.alphabet.all Text.isAscii = true := by decide +kernel
  exact List.all_eq_true.mp table character member

theorem alphabet_ne_hash {character : Char}
    (member : character ∈ Base58.alphabet) : character ≠ '#' := by
  have table : Base58.alphabet.all (fun symbol => symbol ≠ '#') = true := by
    decide +kernel
  simpa using List.all_eq_true.mp table character member

theorem alphabet_value {character : Char}
    (member : character ∈ Base58.alphabet) :
    (Base58.value? character).isSome = true := by
  have table : Base58.alphabet.all (fun symbol =>
      (Base58.value? symbol).isSome) = true := by decide +kernel
  exact List.all_eq_true.mp table character member

theorem b58decode_b58encode (data : Bytes) :
    b58decode (b58encode data) = .ok data := by
  have chars : (b58encode data).toList = Base58.encode data := by
    simp [b58encode]
  have ascii : Text.asciiRefusal (Base58.encode data) = none := by
    have none_left : (Base58.encode data).dropWhile Text.isAscii = [] := by
      apply List.dropWhile_eq_nil_iff.mpr
      intro character member
      exact alphabet_ascii (Base58.encode_mem member)
    simp [Text.asciiRefusal, none_left]
  have known : (Base58.encode data).find? (fun character =>
      (Base58.value? character).isNone) = none := by
    apply List.find?_eq_none.mpr
    intro character member
    have some_value := alphabet_value (Base58.encode_mem member)
    cases found : Base58.value? character with
    | none => simp [found] at some_value
    | some value => simp
  by_cases empty : b58encode data = ""
  · have nothing : Base58.encode data = [] := by simpa [empty] using chars.symm
    have back := Base58.decode_encode data
    rw [nothing] at back
    have noData : data = [] := by
      simpa [Base58.decode, Base58.readFrom, Base58.body] using back.symm
    rw [b58decode, if_pos empty, noData]
  · rw [b58decode, if_neg empty, chars, ascii]
    simp only [known, Base58.decode_encode, Option.getD_some]

theorem multibase_z_decode_encode (data : Bytes) :
    multibase_z_decode (multibase_z_encode data) = .ok data := by
  have start : Text.startsWith (multibase_z_encode data) "z" = true := by
    rw [Text.startsWith_iff]
    simp [multibase_z_encode]
  have rest : String.ofList ((multibase_z_encode data).toList.drop 1) =
      b58encode data := by
    simp [multibase_z_encode]
  rw [multibase_z_decode, if_pos start, rest, b58decode_b58encode]

theorem multibase_z_encode_noHash (data : Bytes) :
    '#' ∉ (multibase_z_encode data).toList := by
  intro member
  have inside : '#' = 'z' ∨ '#' ∈ Base58.encode data := by
    simpa [multibase_z_encode, b58encode] using member
  rcases inside with mark | symbol
  · exact absurd mark (by decide)
  · exact alphabet_ne_hash (Base58.encode_mem symbol) rfl

end Cats
