import Cats.Identity.NodeDid

/-!
# Base58 multibase as a bijection

A byte string is written in one way, and every text over the alphabet is how
some byte string is written.  So the identifier of a public key tells the key.
-/

namespace Cats

/-- A character outside the alphabet has no value. -/
theorem value?_of_not_mem {character : Char}
    (outside : character ∉ Base58.alphabet) :
    Base58.value? character = none := by
  apply List.findIdx?_eq_none_iff.mpr
  intro symbol member
  rw [beq_eq_false_iff_ne]
  intro same
  rw [same] at member
  exact outside member

/-- Text of ASCII characters is encoded without a refusal. -/
theorem asciiRefusal_of_ascii {text : List Char}
    (ascii : ∀ character ∈ text, Text.isAscii character = true) :
    Text.asciiRefusal text = none := by
  have rest : text.dropWhile Text.isAscii = [] :=
    List.dropWhile_eq_nil_iff.mpr ascii
  simp [Text.asciiRefusal, rest]

/-- Text over the alphabet spells a number. -/
theorem readFrom_of_alphabet {text : List Char}
    (listed : ∀ character ∈ text, character ∈ Base58.alphabet) (start : Nat) :
    ∃ found, Base58.readFrom start text = some found := by
  induction text generalizing start with
  | nil => exact ⟨start, rfl⟩
  | cons character text induction =>
      have first := alphabet_value (listed character List.mem_cons_self)
      obtain ⟨value, known⟩ := Option.isSome_iff_exists.mp first
      obtain ⟨found, read⟩ := induction
        (fun other member => listed other (List.mem_cons_of_mem _ member))
        (start * 58 + value)
      refine ⟨found, ?_⟩
      simp only [Base58.readFrom, known]
      exact read

/-- Text over the alphabet decodes, and to what is written so. -/
theorem b58encode_b58decode {text : String}
    (listed : ∀ character ∈ text.toList, character ∈ Base58.alphabet) :
    ∃ data, b58decode text = .ok data ∧ b58encode data = text := by
  obtain ⟨found, read⟩ := readFrom_of_alphabet listed 0
  have decoded : ∃ data, Base58.decode text.toList = some data := by
    rw [Base58.decode, read]
    exact ⟨_, rfl⟩
  obtain ⟨data, decoded⟩ := decoded
  have written : b58encode data = text := by
    rw [b58encode, Base58.encode_decode decoded, String.ofList_toList]
  have back := b58decode_b58encode data
  rw [written] at back
  exact ⟨data, back, written⟩

/-- ASCII text with a character outside the alphabet is refused. -/
theorem b58decode_refuses {text : String}
    (ascii : ∀ character ∈ text.toList, Text.isAscii character = true)
    {character : Char} (member : character ∈ text.toList)
    (outside : character ∉ Base58.alphabet) :
    ∃ raised, b58decode text = .error raised ∧ raised.kind = .valueError := by
  have nonempty : text ≠ "" := by
    intro empty
    rw [empty] at member
    cases member
  cases found : text.toList.find? fun character =>
      (Base58.value? character).isNone with
  | none =>
      have known := List.find?_eq_none.mp found character member
      rw [value?_of_not_mem outside] at known
      exact absurd rfl known
  | some first =>
      have refused : b58decode text = .error (.valueError
          s!"Invalid base58 character: {first.toNat}") := by
        rw [b58decode, if_neg nonempty, asciiRefusal_of_ascii ascii]
        simp only [found]
      exact ⟨_, refused, rfl⟩

theorem multibase_z_encode_injective {left right : Bytes}
    (same : multibase_z_encode left = multibase_z_encode right) :
    left = right := by
  have back := multibase_z_decode_encode left
  rw [same, multibase_z_decode_encode] at back
  exact (Except.ok.inj back).symm

/-- Thirty-two bytes have an identifier. -/
theorem did_key_returns {public_key_bytes : Bytes}
    (length : public_key_bytes.length = 32) :
    ∃ did, ed25519_public_key_to_did_key public_key_bytes = .ok did := by
  rw [ed25519_public_key_to_did_key, if_neg (not_not.mpr length)]
  exact ⟨_, rfl⟩

/-- An identifier tells its public key. -/
theorem did_key_injective {left right : Bytes} {did : String}
    (first : ed25519_public_key_to_did_key left = .ok did)
    (second : ed25519_public_key_to_did_key right = .ok did) :
    left = right := by
  obtain ⟨_, named⟩ := did_key_ok first
  obtain ⟨_, renamed⟩ := did_key_ok second
  rw [named] at renamed
  have texts := congrArg String.toList renamed
  rw [String.toList_append, String.toList_append] at texts
  have same := String.toList_injective (List.append_cancel_left texts)
  exact List.append_cancel_left (multibase_z_encode_injective same)

/-- What writing and reading owe each other. -/
structure MultibaseLaws : Prop where
  decode_encode : ∀ data, b58decode (b58encode data) = .ok data
  encode_decode : ∀ text : String,
    (∀ character ∈ text.toList, character ∈ Base58.alphabet) →
      ∃ data, b58decode text = .ok data ∧ b58encode data = text
  multibase : ∀ data, multibase_z_decode (multibase_z_encode data) = .ok data
  refuses : ∀ text : String,
    (∀ character ∈ text.toList, Text.isAscii character = true) →
      (∃ character ∈ text.toList, character ∉ Base58.alphabet) →
        ∃ raised, b58decode text = .error raised ∧ raised.kind = .valueError
  keys : ∀ left right : Bytes, left.length = 32 → right.length = 32 →
    left ≠ right → ∃ did other, ed25519_public_key_to_did_key left = .ok did ∧
      ed25519_public_key_to_did_key right = .ok other ∧ did ≠ other

theorem multibase_bijective : MultibaseLaws := by
  constructor
  · exact b58decode_b58encode
  · intro text listed
    exact b58encode_b58decode listed
  · exact multibase_z_decode_encode
  · intro text ascii outside
    obtain ⟨character, member, outside⟩ := outside
    exact b58decode_refuses ascii member outside
  · intro left right first second apart
    obtain ⟨did, named⟩ := did_key_returns first
    obtain ⟨other, renamed⟩ := did_key_returns second
    refine ⟨did, other, named, renamed, ?_⟩
    intro same
    rw [← same] at renamed
    exact apart (did_key_injective named renamed)

end Cats
