import Cats.Codec.Base64Url
import Cats.Codec.Sha256
import Cats.Raised

/-!
# Digest and `ni:` identity

A digest is sixty-four lowercase hexadecimal characters; the type carries that
fact, so every value that passed `validate_digest_segment` or `from_ni` can
name a file.  An `ni:` id is the base64url spelling of the same thirty-two
bytes.
-/

namespace Cats

/-- `_HEX_SHA256.match`. -/
def isHexSha256 (text : String) : Bool :=
  text.toList.length = 64 && text.toList.all Hex.isDigit

structure Digest where
  hex : String
  valid : isHexSha256 hex = true
  deriving DecidableEq

namespace Digest

theorem ext_hex {left right : Digest} (same : left.hex = right.hex) :
    left = right := by
  obtain ⟨leftHex, leftValid⟩ := left
  obtain ⟨rightHex, rightValid⟩ := right
  cases same
  rfl

theorem length (digest : Digest) : digest.hex.toList.length = 64 := by
  have valid := digest.valid
  simp only [isHexSha256, Bool.and_eq_true, decide_eq_true_eq] at valid
  exact valid.1

theorem isDigit (digest : Digest) :
    ∀ character ∈ digest.hex.toList, Hex.isDigit character = true := by
  have valid := digest.valid
  simp only [isHexSha256, Bool.and_eq_true, List.all_eq_true] at valid
  exact valid.2

theorem isSpace_of_hex {character : Char}
    (hex : Hex.isDigit character = true) : Text.isSpace character = false := by
  have table : Hex.digits.all (fun candidate => !Text.isSpace candidate) =
      true := by decide
  have entry := List.all_eq_true.mp table character
    (by simpa [Hex.isDigit] using hex)
  simpa using entry

@[simp] theorem strip_hex (digest : Digest) :
    Text.strip digest.hex = digest.hex :=
  Text.strip_eq_self fun character member =>
    isSpace_of_hex (digest.isDigit character member)

@[simp] theorem lower_hex (digest : Digest) :
    Text.lower digest.hex = digest.hex := by
  apply String.toList_injective
  rw [Text.toList_lower]
  refine (List.map_congr_left ?_).trans (List.map_id _)
  intro character member
  exact Hex.toLower_of_isDigit (digest.isDigit character member)

end Digest

theorem isHexSha256_encode {bytes : Bytes} (length : bytes.length = 32) :
    isHexSha256 (String.ofList (Hex.encode bytes)) = true := by
  simp only [isHexSha256, String.toList_ofList, Hex.length_encode, length,
    Bool.and_eq_true, decide_eq_true_eq, List.all_eq_true]
  exact ⟨trivial, Hex.encode_isDigit bytes⟩

/-- The digest spelled by thirty-two bytes. -/
def digestOf (bytes : Bytes) (length : bytes.length = 32) : Digest :=
  { hex := String.ofList (Hex.encode bytes)
    valid := isHexSha256_encode length }

/-- `sha256_hex(data)`. -/
def sha256_hex (data : Bytes) : Digest :=
  digestOf (sha256 data) (length_sha256 data)

/-- `validate_digest_segment(hex_digest, label=label)`. -/
def validate_digest_segment (hex_digest : String) (label : String := "digest") :
    Except Raised Digest :=
  let value := Text.lower (Text.strip hex_digest)
  if valid : isHexSha256 value = true then .ok ⟨value, valid⟩
  else .error (.valueError
    s!"invalid {label} path segment: {Text.repr hex_digest}")

/-- The thirty-two bytes a digest spells. -/
def Digest.bytes (digest : Digest) : Bytes :=
  (Hex.decode digest.hex.toList).getD []

/-- `to_ni(hex_digest)`; its argument is a validated digest at every call. -/
def to_ni (digest : Digest) : String :=
  "ni:///sha-256;" ++ String.ofList (Base64Url.encode digest.bytes)

/-- The base64url part of an `ni:` id, by `_NI_SHA256`. -/
def niPayload? (value : String) : Option (List Char) :=
  if Text.startsWith value "ni:///sha-256;" then
    let payload := value.toList.drop 14
    if payload ≠ [] && payload.all Base64Url.isSymbol then some payload
    else none
  else none

/-- The digest of a base64url payload of thirty-two bytes; `what` names the
kind of id in the error text. -/
def decodePayload (what : String) (payload : List Char) :
    Except Raised Digest :=
  match Base64Url.decode payload with
  | none => .error (.valueError
      (s!"Invalid base64-encoded string: number of data characters " ++
        s!"({payload.length}) cannot be 1 more than a multiple of 4"))
  | some raw =>
      if length : raw.length = 32 then .ok (digestOf raw length)
      else .error (.valueError
        s!"{what}: sha-256 payload must be 32 bytes, got {raw.length}")

/-- `from_ni(ni)`. -/
def from_ni (ni : String) : Except Raised Digest :=
  let value := Text.strip ni
  if valid : isHexSha256 (Text.lower value) = true then
    .ok ⟨Text.lower value, valid⟩
  else
    match niPayload? value with
    | none => .error (.valueError
        s!"not a sha-256 ni: URI or hex digest: {Text.repr ni}")
    | some payload => decodePayload "ni" payload

/-- `is_ni_or_digest(content_id)`. -/
def is_ni_or_digest (content_id : String) : Bool :=
  let value := Text.strip content_id
  isHexSha256 (Text.lower value) || (niPayload? value).isSome

/-- `_CID_SEGMENT.match`. -/
def isCidSegment (value : String) : Bool :=
  value ≠ "" && value.toList.all Char.isAlphanum

/-- `content_id_fs_key(content_id, label=label)`. -/
def content_id_fs_key (content_id : String) (label : String := "content_id") :
    Except Raised String :=
  let value := Text.strip content_id
  if value = "" then
    .error (.valueError
      s!"invalid {label} path segment: {Text.repr content_id}")
  else if is_ni_or_digest value then (from_ni value).map Digest.hex
  else if isCidSegment value then .ok value
  else .error (.valueError
    s!"invalid {label} path segment: {Text.repr content_id}")

/-- `equality_id(content_id)`. -/
def equality_id (content_id : String) : Except Raised String :=
  let value := Text.strip content_id
  if is_ni_or_digest value then (from_ni value).map to_ni else .ok value

theorem Digest.length_bytes (digest : Digest) : digest.bytes.length = 32 := by
  obtain ⟨bytes, decoded, length⟩ := Hex.decode_isSome 32 digest.hex.toList
    digest.length digest.isDigit
  simp [Digest.bytes, decoded, length]

/-- A digest is the spelling of its bytes. -/
theorem Digest.encode_bytes (digest : Digest) :
    Hex.encode digest.bytes = digest.hex.toList := by
  obtain ⟨bytes, decoded, _⟩ := Hex.decode_isSome 32 digest.hex.toList
    digest.length digest.isDigit
  simp only [Digest.bytes, decoded, Option.getD_some]
  exact Hex.encode_of_decode digest.isDigit decoded

@[simp] theorem digestOf_bytes (digest : Digest) :
    digestOf digest.bytes digest.length_bytes = digest := by
  apply Digest.ext_hex
  simp only [digestOf, digest.encode_bytes, String.ofList_toList]

@[simp] theorem validate_digest_segment_hex (digest : Digest)
    (label : String) :
    validate_digest_segment digest.hex label = .ok digest := by
  simp [validate_digest_segment, digest.valid]

@[simp] theorem from_ni_hex (digest : Digest) :
    from_ni digest.hex = .ok digest := by
  simp [from_ni, digest.valid]

theorem toList_to_ni (digest : Digest) :
    (to_ni digest).toList =
      "ni:///sha-256;".toList ++ Base64Url.encode digest.bytes := by
  simp [to_ni]

theorem isSpace_of_symbol {character : Char}
    (symbol : Base64Url.isSymbol character = true) :
    Text.isSpace character = false := by
  have table : Base64Url.alphabet.all (fun candidate =>
      !Text.isSpace candidate) = true := by decide +kernel
  have entry := List.all_eq_true.mp table character
    (by simpa [Base64Url.isSymbol] using symbol)
  simpa using entry

@[simp] theorem strip_to_ni (digest : Digest) :
    Text.strip (to_ni digest) = to_ni digest := by
  apply Text.strip_eq_self
  intro character member
  rw [toList_to_ni, List.mem_append] at member
  rcases member with scheme | payload
  · have table : "ni:///sha-256;".toList.all (fun candidate =>
        !Text.isSpace candidate) = true := by decide +kernel
    simpa using List.all_eq_true.mp table character scheme
  · exact isSpace_of_symbol (Base64Url.encode_isSymbol _ character payload)

theorem isHexSha256_lower_to_ni (digest : Digest) :
    isHexSha256 (Text.lower (to_ni digest)) = false := by
  have scheme : ("ni:///sha-256;".toList.map Char.toLower).all Hex.isDigit =
      false := by decide
  simp only [isHexSha256, Text.toList_lower, toList_to_ni, List.map_append,
    List.all_append, scheme, Bool.false_and, Bool.and_false]

theorem encode_bytes_ne_nil (digest : Digest) :
    Base64Url.encode digest.bytes ≠ [] := by
  apply Base64Url.encode_ne_nil
  intro empty
  have length := digest.length_bytes
  rw [empty] at length
  cases length

theorem to_ni_ne_empty (digest : Digest) : to_ni digest ≠ "" := by
  intro empty
  have text := congrArg String.toList empty
  simp [toList_to_ni] at text

@[simp] theorem niPayload?_to_ni (digest : Digest) :
    niPayload? (to_ni digest) = some (Base64Url.encode digest.bytes) := by
  have starts : Text.startsWith (to_ni digest) "ni:///sha-256;" = true := by
    simp [Text.startsWith, toList_to_ni]
  have payload : (to_ni digest).toList.drop 14 =
      Base64Url.encode digest.bytes := by
    rw [toList_to_ni]
    exact List.drop_left' (by decide)
  have symbols : (Base64Url.encode digest.bytes).all Base64Url.isSymbol =
      true := by
    rw [List.all_eq_true]
    exact Base64Url.encode_isSymbol _
  simp [niPayload?, starts, payload, encode_bytes_ne_nil, symbols]

/-- Reading an `ni:` id gives back the digest it was made from. -/
@[simp] theorem from_ni_to_ni (digest : Digest) :
    from_ni (to_ni digest) = .ok digest := by
  simp [from_ni, isHexSha256_lower_to_ni, decodePayload,
    Base64Url.decode_encode, digest.length_bytes]

theorem to_ni_injective {left right : Digest} (same : to_ni left = to_ni right) :
    left = right := by
  have decoded := congrArg from_ni same
  simpa using decoded

theorem is_ni_or_digest_strip (value : String) :
    is_ni_or_digest (Text.strip value) = is_ni_or_digest value := by
  simp [is_ni_or_digest]

@[simp] theorem is_ni_or_digest_to_ni (digest : Digest) :
    is_ni_or_digest (to_ni digest) = true := by
  simp [is_ni_or_digest]

@[simp] theorem is_ni_or_digest_hex (digest : Digest) :
    is_ni_or_digest digest.hex = true := by
  simp [is_ni_or_digest, digest.valid]

@[simp] theorem content_id_fs_key_to_ni (digest : Digest) (label : String) :
    content_id_fs_key (to_ni digest) label = .ok digest.hex := by
  simp [content_id_fs_key, to_ni_ne_empty, Except.map]

@[simp] theorem equality_id_to_ni (digest : Digest) :
    equality_id (to_ni digest) = .ok (to_ni digest) := by
  simp [equality_id, Except.map]

theorem isSpace_of_alphanum {character : Char}
    (alphanum : character.isAlphanum = true) :
    Text.isSpace character = false := by
  have range : 48 ≤ character.toNat ∧ character.toNat ≤ 57 ∨
      65 ≤ character.toNat ∧ character.toNat ≤ 90 ∨
      97 ≤ character.toNat ∧ character.toNat ≤ 122 := by
    delta Char.isAlphanum Char.isAlpha Char.isUpper Char.isLower Char.isDigit
      at alphanum
    simp only [Bool.or_eq_true, Bool.and_eq_true, decide_eq_true_eq]
      at alphanum
    rcases alphanum with (upper | lower) | digit
    · exact .inr (.inl ⟨upper.1, upper.2⟩)
    · exact .inr (.inr ⟨lower.1, lower.2⟩)
    · exact .inl ⟨digit.1, digit.2⟩
  rw [Bool.eq_false_iff]
  intro space
  simp only [Text.isSpace, Text.spaces, List.contains_eq_mem, List.mem_cons,
    List.not_mem_nil, or_false, decide_eq_true_eq] at space
  omega

/-- A path key of letters and digits always has a file-system key. -/
theorem content_id_fs_key_segment {key : String} (segment : isCidSegment key = true)
    (label : String) : ∃ found, content_id_fs_key key label = .ok found := by
  have segment' := segment
  simp only [isCidSegment, Bool.and_eq_true, decide_eq_true_eq,
    List.all_eq_true] at segment
  obtain ⟨nonempty, letters⟩ := segment
  have stripped : Text.strip key = key :=
    Text.strip_eq_self fun character member =>
      isSpace_of_alphanum (letters character member)
  have noScheme : niPayload? key = none := by
    have absent : Text.startsWith key "ni:///sha-256;" = false := by
      rw [Bool.eq_false_iff, ne_eq, Text.startsWith_iff]
      intro starts
      have colon := letters ':' (starts.subset (by decide))
      revert colon
      decide
    simp [niPayload?, absent]
  by_cases hex : isHexSha256 (Text.lower key) = true
  · exact ⟨Text.lower key, by
      simp [content_id_fs_key, stripped, nonempty, is_ni_or_digest, from_ni,
        hex, Except.map]⟩
  · exact ⟨key, by
      simp [content_id_fs_key, stripped, nonempty, is_ni_or_digest, noScheme,
        hex, segment']⟩

end Cats
