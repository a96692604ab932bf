import Cats.Cas.Digest

/-!
# `hl:` hashlinks

A hashlink is a base64url digest with at most one URL hint.  Parsing goes
through the same payload check as an `ni:` id and yields that id.
-/

namespace Cats

/-- `is_hl(value)`. -/
def is_hl (value : String) : Bool :=
  Text.startsWith (Text.lower (Text.strip value)) "hl:"

/-- `to_hl(content_id, *uris)`. -/
def to_hl (content_id : String) (uris : List String) :
    Except Raised String :=
  if is_ni_or_digest content_id then do
    let digest ← from_ni content_id
    let b64 := String.ofList (Base64Url.encode digest.bytes)
    match (uris.map Text.strip).filter (· ≠ "") with
    | [] => .ok ("hl:" ++ b64)
    | hint :: _ => .ok ("hl:" ++ b64 ++ ":" ++ hint)
  else .error (.valueError
    s!"to_hl requires ni:/hex content id, got {Text.repr content_id}")

/-- The payload and the hint of a stripped value, by `_HL_SHA256`. -/
def hlParts? (value : String) : Option (List Char × Option (List Char)) :=
  if Text.startsWith value "hl:" then
    let body := value.toList.drop 3
    let payload := body.takeWhile Base64Url.isSymbol
    if payload = [] then none
    else
      match body.dropWhile Base64Url.isSymbol with
      | [] => some (payload, none)
      | ':' :: rest =>
          if rest = [] || rest.contains '\n' then none
          else some (payload, some rest)
      | _ => none
  else none

/-- `from_hl(hl)`: the `ni:` id and the hints. -/
def from_hl (hl : String) : Except Raised (String × List String) :=
  match hlParts? (Text.strip hl) with
  | none => .error (.valueError
      s!"not an hl: sha-256 hashlink: {Text.repr hl}")
  | some (payload, rest) =>
      (decodePayload "hl" payload).map fun digest =>
        (to_ni digest, (rest.map String.ofList).toList)

/-- A parsed hashlink names a digest. -/
theorem from_hl_digest {hl ni : String} {uris : List String}
    (parsed : from_hl hl = .ok (ni, uris)) : ∃ digest, ni = to_ni digest := by
  unfold from_hl at parsed
  cases parts : hlParts? (Text.strip hl) with
  | none => simp [parts] at parsed
  | some pair =>
      obtain ⟨payload, rest⟩ := pair
      cases decoded : decodePayload "hl" payload with
      | error raised => simp [parts, decoded, Except.map] at parsed
      | ok digest =>
          simp only [parts, decoded, Except.map, Except.ok.injEq,
            Prod.mk.injEq] at parsed
          exact ⟨digest, parsed.1.symm⟩

theorem from_ni_from_hl {hl ni : String} {uris : List String}
    (parsed : from_hl hl = .ok (ni, uris)) : ∃ digest,
      ni = to_ni digest ∧ from_ni ni = .ok digest := by
  obtain ⟨digest, rfl⟩ := from_hl_digest parsed
  exact ⟨digest, rfl, from_ni_to_ni digest⟩

/-- The hashlink of a digest with one hint. -/
def hashlinkWith (digest : Digest) (hint : String) : String :=
  "hl:" ++ (String.ofList (Base64Url.encode digest.bytes) ++ (":" ++ hint))

theorem toList_hashlinkWith (digest : Digest) (hint : String) :
    (hashlinkWith digest hint).toList = 'h' :: 'l' :: ':' ::
      (Base64Url.encode digest.bytes ++ ':' :: hint.toList) := by
  simp [hashlinkWith]

/-- A hashlink with a hint that neither ends in a space nor breaks a line
reads back. -/
theorem from_hl_hashlinkWith (digest : Digest) {hint : String}
    (nonempty : hint ≠ "") (oneLine : '\n' ∉ hint.toList)
    (last : ∀ character ∈ hint.toList.getLast?,
      Text.isSpace character = false) :
    Text.strip (hashlinkWith digest hint) = hashlinkWith digest hint ∧
      is_hl (hashlinkWith digest hint) = true ∧
      from_hl (hashlinkWith digest hint) = .ok (to_ni digest, [hint]) := by
  have text := toList_hashlinkWith digest hint
  have hintNonempty : hint.toList ≠ [] := by
    intro empty
    exact nonempty (String.toList_injective (by simpa using empty))
  have stripped : Text.strip (hashlinkWith digest hint) =
      hashlinkWith digest hint := by
    apply String.toList_injective
    rw [Text.toList_strip]
    apply Text.stripChars_eq_self
    · intro character member
      rw [text] at member
      have same : 'h' = character := by simpa using member
      subst same
      decide
    · intro character member
      apply last character
      rw [text] at member
      have shape : 'h' :: 'l' :: ':' ::
          (Base64Url.encode digest.bytes ++ ':' :: hint.toList) =
          ('h' :: 'l' :: ':' :: (Base64Url.encode digest.bytes ++ [':'])) ++
            hint.toList := by simp
      rwa [shape, List.getLast?_append_of_ne_nil _ hintNonempty] at member
  have symbols : ∀ character ∈ Base64Url.encode digest.bytes,
      Base64Url.isSymbol character = true :=
    Base64Url.encode_isSymbol digest.bytes
  have payloadNonempty := encode_bytes_ne_nil digest
  have colon : Base64Url.isSymbol ':' = false := by decide
  have taken : (Base64Url.encode digest.bytes ++ ':' :: hint.toList).takeWhile
      Base64Url.isSymbol = Base64Url.encode digest.bytes := by
    rw [List.takeWhile_append_of_pos symbols]
    simp [colon]
  have rest : (Base64Url.encode digest.bytes ++ ':' :: hint.toList).dropWhile
      Base64Url.isSymbol = ':' :: hint.toList := by
    rw [List.dropWhile_append_of_pos symbols]
    simp [colon]
  have starts : Text.startsWith (hashlinkWith digest hint) "hl:" = true := by
    rw [Text.startsWith_iff, text]
    exact ⟨_, rfl⟩
  refine ⟨stripped, ?_, ?_⟩
  · rw [is_hl, stripped, Text.startsWith_iff, Text.toList_lower, text]
    exact ⟨(Base64Url.encode digest.bytes ++ ':' :: hint.toList).map
      Char.toLower, rfl⟩
  · have parts : hlParts? (hashlinkWith digest hint) =
        some (Base64Url.encode digest.bytes, some hint.toList) := by
      simp only [hlParts?, starts, if_true, text, List.drop_succ_cons,
        List.drop_zero, taken, payloadNonempty, if_false, rest]
      simp [hintNonempty, oneLine]
    simp [from_hl, stripped, parts, decodePayload, Base64Url.decode_encode,
      digest.length_bytes, Except.map]

end Cats
