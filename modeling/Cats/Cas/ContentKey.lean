import Cats.Cas.ContentRef

/-!
# The key of a content path

The key an LDP path ends in is a word of letters, digits, underscores and
dashes: it stands alone, has no scheme, and is a digest only as hexadecimal
text.
-/

namespace Cats

variable {path key : String}

theorem keyChars_of_ldpContentKey? (matched : ldpContentKey? path = some key) :
    key ≠ "" ∧ ∀ character ∈ key.toList, character.isAlphanum = true ∨
      character = '_' ∨ character = '-' := by
  have shape : ∀ {found : Option String},
      found.filter (fun key => key ≠ "" && key.toList.all fun character =>
        character.isAlphanum || character = '_' || character = '-') =
          some key →
      key ≠ "" ∧ ∀ character ∈ key.toList, character.isAlphanum = true ∨
        character = '_' ∨ character = '-' := by
    intro found kept
    have fits := (Option.filter_eq_some_iff.mp kept).2
    simpa [or_assoc] using fits
  simp only [ldpContentKey?, Option.orElse_eq_orElse, Option.orElse_eq_or,
    Option.or_eq_some_iff] at matched
  rcases matched with first | ⟨_, second | ⟨_, third | ⟨_, fourth⟩⟩⟩
  · exact shape first
  · exact shape second
  · exact shape third
  · exact shape fourth

theorem colonless_of_ldpContentKey? (matched : ldpContentKey? path = some key) :
    ':' ∉ key.toList := by
  intro member
  rcases (keyChars_of_ldpContentKey? matched).2 ':' member with
    alphanum | same | same
  · exact absurd alphanum (by decide)
  · exact absurd same (by decide)
  · exact absurd same (by decide)

theorem strip_of_ldpContentKey? (matched : ldpContentKey? path = some key) :
    Text.strip key = key := by
  apply Text.strip_eq_self
  intro character member
  rcases (keyChars_of_ldpContentKey? matched).2 character member with
    alphanum | rfl | rfl
  · exact isSpace_of_alphanum alphanum
  · decide
  · decide

/-- Text without a colon is no `ni:` id. -/
theorem niPayload?_of_colonless {text : String} (colonless : ':' ∉ text.toList) :
    niPayload? text = none := by
  have absent : Text.startsWith text "ni:///sha-256;" = false := by
    rw [Bool.eq_false_iff, ne_eq, Text.startsWith_iff]
    exact fun starts => colonless (starts.subset (by decide))
  simp [niPayload?, absent]

/-- A key that is no digest segment names no digest. -/
theorem notDigest_of_ldpContentKey? (matched : ldpContentKey? path = some key)
    (other : digestSegment? (Text.lower key) = none) :
    is_ni_or_digest key = false := by
  have unhex : isHexSha256 (Text.lower key) = false := by
    rw [Bool.eq_false_iff]
    intro hex
    have read : digestSegment? (Text.lower key) = some ⟨_, hex⟩ := by
      unfold digestSegment?
      rw [show validate_digest_segment (Text.lower key) = .ok ⟨_, hex⟩ from
        validate_digest_segment_hex ⟨_, hex⟩ "digest"]
    rw [read] at other
    exact nomatch other
  have unschemed := niPayload?_of_colonless
    (colonless_of_ldpContentKey? matched)
  simp [is_ni_or_digest, strip_of_ldpContentKey? matched, unhex, unschemed]

end Cats
