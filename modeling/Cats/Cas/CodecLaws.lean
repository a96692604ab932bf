import Cats.Cas.ContentId
import Cats.Cas.Hashlink

/-!
# The laws of the content-id codecs

Hex, `ni:` and `hl:` spell the same thirty-two bytes.  Every store file name,
index key and comparison of ids rests on the laws below.
-/

namespace Cats

section Spellings

/-- What `from_ni` reads is an `ni:` id or a digest. -/
theorem is_ni_or_digest_of_from_ni {value : String} {digest : Digest}
    (read : from_ni value = .ok digest) : is_ni_or_digest value = true := by
  unfold from_ni at read
  dsimp only at read
  unfold is_ni_or_digest
  dsimp only
  split_ifs at read with hex
  · rw [hex]
    rfl
  · cases payload : niPayload? (Text.strip value) with
    | none =>
        rw [payload] at read
        cases read
    | some symbols => rw [Option.isSome_some, Bool.or_true]

/-- The equality id of a digest in any spelling is its canonical `ni:`. -/
theorem equality_id_of_from_ni {value : String} {digest : Digest}
    (read : from_ni value = .ok digest) :
    equality_id value = .ok (to_ni digest) := by
  have named := is_ni_or_digest_of_from_ni (from_ni_strip.mpr read)
  unfold equality_id
  dsimp only
  rw [if_pos named, from_ni_strip.mpr read]
  rfl

/-- The equality id of a spelling is the canonical text of its id. -/
theorem equality_id_of_spells {value : String} {id : ContentId}
    (spells : ContentId.Spells value id) : equality_id value = .ok id.text := by
  have parsed := spells "content_id"
  unfold ContentId.parse at parsed
  dsimp only at parsed
  unfold equality_id
  dsimp only
  split_ifs at parsed with empty named legal
  · rw [if_pos named]
    cases read : from_ni (Text.strip value) with
    | error raised =>
        rw [read] at parsed
        cases parsed
    | ok digest =>
        rw [read] at parsed
        cases parsed
        rfl
  · rw [if_neg named]
    cases parsed
    rfl

/-- A text with a file-system key spells an id, whose key it is. -/
theorem spells_of_fs_key {value label key : String}
    (keyed : content_id_fs_key value label = .ok key) :
    ∃ id, ContentId.Spells value id ∧ id.key = key := by
  rw [ContentId.content_id_fs_key_eq] at keyed
  cases parsed : ContentId.parse value label with
  | error raised =>
      rw [parsed] at keyed
      cases keyed
  | ok id =>
      rw [parsed] at keyed
      exact ⟨id, ContentId.spells_of_parse parsed, Except.ok.inj keyed⟩

theorem isAlphanum_of_hex {character : Char}
    (hex : Hex.isDigit character = true) : character.isAlphanum = true := by
  have table : Hex.digits.all Char.isAlphanum = true := by decide
  exact List.all_eq_true.mp table character (by simpa [Hex.isDigit] using hex)

/-- A key has letters and digits only, and at least one. -/
theorem ContentId.key_plain (id : ContentId) :
    id.key ≠ "" ∧ ∀ character ∈ id.key.toList, character.isAlphanum = true := by
  cases id with
  | named digest =>
      constructor
      · intro empty
        have length := digest.length
        rw [show digest.hex = "" from empty] at length
        cases length
      · intro character member
        exact isAlphanum_of_hex (digest.isDigit character member)
  | segment value legal _ =>
      unfold isCidSegment at legal
      obtain ⟨nonempty, letters⟩ := Bool.and_eq_true_iff.mp legal
      constructor
      · exact of_decide_eq_true nonempty
      · exact List.all_eq_true.mp letters

end Spellings

section Hashlinks

/-- A hashlink without a hint reads back. -/
theorem from_hl_bare (digest : Digest) :
    from_hl ("hl:" ++ String.ofList (Base64Url.encode digest.bytes)) =
      .ok (to_ni digest, []) := by
  have text : ("hl:" ++ String.ofList
      (Base64Url.encode digest.bytes)).toList =
        "hl:".toList ++ Base64Url.encode digest.bytes := by
    rw [String.toList_append]
    exact congrArg ("hl:".toList ++ ·) String.toList_ofList
  have symbols := Base64Url.encode_isSymbol digest.bytes
  have stripped : Text.strip ("hl:" ++ String.ofList
      (Base64Url.encode digest.bytes)) =
        "hl:" ++ String.ofList (Base64Url.encode digest.bytes) := by
    apply Text.strip_eq_self
    intro character member
    rw [text] at member
    rcases List.mem_append.mp member with scheme | payload
    · have table : "hl:".toList.all (fun candidate =>
          !Text.isSpace candidate) = true := by
        decide
      simpa using List.all_eq_true.mp table character scheme
    · exact isSpace_of_symbol (symbols character payload)
  have starts : Text.startsWith ("hl:" ++ String.ofList
      (Base64Url.encode digest.bytes)) "hl:" = true := by
    rw [Text.startsWith_iff, text]
    exact List.prefix_append _ _
  have body : ("hl:" ++ String.ofList
      (Base64Url.encode digest.bytes)).toList.drop 3 =
        Base64Url.encode digest.bytes := by
    rw [text]
    rfl
  have taken : (Base64Url.encode digest.bytes).takeWhile Base64Url.isSymbol =
      Base64Url.encode digest.bytes := List.takeWhile_eq_self_iff.mpr symbols
  have rest : (Base64Url.encode digest.bytes).dropWhile Base64Url.isSymbol =
      [] := List.dropWhile_eq_nil_iff.mpr symbols
  have parts : hlParts? ("hl:" ++ String.ofList
      (Base64Url.encode digest.bytes)) =
        some (Base64Url.encode digest.bytes, none) := by
    unfold hlParts?
    rw [if_pos starts]
    simp only [body, taken, encode_bytes_ne_nil digest, if_false, rest]
  unfold from_hl
  rw [stripped, parts]
  simp [decodePayload, Base64Url.decode_encode, digest.length_bytes, Except.map]

/-- A hashlink reads back as the equality id and the stripped hint. -/
theorem from_hl_to_hl {value uri : String} {digest : Digest}
    (read : from_ni value = .ok digest) (oneLine : '\n' ∉ uri.toList) :
    ∃ link, to_hl value [uri] = .ok link ∧
      from_hl link = .ok (to_ni digest,
        if Text.strip uri = "" then [] else [Text.strip uri]) := by
  have named := is_ni_or_digest_of_from_ni read
  unfold to_hl
  simp only [named, if_true, read, bind, Except.bind, List.map_cons,
    List.map_nil]
  by_cases blank : Text.strip uri = ""
  · refine ⟨"hl:" ++ String.ofList (Base64Url.encode digest.bytes), ?_, ?_⟩
    · simp [blank]
    · rw [if_pos blank]
      exact from_hl_bare digest
  · refine ⟨hashlinkWith digest (Text.strip uri), ?_, ?_⟩
    · simp [blank, hashlinkWith, String.append_assoc]
    · rw [if_neg blank]
      have last : ∀ character ∈ (Text.strip uri).toList.getLast?,
          Text.isSpace character = false := by
        rw [Text.toList_strip]
        exact Text.stripChars_last uri.toList
      have within : '\n' ∉ (Text.strip uri).toList :=
        fun member => oneLine (Text.mem_of_mem_strip member)
      exact (from_hl_hashlinkWith digest blank within last).2.2

end Hashlinks

/-- What the codecs owe each other. -/
structure CodecLaws : Prop where
  /-- The `ni:` of thirty-two bytes reads back as their hex. -/
  bytes : ∀ data : Bytes, data.length = 32 → ∃ digest,
    validate_digest_segment (String.ofList (Hex.encode data)) = .ok digest ∧
      from_ni (to_ni digest) = .ok digest ∧
      digest.hex = String.ofList (Hex.encode data)
  injective : ∀ left right : Digest, to_ni left = to_ni right → left = right
  /-- An equality id is canonical, and its own equality id. -/
  canonical : ∀ (value : String) (digest : Digest),
    from_ni value = .ok digest →
      equality_id value = .ok (to_ni digest) ∧
        equality_id (to_ni digest) = .ok (to_ni digest)
  keys : ∀ (left right label other key name : String),
    content_id_fs_key left label = .ok key →
      content_id_fs_key right other = .ok name →
        (equality_id left = equality_id right ↔ key = name)
  plain : ∀ value label key : String, content_id_fs_key value label = .ok key →
    key ≠ "" ∧ ∀ character ∈ key.toList, character.isAlphanum = true
  hashlinks : ∀ (value uri : String) (digest : Digest),
    from_ni value = .ok digest → '\n' ∉ uri.toList → ∃ link,
      to_hl value [uri] = .ok link ∧
        from_hl link = .ok (to_ni digest,
          if Text.strip uri = "" then [] else [Text.strip uri])

theorem content_id_codec_laws : CodecLaws := by
  constructor
  · intro data length
    refine ⟨digestOf data length, ?_, from_ni_to_ni _, rfl⟩
    exact validate_digest_segment_hex (digestOf data length) _
  · intro left right same
    exact to_ni_injective same
  · intro value digest read
    exact ⟨equality_id_of_from_ni read, equality_id_to_ni digest⟩
  · intro left right label other key name keyed named
    obtain ⟨id, spells, same⟩ := spells_of_fs_key keyed
    obtain ⟨also, spelled, equal⟩ := spells_of_fs_key named
    rw [equality_id_of_spells spells, equality_id_of_spells spelled, ← same,
      ← equal, Except.ok.injEq]
    constructor
    · intro texts
      rw [ContentId.text_injective texts]
    · intro keys
      rw [ContentId.key_injective keys]
  · intro value label key keyed
    obtain ⟨id, _, same⟩ := spells_of_fs_key keyed
    rw [← same]
    exact id.key_plain
  · intro value uri digest read oneLine
    exact from_hl_to_hl read oneLine

end Cats
