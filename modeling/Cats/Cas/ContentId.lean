import Cats.Cas.Digest

/-!
# Content ids up to spelling

An id names a sha-256 digest, spelled `ni:` or in hex of any case, or a legacy
CID segment that is no digest.  Stores file content under the id's key and
answer with its canonical text.
-/

namespace Cats

inductive ContentId where
  | named (digest : Digest)
  | segment (value : String) (legal : isCidSegment value = true)
      (bare : is_ni_or_digest value = false)
  deriving DecidableEq

namespace ContentId

/-- The canonical spelling. -/
def text : ContentId → String
  | .named digest => to_ni digest
  | .segment value _ _ => value

/-- The stem of the files kept for the id. -/
def key : ContentId → String
  | .named digest => digest.hex
  | .segment value _ _ => value

/-- The id a text spells. -/
def parse (value : String) (label : String := "content_id") :
    Except Raised ContentId :=
  let stripped := Text.strip value
  if stripped = "" then
    .error (.valueError s!"invalid {label} path segment: {Text.repr value}")
  else if named : is_ni_or_digest stripped = true then
    (from_ni stripped).map .named
  else if legal : isCidSegment stripped = true then
    .ok (.segment stripped legal (by simpa using named))
  else
    .error (.valueError s!"invalid {label} path segment: {Text.repr value}")

/-- The text is one of the id's spellings. -/
def Spells (value : String) (id : ContentId) : Prop :=
  ∀ label, parse value label = .ok id

theorem content_id_fs_key_eq (value label : String) :
    content_id_fs_key value label = (parse value label).map key := by
  simp only [content_id_fs_key, parse]
  split_ifs with empty named legal
  · rfl
  · cases from_ni (Text.strip value) with
    | error raised => rfl
    | ok digest => rfl
  · rfl
  · rfl

theorem spells_of_parse {value label : String} {id : ContentId}
    (parsed : parse value label = .ok id) : Spells value id := by
  intro other
  simp only [parse] at parsed ⊢
  split_ifs at parsed ⊢ with empty named legal
  · exact parsed
  · exact parsed

theorem Spells.key {value : String} {id : ContentId} (spells : Spells value id)
    (label : String) : content_id_fs_key value label = .ok id.key := by
  rw [content_id_fs_key_eq, spells label]
  rfl

theorem Spells.unique {value : String} {id other : ContentId}
    (spells : Spells value id) (also : Spells value other) : id = other := by
  have same := (spells "content_id").symm.trans (also "content_id")
  exact Except.ok.inj same

theorem digest_hex_ne_segment (digest : Digest) {value : String}
    (bare : is_ni_or_digest value = false) : digest.hex ≠ value := by
  intro same
  rw [← same, is_ni_or_digest_hex] at bare
  cases bare

theorem key_injective {left right : ContentId} (same : left.key = right.key) :
    left = right := by
  cases left with
  | named left =>
      cases right with
      | named right =>
          have hexes : left.hex = right.hex := same
          rw [Digest.ext_hex hexes]
      | segment value legal bare =>
          exact absurd same (digest_hex_ne_segment left bare)
  | segment value legal bare =>
      cases right with
      | named right => exact absurd same.symm (digest_hex_ne_segment right bare)
      | segment other _ _ =>
          have values : value = other := same
          subst values
          rfl

theorem strip_segment {value : String} (legal : isCidSegment value = true) :
    Text.strip value = value := by
  simp only [isCidSegment, Bool.and_eq_true, List.all_eq_true] at legal
  exact Text.strip_eq_self fun character member =>
    isSpace_of_alphanum (legal.2 character member)

theorem segment_ne_empty {value : String} (legal : isCidSegment value = true) :
    value ≠ "" := by
  simp only [isCidSegment, Bool.and_eq_true, decide_eq_true_eq] at legal
  exact legal.1

/-- An id is spelled by its canonical text. -/
theorem spells_text (id : ContentId) : Spells id.text id := by
  intro label
  cases id with
  | named digest =>
      simp [parse, text, to_ni_ne_empty, Except.map]
  | segment value legal bare =>
      simp [parse, text, strip_segment legal, segment_ne_empty legal, bare,
        legal]

theorem text_injective {left right : ContentId}
    (same : left.text = right.text) : left = right :=
  (spells_text left).unique (same ▸ spells_text right)

theorem text_ne_empty (id : ContentId) : id.text ≠ "" := by
  intro empty
  have parsed := spells_text id "content_id"
  rw [empty] at parsed
  have refused : Text.strip "" = "" := by decide
  simp [parse, refused] at parsed

@[simp] theorem strip_text (id : ContentId) : Text.strip id.text = id.text := by
  cases id with
  | named digest => exact strip_to_ni digest
  | segment value legal _ => exact strip_segment legal

end ContentId

/-- `_normalize_content_id(value, label=label)`. -/
def normalize_content_id (value label : String) : Except Raised String := do
  let _ ← content_id_fs_key value label
  if is_ni_or_digest value then (from_ni value).map to_ni
  else .ok (Text.strip value)

theorem from_ni_strip {value : String} {digest : Digest} :
    from_ni (Text.strip value) = .ok digest ↔ from_ni value = .ok digest := by
  unfold from_ni
  simp only [Text.strip_strip]
  split_ifs with hex
  · rfl
  · cases niPayload? (Text.strip value) with
    | none => simp
    | some symbols => rfl

/-- Normalising a text gives the canonical text of the id it spells. -/
theorem normalize_content_id_of_spells {value : String} {id : ContentId}
    (spells : ContentId.Spells value id) (label : String) :
    normalize_content_id value label = .ok id.text := by
  have parsed := spells label
  have keyed := spells.key label
  have strips := (is_ni_or_digest_strip value).symm
  simp only [normalize_content_id, keyed, bind, Except.bind]
  simp only [ContentId.parse] at parsed
  split_ifs at parsed with empty named legal
  · rw [strips, if_pos named]
    cases read : from_ni (Text.strip value) with
    | error raised => simp [read, Except.map] at parsed
    | ok digest =>
        simp only [read, Except.map, Except.ok.injEq] at parsed
        subst parsed
        rw [from_ni_strip.mp read]
        rfl
  · rw [strips, if_neg named]
    obtain rfl := Except.ok.inj parsed
    rfl

theorem normalize_content_id_error {value label : String} {raised : Raised}
    (refused : ContentId.parse value label = .error raised) :
    normalize_content_id value label = .error raised := by
  have keyed : content_id_fs_key value label = .error raised := by
    rw [ContentId.content_id_fs_key_eq, refused]
    rfl
  simp only [normalize_content_id, keyed, bind, Except.bind]

/-- Normalising a text reads the id it spells and writes it canonically. -/
theorem normalize_content_id_eq (value label : String) :
    normalize_content_id value label =
      (ContentId.parse value label).map ContentId.text := by
  cases parsed : ContentId.parse value label with
  | error raised => exact normalize_content_id_error parsed
  | ok id =>
      exact normalize_content_id_of_spells (ContentId.spells_of_parse parsed)
        label

end Cats
