import Cats.Cas.CodecLaws
import Cats.Cas.LocatorRuns

/-!
# Malformed `ni:` ids

`is_ni_or_digest` looks at the symbols of a payload, `from_ni` also wants them to
be thirty-two bytes, which forty-three symbols are and no other number.  What
stands behind the guard therefore raises on the malformed ids, and on nothing
else but a locator `urlparse` refuses.
-/

namespace Cats

/-- The code returns. -/
def Returns {α : Type} (run : Except Raised α) : Prop :=
  ∃ result, run = .ok result

/-- An `ni:` id whose payload is not that of a digest. -/
def Malformed (text : String) : Prop :=
  ∃ payload, niPayload? (Text.strip text) = some payload ∧ payload.length ≠ 43

/-- A locator `urlparse` refuses. -/
def Unparsable (uri : String) : Prop :=
  ∃ raised, Url.path (Text.strip uri) = .error raised

theorem returns_ok {α : Type} (result : α) :
    Returns (.ok result : Except Raised α) := ⟨result, rfl⟩

theorem not_returns_error {α : Type} (raised : Raised) :
    ¬ Returns (.error raised : Except Raised α) := by
  intro returned
  obtain ⟨result, same⟩ := returned
  cases same

theorem returns_map {α β : Type} (run : Except Raised α) (next : α → β) :
    Returns (run.map next) ↔ Returns run := by
  cases run with
  | error raised =>
      constructor
      · intro returned
        exact absurd returned (not_returns_error raised)
      · intro returned
        exact absurd returned (not_returns_error raised)
  | ok result =>
      constructor
      · intro _
        exact returns_ok result
      · intro _
        exact returns_ok (next result)

theorem not_malformed_iff {text : String} : ¬ Malformed text ↔
    ∀ payload, niPayload? (Text.strip text) = some payload →
      payload.length = 43 := by
  constructor
  · intro fine payload found
    by_contra other
    exact fine ⟨payload, found, other⟩
  · intro sized malformed
    obtain ⟨payload, found, other⟩ := malformed
    exact other (sized payload found)

namespace Base64Url

/-- How many bytes six-bit values make. -/
theorem length_assemble (values : List Nat) :
    (assemble values).map List.length =
      if values.length % 4 = 1 then none else some (values.length * 3 / 4) := by
  induction values using assemble.induct with
  | case1 => rfl
  | case2 first => rfl
  | case3 first second => simp [assemble]
  | case4 first second third => simp [assemble]
  | case5 first second third fourth rest induction =>
      have more : (first :: second :: third :: fourth :: rest).length =
          rest.length + 4 := rfl
      have longer : (rest.length + 4) * 3 / 4 = rest.length * 3 / 4 + 3 := by
        omega
      have grown := congrArg (Option.map (· + 3)) induction
      rw [Option.map_map] at grown
      rw [assemble, Option.map_map, more, Nat.add_mod_right, longer]
      refine Eq.trans grown ?_
      split_ifs
      · rfl
      · rfl

theorem mapM_value? {text : List Char}
    (symbols : ∀ character ∈ text, isSymbol character = true) :
    ∃ values, text.mapM value? = some values ∧
      values.length = text.length := by
  induction text with
  | nil => exact ⟨[], rfl, rfl⟩
  | cons character text induction =>
      have first : ∃ value, value? character = some value := by
        apply Option.isSome_iff_exists.mp
        rw [value?, List.findIdx?_isSome, List.any_eq_true]
        exact ⟨character, List.contains_iff_mem.mp
          (symbols character List.mem_cons_self), by simp⟩
      obtain ⟨value, known⟩ := first
      obtain ⟨values, later, size⟩ := induction
        fun other member => symbols other (List.mem_cons_of_mem _ member)
      refine ⟨value :: values, ?_, ?_⟩
      · simp [List.mapM_cons, known, later]
      · simp [size]

/-- Forty-three symbols are thirty-two bytes. -/
theorem decode_thirtyTwo {text : List Char}
    (symbols : ∀ character ∈ text, isSymbol character = true) :
    (decode text).map List.length = some 32 ↔ text.length = 43 := by
  obtain ⟨values, read, size⟩ := mapM_value? symbols
  rw [decode, read, Option.bind_some, length_assemble, size]
  split_ifs with one
  · constructor
    · intro impossible
      cases impossible
    · intro whole
      rw [whole] at one
      cases one
  · rw [Option.some.injEq]
    omega

end Base64Url

theorem decodePayload_returns (what : String) {payload : List Char}
    (symbols : ∀ character ∈ payload, Base64Url.isSymbol character = true) :
    Returns (decodePayload what payload) ↔ payload.length = 43 := by
  rw [← Base64Url.decode_thirtyTwo symbols, decodePayload]
  cases decoded : Base64Url.decode payload with
  | none => simp [not_returns_error]
  | some raw =>
      by_cases size : raw.length = 32
      · simp [size, returns_ok]
      · simp [size, not_returns_error]

theorem symbols_of_niPayload? {value : String} {payload : List Char}
    (found : niPayload? value = some payload) :
    ∀ character ∈ payload, Base64Url.isSymbol character = true := by
  unfold niPayload? at found
  dsimp only at found
  split_ifs at found with starts fine
  cases found
  rw [Bool.and_eq_true, List.all_eq_true] at fine
  exact fine.2

/-- An `ni:` id is no hexadecimal text. -/
theorem notHex_of_niPayload? {value : String} {payload : List Char}
    (found : niPayload? value = some payload) :
    isHexSha256 (Text.lower value) = false := by
  unfold niPayload? at found
  dsimp only at found
  split_ifs at found with starts fine
  obtain ⟨tail, whole⟩ := Text.startsWith_iff.mp starts
  have scheme : ("ni:///sha-256;".toList.map Char.toLower).all Hex.isDigit =
      false := by decide
  simp only [isHexSha256, Text.toList_lower, ← whole, List.map_append,
    List.all_append, scheme, Bool.false_and, Bool.and_false]

/-- Behind the guard `from_ni` returns on the ids that are not malformed. -/
theorem from_ni_returns {text : String}
    (guarded : is_ni_or_digest text = true) :
    Returns (from_ni text) ↔ ¬ Malformed text := by
  rw [not_malformed_iff, from_ni]
  by_cases hex : isHexSha256 (Text.lower (Text.strip text)) = true
  · simp only [hex, dif_pos]
    constructor
    · intro _ payload found
      rw [notHex_of_niPayload? found] at hex
      cases hex
    · intro _
      exact returns_ok _
  · rw [is_ni_or_digest, Bool.or_eq_true] at guarded
    obtain ⟨payload, found⟩ :=
      Option.isSome_iff_exists.mp (guarded.resolve_left hex)
    simp only [hex, found, Option.some.injEq]
    rw [dif_neg (by simp), decodePayload_returns "ni"
      (symbols_of_niPayload? found)]
    constructor
    · intro size other same
      rw [← same]
      exact size
    · intro sized
      exact sized payload rfl

theorem malformed_guarded {text : String} (malformed : Malformed text) :
    is_ni_or_digest text = true := by
  obtain ⟨payload, found, _⟩ := malformed
  rw [is_ni_or_digest, found, Option.isSome_some, Bool.or_true]

theorem malformed_strip (text : String) :
    Malformed (Text.strip text) ↔ Malformed text := by
  rw [Malformed, Text.strip_strip]
  rfl

theorem equality_id_returns (text : String) :
    Returns (equality_id text) ↔ ¬ Malformed text := by
  rw [equality_id]
  by_cases guarded : is_ni_or_digest (Text.strip text) = true
  · rw [if_pos guarded, returns_map, from_ni_returns guarded, malformed_strip]
  · rw [if_neg guarded]
    constructor
    · intro _ malformed
      exact guarded (malformed_guarded ((malformed_strip text).mpr malformed))
    · intro _
      exact returns_ok _

theorem equalityOr_returns (text : String) :
    Returns (equalityOr text) ↔ ¬ Malformed text := by
  rw [equalityOr]
  by_cases guarded : is_ni_or_digest text = true
  · rw [if_pos guarded, equality_id_returns]
  · rw [if_neg guarded]
    constructor
    · intro _ malformed
      exact guarded (malformed_guarded malformed)
    · intro _
      exact returns_ok _

theorem content_id_fs_key_returns {text : String} (label : String)
    (guarded : is_ni_or_digest text = true) :
    Returns (content_id_fs_key text label) ↔ ¬ Malformed text := by
  have stripped := guarded
  rw [← is_ni_or_digest_strip] at stripped
  have visible : Text.strip text ≠ "" := by
    intro blank
    rw [blank] at stripped
    revert stripped
    decide
  have keyed : content_id_fs_key text label =
      (from_ni (Text.strip text)).map Digest.hex := by
    simp only [content_id_fs_key, visible, if_false, stripped, if_true]
  rw [keyed, returns_map, from_ni_returns stripped, malformed_strip]

/-- A guarded id begins with a hexadecimal digit or with its scheme. -/
theorem head_of_guarded {text : String} (guarded : is_ni_or_digest text = true) :
    ∃ character rest, (Text.lower (Text.strip text)).toList = character :: rest ∧
      (Hex.isDigit character = true ∨ character = 'n') := by
  rw [is_ni_or_digest, Bool.or_eq_true] at guarded
  rcases guarded with hex | payload
  · have valid := hex
    simp only [isHexSha256, Bool.and_eq_true, decide_eq_true_eq,
      List.all_eq_true] at valid
    cases shape : (Text.lower (Text.strip text)).toList with
    | nil => simp [shape] at valid
    | cons character rest =>
        exact ⟨character, rest, rfl, .inl (valid.2 character (by simp [shape]))⟩
  · have starts : Text.startsWith (Text.strip text) "ni:///sha-256;" =
        true := by
      by_contra absent
      simp [niPayload?, absent] at payload
    obtain ⟨tail, whole⟩ := Text.startsWith_iff.mp starts
    have shape : (Text.lower (Text.strip text)).toList =
        'n' :: ("i:///sha-256;".toList.map Char.toLower ++
          tail.map Char.toLower) := by
      rw [Text.toList_lower, ← whole, List.map_append]
      rfl
    exact ⟨'n', _, shape, .inr rfl⟩

/-- It is no URI and no hashlink. -/
theorem notUri_of_guarded {text : String}
    (guarded : is_ni_or_digest text = true) :
    is_http_uri text = false ∧ is_hl text = false := by
  obtain ⟨character, rest, shape, kind⟩ := head_of_guarded guarded
  have other : 'h' ≠ character := by
    intro same
    rw [← same] at kind
    revert kind
    decide
  have refused : ∀ (scheme : String) (tail : List Char),
      scheme.toList = 'h' :: tail →
        Text.startsWith (Text.lower (Text.strip text)) scheme = false := by
    intro scheme tail begins
    simp [Text.startsWith, shape, begins, List.isPrefixOf_cons_cons, other]
  constructor
  · rw [is_http_uri, refused "http://" _ rfl, refused "https://" _ rfl]
    rfl
  · exact refused "hl:" _ rfl

section Locators

/-- An index that some run of events leads to, where there is one. -/
def ReachedIndex (index : Option LocatorIndex) : Prop :=
  ∀ home, index = some home → ∃ events, IndexRun events home

theorem ReachedIndex.rows {home : LocatorIndex}
    (reached : ReachedIndex (some home)) : ∃ rows, home = .ofRows rows := by
  obtain ⟨events, run⟩ := reached home rfl
  obtain ⟨rows, same, _⟩ := run.records
  exact ⟨rows, same⟩

/-- The ids of rows are canonical. -/
theorem equalityOr_row (row : LocatorRow) :
    equalityOr row.content_id = .ok row.content_id := by
  rcases row.shape with ⟨digest, same, _⟩ | ⟨legacy, _, _⟩
  · simp [same, equalityOr]
  · simp [equalityOr, legacy]

theorem registeredId_returns {index : Option LocatorIndex}
    (reached : ReachedIndex index) (uri : String) :
    Returns (registeredId index uri) := by
  cases index with
  | none => exact returns_ok none
  | some home =>
      obtain ⟨rows, same⟩ := reached.rows
      subst same
      have found := LocatorTable.find_content_id_for_uri_ofRows rows uri
      simp only [registeredId, found, bind, Except.bind]
      split_ifs with blank
      · exact returns_ok none
      · cases rows.find? fun row =>
            decide (Text.strip uri ∈ row.locators.map Locator.uri) with
        | none => exact returns_ok none
        | some row =>
            simp only [Option.map_some]
            split_ifs
            · exact returns_ok none
            · rw [equalityOr_row]
              exact returns_ok _

/-- Hints are registered without a refusal. -/
theorem registerHints_returns (digest : Digest) (uris : List String)
    (rows : List LocatorRow) :
    Returns (registerHints (to_ni digest) uris (.ofRows rows)) := by
  induction uris generalizing rows with
  | nil => exact returns_ok _
  | cons uri uris induction =>
      rw [registerHints]
      split_ifs with http
      · have canonical : LocatorIndex.canonical_id (to_ni digest) =
            .ok (digestRow digest).content_id := by
          simp [LocatorIndex.canonical_id, Except.map, digestRow,
            LocatorTable.blank]
        rw [LocatorTable.put_ofRows rows (digestRow digest) rfl canonical]
        exact induction _
      · exact induction rows

end Locators

section Resolution

variable {index : Option LocatorIndex}

/-- `content_id_from_uri` raises on the locators `urlparse` refuses. -/
theorem content_id_from_uri_returns (reached : ReachedIndex index)
    (uri : String) : Returns (content_id_from_uri index uri) ↔
      ¬ (is_http_uri uri = true ∧ Unparsable uri) := by
  by_cases web : is_http_uri uri = true
  · have nonempty : uri ≠ "" := by
      intro empty
      rw [empty] at web
      revert web
      decide
    cases parsed : Url.path (Text.strip uri) with
    | error raised =>
        have refused : content_id_from_uri index uri = .error raised := by
          simp [content_id_from_uri, nonempty, web, parsed, bind, Except.bind]
        rw [refused]
        simp [not_returns_error, web, Unparsable, parsed]
    | ok path =>
        have fine : ¬ Unparsable uri := by
          intro unparsable
          obtain ⟨raised, refused⟩ := unparsable
          rw [parsed] at refused
          cases refused
        have reads : Returns (content_id_from_uri index uri) := by
          simp only [content_id_from_uri, nonempty, web, parsed, bind,
            Except.bind, decide_false, Bool.not_true, Bool.or_self,
            Bool.false_eq_true, if_false]
          split
          · split
            · exact returns_ok _
            · exact returns_ok _
          · exact registeredId_returns reached _
        simp [reads, fine]
  · have skipped : content_id_from_uri index uri = .ok none := by
      rw [content_id_from_uri, if_pos]
      simp [web]
    rw [skipped]
    simp [returns_ok, web]

/-- A hashlink whose payload is missing or is not that of a digest. -/
def MalformedHashlink (value : String) : Prop :=
  is_hl value = true ∧ ∀ payload hint,
    hlParts? (Text.strip value) = some (payload, hint) → payload.length ≠ 43

theorem symbols_of_hlParts? {value : String} {payload : List Char}
    {hint : Option (List Char)}
    (found : hlParts? value = some (payload, hint)) :
    ∀ character ∈ payload, Base64Url.isSymbol character = true := by
  have taken : payload =
      (value.toList.drop 3).takeWhile Base64Url.isSymbol := by
    unfold hlParts? at found
    dsimp only at found
    split_ifs at found
    split at found
    · cases found
      rfl
    · split_ifs at found
      cases found
      rfl
    · cases found
  intro character member
  rw [taken] at member
  exact List.mem_takeWhile_imp member

/-- `from_hl` raises on the malformed hashlinks. -/
theorem from_hl_returns {value : String} (linked : is_hl value = true) :
    Returns (from_hl value) ↔ ¬ MalformedHashlink value := by
  rw [from_hl, MalformedHashlink]
  cases parts : hlParts? (Text.strip value) with
  | none => simp [linked, not_returns_error]
  | some pair =>
      obtain ⟨payload, hint⟩ := pair
      simp only [returns_map,
        decodePayload_returns "hl" (symbols_of_hlParts? parts), linked]
      simp

/-- What `from_hl` raises is a `ValueError`. -/
theorem from_hl_valueError {value : String} {raised : Raised}
    (refused : from_hl value = .error raised) : raised.isValueError = true := by
  rw [from_hl] at refused
  cases parts : hlParts? (Text.strip value) with
  | none =>
      rw [parts] at refused
      cases refused
      rfl
  | some pair =>
      simp only [parts, decodePayload] at refused
      split at refused
      · cases refused
        rfl
      · split_ifs at refused with size
        · cases refused
        · cases refused
          rfl

end Resolution

end Cats
