import Cats.Cas.MalformedIds
import Cats.Registry.HonestBinds

/-!
# Reads of malformed refs

Reading a slot, a locator or an intake value raises on the ids that the guard
lets through and the decoder refuses, and on the locators `urlparse` refuses.  So
does every comparator that decodes behind the guard.
-/

namespace Cats

section Resolution

variable {index : Option LocatorIndex}

/-- The three kinds of text a read may stumble over. -/
def Refused (value : String) : Prop :=
  Malformed value ∨ is_http_uri value = true ∧ Unparsable value

theorem is_hl_strip (uri : String) : is_hl (Text.strip uri) = is_hl uri := by
  rw [is_hl, Text.strip_strip]
  rfl

theorem refused_strip (value : String) :
    Refused (Text.strip value) ↔ Refused value := by
  rw [Refused, malformed_strip, is_http_uri_strip, Unparsable, Text.strip_strip]
  rfl

theorem malformedHashlink_strip (value : String) :
    MalformedHashlink (Text.strip value) ↔ MalformedHashlink value := by
  rw [MalformedHashlink, is_hl_strip, Text.strip_strip]
  rfl

/-- A hashlink is neither an `ni:` id nor a URI. -/
theorem not_refused_of_hl {value : String} (linked : is_hl value = true) :
    ¬ Refused value := by
  intro refused
  rcases refused with malformed | unparsable
  · rw [(notUri_of_guarded (malformed_guarded malformed)).2] at linked
    cases linked
  · rw [notHashlink_of_http unparsable.1] at linked
    cases linked

theorem not_refused_empty : ¬ Refused "" := by
  intro refused
  rcases refused with malformed | unparsable
  · have guarded := malformed_guarded malformed
    revert guarded
    decide
  · have http := unparsable.1
    revert http
    decide

/-- A hashlink is taken in unless it is malformed. -/
theorem resolve_intake_ref_hl (reached : ReachedIndex index) {value : String}
    (linked : is_hl value = true) (visible : Text.strip value ≠ "") :
    Returns (resolve_intake_ref index value) ↔ ¬ MalformedHashlink value := by
  have raw := linked
  rw [← is_hl_strip] at raw
  rw [← malformedHashlink_strip, ← from_hl_returns raw]
  cases parsed : from_hl (Text.strip value) with
  | error raised =>
      simp [resolve_intake_ref, visible, raw, parsed, not_returns_error, bind,
        Except.bind]
  | ok pair =>
      obtain ⟨ni, uris⟩ := pair
      obtain ⟨digest, same⟩ := from_hl_digest parsed
      subst same
      have taken : Returns (resolve_intake_ref index value) := by
        cases index with
        | none =>
            simp [resolve_intake_ref, visible, raw, parsed, returns_ok, bind,
              Except.bind]
        | some home =>
            obtain ⟨rows, same⟩ := reached.rows
            subst same
            obtain ⟨after, registered⟩ := registerHints_returns digest uris rows
            simp [resolve_intake_ref, visible, raw, parsed, registered,
              returns_ok, bind, Except.bind]
      simp [taken, returns_ok]

/-- What is no hashlink is taken in unless it is malformed or no locator. -/
theorem resolve_intake_ref_plain (reached : ReachedIndex index) {value : String}
    (plain : is_hl value = false) :
    Returns (resolve_intake_ref index value) ↔ ¬ Refused value := by
  have raw := plain
  rw [← is_hl_strip] at raw
  rw [← refused_strip]
  by_cases blank : Text.strip value = ""
  · simp [resolve_intake_ref, blank, returns_ok, not_refused_empty]
  cases guarded : is_ni_or_digest (Text.strip value) with
  | true =>
      have same : resolve_intake_ref index value =
          (equality_id (Text.strip value)).map fun id => (some id, index) := by
        simp [resolve_intake_ref, blank, raw, guarded]
      rw [same, returns_map, equality_id_returns, Refused,
        (notUri_of_guarded guarded).1]
      simp
  | false =>
      have fine : ¬ Malformed (Text.strip value) := by
        intro malformed
        rw [malformed_guarded malformed] at guarded
        cases guarded
      cases web : is_http_uri (Text.strip value) with
      | false =>
          simp [resolve_intake_ref, blank, raw, guarded, web, returns_ok,
            Refused, fine]
      | true =>
          have reads := content_id_from_uri_returns reached (Text.strip value)
          rw [web] at reads
          have refused : Refused (Text.strip value) ↔
              Unparsable (Text.strip value) := by
            simp [Refused, fine, web]
          rw [refused]
          cases found : content_id_from_uri index (Text.strip value) with
          | error raised =>
              rw [found] at reads
              simp only [not_returns_error, true_and, false_iff,
                not_not] at reads
              simp [resolve_intake_ref, blank, raw, guarded, web, found, reads,
                not_returns_error, bind, Except.bind]
          | ok id =>
              rw [found] at reads
              simp only [returns_ok, true_and, true_iff] at reads
              cases id with
              | some id =>
                  simp [resolve_intake_ref, blank, raw, guarded, web, found,
                    reads, returns_ok, bind, Except.bind]
              | none =>
                  have known := registeredId_returns reached (Text.strip value)
                  simp [resolve_intake_ref, blank, raw, guarded, web, found,
                    reads, returns_map, known, bind, Except.bind]

/-- The raising of a hashlink is that of `from_hl`. -/
theorem resolve_intake_ref_valueError (reached : ReachedIndex index)
    {value : String} (linked : is_hl value = true) {raised : Raised}
    (refused : resolve_intake_ref index value = .error raised) :
    raised.isValueError = true := by
  have raw := linked
  rw [← is_hl_strip] at raw
  have visible : Text.strip value ≠ "" := by
    intro blank
    rw [blank] at raw
    revert raw
    decide
  cases parsed : from_hl (Text.strip value) with
  | error other =>
      simp only [resolve_intake_ref, visible, raw, parsed, bind, Except.bind,
        if_true, if_false, Except.error.injEq] at refused
      rw [← refused]
      exact from_hl_valueError parsed
  | ok pair =>
      have fine := (from_hl_returns raw).mp ⟨pair, parsed⟩
      rw [malformedHashlink_strip] at fine
      have taken := (resolve_intake_ref_hl reached linked visible).mpr fine
      rw [refused] at taken
      exact absurd taken (not_returns_error raised)

/-- An intake that raises a `ValueError`, and that for a malformed hashlink. -/
def OnlyHashlinks (index : Option LocatorIndex) (value : String) : Prop :=
  ∀ raised, resolve_intake_ref index value = .error raised →
    raised.isValueError = true ∧ MalformedHashlink value

theorem onlyHashlinks_iff (reached : ReachedIndex index) (value : String) :
    OnlyHashlinks index value ↔ ¬ Refused value := by
  cases linked : is_hl value with
  | false =>
      rw [← resolve_intake_ref_plain reached linked]
      constructor
      · intro only
        cases taken : resolve_intake_ref index value with
        | ok found => exact returns_ok found
        | error raised =>
            have malformed := (only raised taken).2
            rw [malformed.1] at linked
            cases linked
      · intro taken raised refused
        rw [refused] at taken
        exact absurd taken (not_returns_error raised)
  | true =>
      have visible : Text.strip value ≠ "" := by
        intro blank
        rw [is_hl, blank] at linked
        revert linked
        decide
      constructor
      · intro _
        exact not_refused_of_hl linked
      · intro _ raised refused
        refine ⟨resolve_intake_ref_valueError reached linked refused, ?_⟩
        by_contra fine
        have taken := (resolve_intake_ref_hl reached linked visible).mpr fine
        rw [refused] at taken
        exact not_returns_error raised taken

/-- The text of the bare `content_id`, where a stem may read it. -/
def bareText (obj : Fields) (stem : String) : Option String :=
  if stem = "" || stem = "content" then
    match Fields.get? obj "content_id" with
    | some (.str id) => some id
    | _ => none
  else none

/-- The text an id is read from when no locator gives it. -/
def legacyText (obj : Fields) (stem : String) : Option String :=
  match Fields.get? obj (cid_field_name stem) with
  | some (.str legacy) =>
      if Text.strip legacy = "" then bareText obj stem else some legacy
  | _ => bareText obj stem

/-- That text is a malformed id. -/
def LegacyMalformed (obj : Fields) (stem : String) : Prop :=
  ∃ text, legacyText obj stem = some text ∧ Malformed text

/-- A locator that spells no id and that no file of the index lists. -/
def NamesNothing (index : Option LocatorIndex) (uri : String) : Prop :=
  ∃ path, Url.path (Text.strip uri) = .ok path ∧ ldpContentKey? path = none ∧
    ∀ home, index = some home → ∀ id,
      home.find_content_id_for_uri uri ≠ .ok (some id)

/-- What `ref_id` stumbles over: the locator of the slot, or the id it falls
back to. -/
def Misled (index : Option LocatorIndex) (obj : Fields) (stem : String) :
    Prop :=
  match ref_uri obj stem with
  | some uri => Refused uri ∨
      is_http_uri uri = true ∧ NamesNothing index uri ∧
        LegacyMalformed obj stem
  | none => LegacyMalformed obj stem

/-- The id of a text that may be missing. -/
def idOf (text : Option String) : Except Raised (Option String) :=
  match text with
  | some text => (equalityOr (Text.strip text)).map some
  | none => .ok none

theorem legacyId_eq (obj : Fields) (stem : String) :
    legacyId obj stem = idOf (legacyText obj stem) := by
  have bare : (if stem = "" || stem = "content" then
      match Fields.get? obj "content_id" with
      | some (.str id) => (equalityOr (Text.strip id)).map some
      | _ => .ok none
    else .ok none) = idOf (bareText obj stem) := by
    rw [bareText]
    split_ifs
    · cases Fields.get? obj "content_id" with
      | none => rfl
      | some value => cases value <;> rfl
    · rfl
  rw [legacyId, legacyText]
  cases Fields.get? obj (cid_field_name stem) with
  | none => exact bare
  | some value =>
      cases value with
      | str legacy =>
          by_cases blank : Text.strip legacy = ""
          · simp only [blank, if_true]
            exact bare
          · simp only [blank, if_false]
            rfl
      | _ => exact bare

theorem legacyId_returns (obj : Fields) (stem : String) :
    Returns (legacyId obj stem) ↔ ¬ LegacyMalformed obj stem := by
  rw [legacyId_eq, LegacyMalformed]
  cases legacyText obj stem with
  | none => simp [idOf, returns_ok]
  | some text => simp [idOf, returns_map, equalityOr_returns, malformed_strip]

theorem find_content_id_for_uri_strip (home : LocatorIndex) (uri : String) :
    home.find_content_id_for_uri (Text.strip uri) =
      home.find_content_id_for_uri uri := by
  rw [LocatorIndex.find_content_id_for_uri, Text.strip_strip]
  rfl

/-- A reached index has an id for a URI exactly when its lookup finds one. -/
theorem registeredId_none (reached : ReachedIndex index) (uri : String) :
    registeredId index uri = .ok none ↔ ∀ home, index = some home → ∀ id,
      home.find_content_id_for_uri uri ≠ .ok (some id) := by
  cases index with
  | none =>
      constructor
      · intro _ home impossible
        cases impossible
      · intro _
        rfl
  | some home =>
      obtain ⟨events, run⟩ := reached home rfl
      cases found : home.find_content_id_for_uri uri with
      | error raised =>
          obtain ⟨known, same⟩ := registeredId_returns reached uri
          simp [registeredId, found, bind, Except.bind] at same
      | ok answer =>
          cases answer with
          | none => simp [registeredId, found, bind, Except.bind]
          | some id =>
              obtain ⟨rows, same, _⟩ := run.records
              subst same
              have named := LocatorTable.names_of_find found
              obtain ⟨row, _, same, _⟩ := named
              have nonempty : id ≠ "" := by
                intro empty
                apply row.strip_content_id
                rw [same, empty]
                decide
              have known := equalityOr_row row
              rw [same] at known
              constructor
              · intro none
                simp [registeredId, found, nonempty, known, bind, Except.bind,
                  Except.map] at none
              · intro absent
                exact absurd found (absent _ rfl id)

theorem content_id_from_uri_none (reached : ReachedIndex index) {uri : String}
    (web : is_http_uri uri = true) :
    content_id_from_uri index uri = .ok none ↔ NamesNothing index uri := by
  have nonempty : uri ≠ "" := by
    intro empty
    rw [empty] at web
    revert web
    decide
  have known := registeredId_none reached (Text.strip uri)
  simp only [find_content_id_for_uri_strip] at known
  rw [NamesNothing, ← known]
  cases parsed : Url.path (Text.strip uri) with
  | error raised =>
      simp [content_id_from_uri, nonempty, web, parsed, bind, Except.bind]
  | ok path =>
      cases keyed : ldpContentKey? path with
      | none =>
          simp [content_id_from_uri, nonempty, web, parsed, keyed, bind,
            Except.bind]
      | some key =>
          simp only [content_id_from_uri, nonempty, web, parsed, keyed, bind,
            Except.bind, decide_false, Bool.not_true, Bool.or_self,
            Bool.false_eq_true, if_false]
          constructor
          · intro none
            split at none
            · cases none
            · cases none
          · intro absent
            obtain ⟨_, same, other, _⟩ := absent
            cases same
            rw [keyed] at other
            cases other

theorem not_malformed_of_http {uri : String} (web : is_http_uri uri = true) :
    ¬ Malformed uri := by
  intro malformed
  rw [(notUri_of_guarded (malformed_guarded malformed)).1] at web
  cases web

/-- A slot that holds a hashlink is always read. -/
theorem ref_id_hl (reached : ReachedIndex index) {obj : Fields}
    {stem uri : String} (slot : ref_uri obj stem = some uri)
    (linked : is_hl uri = true) : Returns (ref_id index obj stem) := by
  simp only [ref_id, slot, linked, if_true]
  cases taken : resolve_intake_ref index uri with
  | ok resolved => exact returns_ok resolved
  | error raised =>
      have caught := resolve_intake_ref_valueError reached linked taken
      simp [caught, returns_ok]

/-- A slot that holds a URI is read as the URI, or else as the text behind
it. -/
theorem ref_id_web (reached : ReachedIndex index) {obj : Fields}
    {stem uri : String} (slot : ref_uri obj stem = some uri)
    (web : is_http_uri uri = true) : Returns (ref_id index obj stem) ↔
      ¬ (Unparsable uri ∨
        NamesNothing index uri ∧ LegacyMalformed obj stem) := by
  have plain := notHashlink_of_http web
  have read := content_id_from_uri_returns reached uri
  have nothing := content_id_from_uri_none reached web
  simp only [web, true_and] at read
  cases found : content_id_from_uri index uri with
  | error raised =>
      rw [found] at read
      have unparsable : Unparsable uri := by
        by_contra fine
        exact not_returns_error raised (read.mpr fine)
      simp [ref_id, slot, plain, web, found, unparsable, not_returns_error,
        bind, Except.bind]
  | ok id =>
      rw [found] at read nothing
      have fine := read.mp (returns_ok id)
      cases id with
      | some id =>
          have named : ¬ NamesNothing index uri := by
            intro absent
            cases nothing.mpr absent
          simp [ref_id, slot, plain, web, found, fine, named, returns_ok, bind,
            Except.bind]
      | none =>
          have absent := nothing.mp rfl
          have legacy := legacyId_returns obj stem
          simp [ref_id, slot, plain, web, found, fine, absent, returns_map,
            legacy, bind, Except.bind]

/-- `ref_id` raises on what misleads it, and on nothing else. -/
theorem ref_id_returns (reached : ReachedIndex index) (obj : Fields)
    (stem : String) :
    Returns (ref_id index obj stem) ↔ ¬ Misled index obj stem := by
  rw [Misled]
  cases slot : ref_uri obj stem with
  | none =>
      simp only [ref_id, slot, returns_map]
      exact legacyId_returns obj stem
  | some uri =>
      dsimp only
      cases linked : is_hl uri with
      | true =>
          have plain : is_http_uri uri = false := by
            rw [Bool.eq_false_iff]
            intro web
            rw [notHashlink_of_http web] at linked
            cases linked
          have fine := not_refused_of_hl linked
          simp [ref_id_hl reached slot linked, fine, plain]
      | false =>
          cases web : is_http_uri uri with
          | false =>
              simp [ref_id, slot, linked, web, returns_map, equalityOr_returns,
                malformed_strip, Refused]
          | true =>
              rw [ref_id_web reached slot web]
              simp [Refused, web, not_malformed_of_http web]

end Resolution

section Comparators

open ExecutionBind

theorem tokenOf_returns (text : String) :
    Returns (tokenOf text) ↔ ¬ Malformed text := by
  rw [tokenOf]
  cases web : is_http_uri text with
  | true => simp [returns_ok, not_malformed_of_http web]
  | false =>
      cases guarded : is_ni_or_digest text with
      | true => simp [returns_map, from_ni_returns guarded]
      | false =>
          have fine : ¬ Malformed text := by
            intro malformed
            rw [malformed_guarded malformed] at guarded
            cases guarded
          simp [returns_ok, fine]

theorem ref_token_returns (value : String) :
    Returns (ref_token value) ↔ ¬ Malformed (tokenText value) := by
  rw [ref_token_eq, tokenOf_returns]

theorem digest_token_returns (value : String) :
    Returns (digest_token value) ↔ ¬ Malformed value := by
  rw [digest_token, tokenOf_returns, malformed_strip]

theorem digest_key_returns (value : String) :
    Returns (digest_key (some value)) ↔ ¬ Malformed value := by
  rw [← malformed_strip]
  by_cases empty : value = ""
  · have fine : ¬ Malformed (Text.strip "") := by
      intro malformed
      have guarded := malformed_guarded malformed
      revert guarded
      decide
    simp [digest_key, empty, returns_ok, fine]
  · cases guarded : is_ni_or_digest (Text.strip value) with
    | true =>
        simp [digest_key, empty, guarded, returns_map, from_ni_returns guarded]
    | false =>
        have fine : ¬ Malformed (Text.strip value) := by
          intro malformed
          rw [malformed_guarded malformed] at guarded
          cases guarded
        simp [digest_key, empty, guarded, returns_ok, fine]

theorem same_id_returns (left right : String) :
    Returns (same_id left right) ↔
      ¬ (is_ni_or_digest left = true ∧ is_ni_or_digest right = true ∧
        (Malformed left ∨ Malformed right)) := by
  cases first : is_ni_or_digest left with
  | false => simp [same_id, first, returns_ok]
  | true =>
      cases second : is_ni_or_digest right with
      | false => simp [same_id, first, second, returns_ok]
      | true =>
          have one := from_ni_returns first
          have other := from_ni_returns second
          cases read : from_ni left with
          | error raised =>
              rw [read] at one
              have malformed : Malformed left := by
                by_contra fine
                exact not_returns_error raised (one.mpr fine)
              simp [same_id, first, second, read, malformed, not_returns_error,
                bind, Except.bind]
          | ok digest =>
              rw [read] at one
              have fine := one.mp (returns_ok digest)
              cases also : from_ni right with
              | error raised =>
                  rw [also] at other
                  have malformed : Malformed right := by
                    by_contra fine
                    exact not_returns_error raised (other.mpr fine)
                  simp [same_id, first, second, read, also, malformed,
                    not_returns_error, bind, Except.bind]
              | ok digest' =>
                  rw [also] at other
                  have fine' := other.mp (returns_ok digest')
                  simp [same_id, first, second, read, also, fine, fine',
                    returns_ok, bind, Except.bind]

theorem from_ni_kind {text : String} {raised : Raised}
    (refused : from_ni text = .error raised) : raised.kind = .valueError := by
  rw [from_ni] at refused
  split_ifs at refused with hex
  cases payload : niPayload? (Text.strip text) with
  | none =>
      rw [payload] at refused
      cases refused
      rfl
  | some symbols =>
      simp only [payload, decodePayload] at refused
      split at refused
      · cases refused
        rfl
      · split_ifs at refused with size
        cases refused
        rfl

theorem ref_token_kind {value : String} {raised : Raised}
    (refused : ref_token value = .error raised) : raised.kind = .valueError := by
  rw [ref_token_eq, tokenOf] at refused
  split_ifs at refused
  cases read : from_ni (tokenText value) with
  | error other =>
      rw [read] at refused
      cases refused
      exact from_ni_kind read
  | ok digest =>
      rw [read] at refused
      cases refused

theorem not_malformed_empty : ¬ Malformed "" := by
  intro malformed
  have guarded := malformed_guarded malformed
  revert guarded
  decide

/-- Blank text names nothing, and nothing malformed. -/
theorem not_malformed_blank {text : String} (blank : Text.strip text = "") :
    ¬ Malformed (tokenText text) := by
  have plain : Text.startsWith (Text.lower "") "ipfs://" = false := by decide
  have same : tokenText text = "" := by
    simp [tokenText, blank, plain]
  rw [same]
  exact not_malformed_empty

/-- The loop over the texts of an entity stumbles over the malformed ones. -/
theorem candidates_returns (entity : Fields) (keys : List String) :
    Returns (candidates entity keys) ↔ ∀ key ∈ keys, ∀ text,
      Fields.get? entity key = some (.str text) →
        ¬ Malformed (tokenText text) := by
  induction keys with
  | nil =>
      constructor
      · intro _ key member
        cases member
      · intro _
        exact returns_ok []
  | cons key keys induction =>
      rw [List.forall_mem_cons, ← induction]
      cases there : Fields.get? entity key with
      | none => simp [candidates, there]
      | some value =>
          cases value with
          | str raw =>
              by_cases blank : Text.strip raw = ""
              · simp [candidates, there, blank, not_malformed_blank blank]
              · have token := ref_token_returns raw
                cases read : ref_token raw with
                | error raised =>
                    rw [read] at token
                    have malformed : Malformed (tokenText raw) := by
                      by_contra fine
                      exact not_returns_error raised (token.mpr fine)
                    simp [candidates, there, blank, read, malformed,
                      not_returns_error, bind, Except.bind]
                | ok found =>
                    rw [read] at token
                    have fine := token.mp (returns_ok found)
                    cases rest : candidates entity keys with
                    | error raised =>
                        simp [candidates, there, blank, read, rest,
                          not_returns_error, bind, Except.bind]
                    | ok tokens =>
                        simp [candidates, there, blank, read, rest, fine,
                          returns_ok, bind, Except.bind]
          | _ => simp [candidates, there]

theorem candidates_kind {entity : Fields} {keys : List String}
    {raised : Raised} (refused : candidates entity keys = .error raised) :
    raised.kind = .valueError := by
  induction keys generalizing raised with
  | nil => cases refused
  | cons key keys induction =>
      rw [candidates] at refused
      split at refused
      · rename_i raw there
        split_ifs at refused with blank
        · exact induction refused
        · cases read : ref_token raw with
          | error other =>
              simp only [read, bind, Except.bind, Except.error.injEq] at refused
              rw [← refused]
              exact ref_token_kind read
          | ok token =>
              cases rest : candidates entity keys with
              | error other =>
                  simp only [read, rest, bind, Except.bind,
                    Except.error.injEq] at refused
                  rw [← refused]
                  exact induction rest
              | ok tokens => simp [read, rest, bind, Except.bind] at refused
      · exact induction refused

/-- The locator or a text of the entity is a malformed id. -/
def EntityMalformed (entity : Fields) (uri : String) : Prop :=
  Malformed (tokenText uri) ∨ ∃ key ∈ ["@id", "contentId"], ∃ text,
    Fields.get? entity key = some (.str text) ∧ Malformed (tokenText text)

theorem not_entityMalformed_iff (entity : Fields) (uri : String) :
    ¬ EntityMalformed entity uri ↔ Returns (ref_token uri) ∧
      Returns (candidates entity ["@id", "contentId"]) := by
  rw [EntityMalformed, not_or, ref_token_returns, candidates_returns]
  constructor
  · intro fine
    refine ⟨fine.1, ?_⟩
    intro key member text there malformed
    exact fine.2 ⟨key, member, text, there, malformed⟩
  · intro fine
    refine ⟨fine.1, ?_⟩
    intro found
    obtain ⟨key, member, text, there, malformed⟩ := found
    exact fine.2 key member text there malformed

/-- The comparison of an entity lets a `ValueError` through for a malformed
id, and otherwise judges. -/
theorem agreement_returns (entity : Fields) (uri label : String) :
    Returns (agreement (entity_agrees entity uri label)) ↔
      ¬ EntityMalformed entity uri := by
  rw [not_entityMalformed_iff]
  cases expected : ref_token uri with
  | error raised =>
      have kind := ref_token_kind expected
      simp [entity_agrees, expected, agreement, kind, not_returns_error, bind,
        Except.bind]
  | ok found =>
      cases read : candidates entity ["@id", "contentId"] with
      | error raised =>
          have kind := candidates_kind read
          simp [entity_agrees, expected, read, agreement, kind,
            not_returns_error, bind, Except.bind]
      | ok tokens =>
          by_cases member : found ∈ tokens
          · simp [entity_agrees, expected, read, agreement, member, returns_ok,
              bind, Except.bind]
          · simp [entity_agrees, expected, read, agreement, member, returns_ok,
              Raised.assertionError, bind, Except.bind]

theorem agreement_kind {checked : Except Raised Unit} {raised : Raised}
    (refused : agreement checked = .error raised) :
    raised.kind ≠ .assertionError := by
  cases checked with
  | ok _ => cases refused
  | error other =>
      rw [agreement] at refused
      split_ifs at refused with caught
      cases refused
      exact caught

/-- The search through the stages stumbles over a stage it cannot compare. -/
theorem matching_returns (uri : String) (lineage : List Json) :
    Returns (matching uri lineage) ↔ ∀ entity, .obj entity ∈ lineage →
      ¬ EntityMalformed entity uri := by
  induction lineage with
  | nil => simp [matching, returns_ok]
  | cons item lineage induction =>
      cases item with
      | obj entity =>
          have judged := agreement_returns entity uri "structure_as_executed"
          cases compared : agreement
              (entity_agrees entity uri "structure_as_executed") with
          | error raised =>
              rw [compared] at judged
              have malformed : EntityMalformed entity uri := by
                by_contra fine
                exact not_returns_error raised (judged.mpr fine)
              constructor
              · intro returned
                simp [matching, compared, not_returns_error, bind, Except.bind]
                  at returned
              · intro fine
                exact absurd malformed (fine entity List.mem_cons_self)
          | ok taken =>
              rw [compared] at judged
              have fine := judged.mp (returns_ok taken)
              have same : Returns (matching uri (.obj entity :: lineage)) ↔
                  Returns (matching uri lineage) := by
                cases rest : matching uri lineage with
                | error raised =>
                    simp [matching, compared, rest, not_returns_error, bind,
                      Except.bind]
                | ok others =>
                    simp [matching, compared, rest, returns_ok, bind,
                      Except.bind]
              rw [same, induction]
              constructor
              · intro each other member
                rcases List.mem_cons.mp member with here | later
                · cases here
                  exact fine
                · exact each other later
              · intro each other member
                exact each other (List.mem_cons_of_mem _ member)
      | _ => simp [matching, induction]

theorem matching_kind {uri : String} {lineage : List Json} {raised : Raised}
    (refused : matching uri lineage = .error raised) :
    raised.kind ≠ .assertionError := by
  induction lineage generalizing raised with
  | nil => cases refused
  | cons item lineage induction =>
      cases item with
      | obj entity =>
          cases compared : agreement
              (entity_agrees entity uri "structure_as_executed") with
          | error other =>
              simp only [matching, compared, bind, Except.bind,
                Except.error.injEq] at refused
              rw [← refused]
              exact agreement_kind compared
          | ok taken =>
              cases rest : matching uri lineage with
              | error other =>
                  simp only [matching, compared, rest, bind, Except.bind,
                    Except.error.injEq] at refused
                  rw [← refused]
                  exact induction rest
              | ok others =>
                  simp [matching, compared, rest, bind, Except.bind] at refused
      | _ =>
          rw [matching] at refused
          · exact induction refused
          · intro entity same
            cases same

/-- A check that raises nothing but an `AssertionError`. -/
def OnlyAssertions {α : Type} (run : Except Raised α) : Prop :=
  ∀ raised, run = .error raised → raised.kind = .assertionError

/-- A stage of the BOM that the check of the observation cannot compare. -/
def StageMalformed (bom : Json) (uri : String) : Prop :=
  ∃ fields lineage entity, bom = .obj fields ∧ lineageOf fields = .ok lineage ∧
    .obj entity ∈ lineage ∧ EntityMalformed entity uri

theorem lineageOf_kind {fields : Fields} {raised : Raised}
    (refused : lineageOf fields = .error raised) :
    raised.kind = .assertionError := by
  rw [lineageOf] at refused
  split at refused
  · cases refused
  · split_ifs at refused
    cases refused
    rfl
  · cases refused

theorem stageMalformed_iff {fields : Fields} {lineage : List Json}
    {uri : String} (listed : lineageOf fields = .ok lineage) :
    ¬ StageMalformed (.obj fields) uri ↔ Returns (matching uri lineage) := by
  rw [matching_returns]
  constructor
  · intro fine entity member malformed
    exact fine ⟨fields, lineage, entity, rfl, listed, member, malformed⟩
  · intro each found
    obtain ⟨other, others, entity, same, alsoListed, member, malformed⟩ := found
    cases same
    rw [listed] at alsoListed
    cases alsoListed
    exact each entity member malformed

/-- The check of the observation lets more than an `AssertionError` through when
it cannot compare a stage. -/
theorem sae_lineage_entity_only (bom : Json) (uri : String) :
    OnlyAssertions (sae_lineage_entity bom uri) ↔ ¬ StageMalformed bom uri := by
  cases bom with
  | obj fields =>
      cases listed : lineageOf fields with
      | error raised =>
          constructor
          · intro _ found
            obtain ⟨_, _, _, same, also, _⟩ := found
            cases same
            rw [listed] at also
            cases also
          · intro _ other refused
            simp only [sae_lineage_entity, listed, bind, Except.bind,
              Except.error.injEq] at refused
            rw [← refused]
            exact lineageOf_kind listed
      | ok lineage =>
          rw [stageMalformed_iff listed]
          cases found : matching uri lineage with
          | error raised =>
              constructor
              · intro only
                have kind := only raised (by
                  simp [sae_lineage_entity, listed, found, bind, Except.bind])
                exact absurd kind (matching_kind found)
              · intro returned
                exact absurd returned (not_returns_error raised)
          | ok entities =>
              constructor
              · intro _
                exact returns_ok entities
              · intro _ raised refused
                simp only [sae_lineage_entity, listed, found, bind,
                  Except.bind] at refused
                split_ifs at refused
                · cases refused
                  rfl
                · split at refused
                  · cases refused
                  · cases refused
                    rfl
  | _ =>
      constructor
      · intro _ found
        obtain ⟨_, _, _, same, _⟩ := found
        cases same
      · intro _ raised refused
        cases refused
        rfl

end Comparators

/-- Every read of a ref returns exactly where it meets no malformed id and no
locator that `urlparse` refuses. -/
structure RefReads (index : Option LocatorIndex) : Prop where
  ref_id : ∀ obj stem,
    Returns (ref_id index obj stem) ↔ ¬ Misled index obj stem
  content_id_from_uri : ∀ uri, Returns (content_id_from_uri index uri) ↔
    ¬ (is_http_uri uri = true ∧ Unparsable uri)
  resolve_intake_ref : ∀ value, OnlyHashlinks index value ↔ ¬ Refused value
  from_ni : ∀ text, is_ni_or_digest text = true →
    (Returns (from_ni text) ↔ ¬ Malformed text)
  equality_id : ∀ text, is_ni_or_digest text = true →
    (Returns (equality_id text) ↔ ¬ Malformed text)
  content_id_fs_key : ∀ text label, is_ni_or_digest text = true →
    (Returns (content_id_fs_key text label) ↔ ¬ Malformed text)
  ref_token : ∀ value, Returns (ref_token value) ↔
    ¬ Malformed (ExecutionBind.tokenText value)
  digest_token : ∀ value, Returns (digest_token value) ↔ ¬ Malformed value
  digest_key : ∀ value, Returns (digest_key (some value)) ↔ ¬ Malformed value
  same_id : ∀ left right, Returns (same_id left right) ↔
    ¬ (is_ni_or_digest left = true ∧ is_ni_or_digest right = true ∧
      (Malformed left ∨ Malformed right))
  sae_lineage_entity : ∀ bom uri,
    OnlyAssertions (ExecutionBind.sae_lineage_entity bom uri) ↔
      ¬ StageMalformed bom uri

theorem ref_reads_return_iff {index : Option LocatorIndex}
    (reached : ReachedIndex index) : RefReads index := by
  constructor
  · exact ref_id_returns reached
  · exact content_id_from_uri_returns reached
  · exact onlyHashlinks_iff reached
  · intro text guarded
    exact from_ni_returns guarded
  · intro text _
    exact equality_id_returns text
  · intro text label guarded
    exact content_id_fs_key_returns label guarded
  · exact ref_token_returns
  · exact digest_token_returns
  · exact digest_key_returns
  · exact same_id_returns
  · exact sae_lineage_entity_only

/-- On the index of a new Node. -/
theorem ref_reads_return_iff_empty : RefReads (some .empty) := by
  apply ref_reads_return_iff
  intro home same
  cases same
  exact ⟨[], .start⟩

/-- The guard lets an `ni:` id of one byte through, and reading the slot that
holds it raises. -/
theorem short_ni_raises : is_ni_or_digest "ni:///sha-256;AA" = true ∧
    ∃ raised, ref_id none [("data_uri", .str "ni:///sha-256;AA")] "data" =
      .error raised := by
  constructor
  · decide +kernel
  · refine ⟨.valueError "ni: sha-256 payload must be 32 bytes, got 1", ?_⟩
    decide +kernel

end Cats
