import Cats.Cas.ContentKey
import Cats.Cas.LocatorRuns
import Cats.Registry.Intake
import Cats.Registry.Runs

/-!
# Node intake and mesh intake

On files that puts and intakes made, the two resolutions go step by step
through the same reads and raise alike, up to one place: an id no file can be
kept under is a 400 of the node, and escapes the mesh as a `ValueError`.
-/

namespace Cats

open Effect

/-- Text that was given and is not empty. -/
abbrev Given : Type := { text : String // text ≠ "" }

/-- A request that assigns non-empty text to some of the six keys both sides
read. -/
structure Selection where
  content_id : Option Given := none
  hl : Option Given := none
  data_uri : Option Given := none
  bom_uri : Option Given := none
  bom_ldp_uri : Option Given := none
  bom_solid_uri : Option Given := none

namespace Selection

def request (selection : Selection) : IntakeRequest :=
  { content_id := selection.content_id.map Subtype.val
    hl := selection.hl.map Subtype.val
    data_uri := selection.data_uri.map Subtype.val
    bom_uri := selection.bom_uri.map Subtype.val
    bom_ldp_uri := selection.bom_ldp_uri.map Subtype.val
    bom_solid_uri := selection.bom_solid_uri.map Subtype.val }

def bom_locator (selection : Selection) : Option Given :=
  selection.bom_uri <|> selection.bom_ldp_uri <|> selection.bom_solid_uri

def data_id (selection : Selection) : Option Given :=
  selection.content_id <|> selection.hl

end Selection

/-- A web locator whose LDP path ends in a key that names no file. -/
def UnkeyedPath (value : String) : Prop :=
  is_hl value = false ∧ is_ni_or_digest value = false ∧
    is_http_uri value = true ∧ ∃ path key,
      Url.path (Text.strip value) = .ok path ∧
        ldpContentKey? path = some key ∧ isCidSegment key = false

/-- The id names a file. -/
def Keyed (id : String) : Prop :=
  ∀ label, ∃ key, content_id_fs_key id label = .ok key

/-- What the request looks up names a file: its BOM locator when it has one,
else its data id, else its data locator. -/
def Selection.LooksUpFile (selection : Selection) : Prop :=
  match selection.bom_locator, selection.data_id, selection.data_uri with
  | some locator, _, _ => ¬ UnkeyedPath locator.val
  | none, some id, _ =>
      if is_hl id.val || is_http_uri id.val then ¬ UnkeyedPath id.val
      else Keyed id.val
  | none, none, some uri => ¬ UnkeyedPath uri.val
  | none, none, none => True

section Alike

variable {α β α' β' : Type}

/-- The node and the mesh end alike: both return, or both refuse, or both find
several BOMs; and the same locators are registered. -/
inductive Alike (same : α → β → Prop) :
    EStateM.Result Node.Failure LocatorIndex α →
      EStateM.Result RegistryError LocatorIndex β → Prop where
  | returned {node : α} {mesh : β} (index : LocatorIndex)
      (values : same node mesh) : Alike same (.ok node index) (.ok mesh index)
  | refused {status : Nat} (payload : Fields) (text : String)
      (index : LocatorIndex) (refusal : status = 400 ∨ status = 404) :
      Alike same (.error (Node.refusal status payload) index)
        (.error (.other (.runtimeError text)) index)
  | ambiguous (payload : Fields) (key : String) (bom_ids : List String)
      (index : LocatorIndex) :
      Alike same (.error (Node.refusal 409 payload) index)
        (.error (.ambiguous key bom_ids) index)

theorem Alike.bind {same : α → β → Prop} {later : α' → β' → Prop}
    {node : Node.Intake α} {mesh : OrderOps.Intake β}
    {nextNode : α → Node.Intake α'} {nextMesh : β → OrderOps.Intake β'}
    {index : LocatorIndex} (first : Alike same (node index) (mesh index))
    (rest : ∀ left right after, node index = .ok left after →
      same left right → Alike later (nextNode left after) (nextMesh right after)) :
    Alike later ((node >>= nextNode) index) ((mesh >>= nextMesh) index) := by
  generalize nodeRan : node index = nodeResult at first
  generalize meshRan : mesh index = meshResult at first
  cases first with
  | returned after values =>
      rw [bind_run_ok nodeRan, bind_run_ok meshRan]
      exact rest _ _ after nodeRan values
  | refused payload text after refusal =>
      rw [bind_run_error nodeRan, bind_run_error meshRan]
      exact .refused payload text after refusal
  | ambiguous payload key bom_ids after =>
      rw [bind_run_error nodeRan, bind_run_error meshRan]
      exact .ambiguous payload key bom_ids after

end Alike

section Errors

theorem decodePayload_error {what : String} {payload : List Char}
    {raised : Raised} (refused : decodePayload what payload = .error raised) :
    raised.isValueError = true := by
  unfold decodePayload at refused
  split at refused
  · obtain rfl := Except.error.inj refused
    rfl
  · split_ifs at refused
    obtain rfl := Except.error.inj refused
    rfl

theorem from_ni_error {ni : String} {raised : Raised}
    (refused : from_ni ni = .error raised) : raised.isValueError = true := by
  simp only [from_ni] at refused
  split_ifs at refused
  split at refused
  · obtain rfl := Except.error.inj refused
    rfl
  · exact decodePayload_error refused

theorem from_hl_error {hl : String} {raised : Raised}
    (refused : from_hl hl = .error raised) : raised.isValueError = true := by
  unfold from_hl at refused
  split at refused
  · obtain rfl := Except.error.inj refused
    rfl
  · rename_i payload rest parts
    cases decoded : decodePayload "hl" payload with
    | error other =>
        rw [decoded] at refused
        obtain rfl := Except.error.inj refused
        exact decodePayload_error decoded
    | ok digest =>
        rw [decoded] at refused
        exact nomatch refused

theorem checkNetloc_error {netloc : List Char} {raised : Raised}
    (refused : Url.checkNetloc netloc = .error raised) :
    raised.isValueError = true := by
  unfold Url.checkNetloc at refused
  split_ifs at refused
  all_goals
    obtain rfl := Except.error.inj refused
    rfl

theorem path_error {url : String} {raised : Raised}
    (refused : Url.path url = .error raised) : raised.isValueError = true := by
  simp only [Url.path] at refused
  generalize Url.splitNetloc _ = parts at refused
  cases checked : Url.checkNetloc parts.1 with
  | error other =>
      simp only [checked, bind, Except.bind, Except.error.injEq] at refused
      exact refused ▸ checkNetloc_error checked
  | ok fine => simp [checked, bind, Except.bind] at refused

theorem content_id_fs_key_error {id label : String} {raised : Raised}
    (refused : content_id_fs_key id label = .error raised) :
    raised.isValueError = true := by
  simp only [content_id_fs_key] at refused
  split_ifs at refused with empty named legal
  · obtain rfl := Except.error.inj refused
    rfl
  · cases read : from_ni (Text.strip id) with
    | error other =>
        rw [read] at refused
        obtain rfl := Except.error.inj refused
        exact from_ni_error read
    | ok digest =>
        rw [read] at refused
        cases refused
  · obtain rfl := Except.error.inj refused
    rfl

end Errors

section Plain

theorem colon_of_toLower {character : Char}
    (same : character.toLower = ':') : character = ':' := by
  delta Char.toLower at same
  split_ifs at same with upper
  · have above : 65 ≤ character.val.toNat := upper.1
    have below : character.val.toNat ≤ 90 := upper.2
    have value : (character.val + ('a'.val - 'A'.val)).toNat = 58 :=
      congrArg Char.toNat same
    have offset : ('a'.val - 'A'.val).toNat = 32 := by decide
    rw [UInt32.toNat_add, offset] at value
    omega
  · exact same

/-- Neither a hashlink nor a web locator. -/
def Plain (id : String) : Prop := is_hl id = false ∧ is_http_uri id = false

theorem plain_of_starts {id : String}
    (apart : ∀ start ∈ ["hl:", "http://", "https://"],
      ¬ start.toList <+: (Text.lower (Text.strip id)).toList) : Plain id := by
  have notStarts : ∀ start ∈ ["hl:", "http://", "https://"],
      Text.startsWith (Text.lower (Text.strip id)) start = false := by
    intro start member
    rw [Bool.eq_false_iff, ne_eq, Text.startsWith_iff]
    exact apart start member
  constructor
  · exact notStarts "hl:" (by simp)
  · simp only [is_http_uri, notStarts "http://" (by simp),
      notStarts "https://" (by simp), Bool.or_self]

theorem plain_of_notMem {id : String} (colonless : ':' ∉ id.toList) :
    Plain id := by
  apply plain_of_starts
  intro start member starts
  have colon : ':' ∈ start.toList := by
    have table : ["hl:", "http://", "https://"].all
        (fun text => text.toList.contains ':') = true := by decide
    simpa using List.all_eq_true.mp table start member
  have there := starts.subset colon
  rw [Text.toList_lower, Text.toList_strip] at there
  obtain ⟨character, kept, same⟩ := List.mem_map.mp there
  have original : character ∈ id.toList :=
    (List.dropWhile_suffix _).subset ((List.rdropWhile_prefix _ _).subset kept)
  exact colonless (colon_of_toLower same ▸ original)

theorem plain_to_ni (digest : Digest) : Plain (to_ni digest) := by
  apply plain_of_starts
  intro start member starts
  rw [strip_to_ni, Text.toList_lower, toList_to_ni] at starts
  have head : start.toList.head? = some 'n' := by
    obtain ⟨rest, whole⟩ := starts
    have first := congrArg List.head? whole
    cases shape : start.toList with
    | nil =>
        exfalso
        have table : ["hl:", "http://", "https://"].all
            (fun text => text.toList != []) = true := by decide
        have nonempty := List.all_eq_true.mp table start member
        simp [shape] at nonempty
    | cons character tail =>
        rw [shape] at first
        exact first
  have table : ["hl:", "http://", "https://"].all
      (fun text => text.toList.head? != some 'n') = true := by decide
  have other := List.all_eq_true.mp table start member
  simp [head] at other

theorem plain_text (id : ContentId) : Plain id.text := by
  cases id with
  | named digest => exact plain_to_ni digest
  | segment value legal bare =>
      apply plain_of_notMem
      intro colon
      simp only [isCidSegment, Bool.and_eq_true, List.all_eq_true] at legal
      exact absurd (legal.2 ':' colon) (by decide)

theorem keyed_text (id : ContentId) : Keyed id.text :=
  fun label => ⟨id.key, (ContentId.spells_text id).key label⟩

end Plain

section Resolving

/-- What a resolved id is: nothing to resolve again, and the name of a file
unless the locator's path says otherwise. -/
structure Found (value id : String) : Prop where
  plain : Plain id
  keyed : Keyed id ↔ ¬ UnkeyedPath value

theorem found_text {value : String} (id : ContentId)
    (linked : ¬ UnkeyedPath value) : Found value id.text where
  plain := plain_text id
  keyed := iff_of_true (keyed_text id) linked

theorem text_of_row (row : LocatorRow) :
    ∃ id : ContentId, row.content_id = id.text := by
  rcases row.shape with ⟨digest, same, _⟩ | ⟨bare, legal, _⟩
  · exact ⟨.named digest, same⟩
  · exact ⟨.segment row.content_id legal bare, rfl⟩

variable (rows : List LocatorRow)

/-- A reverse lookup among rows gives a canonical id or nothing. -/
theorem registeredId_ofRows (uri : String) :
    ∃ found, registeredId (some (.ofRows rows)) uri = .ok found ∧
      ∀ id ∈ found, ∃ content : ContentId, id = content.text := by
  have canonical : ∀ content : ContentId,
      equalityOr content.text = .ok content.text := by
    intro content
    cases content with
    | named digest => simp [ContentId.text, equalityOr]
    | segment value legal bare => simp [ContentId.text, equalityOr, bare]
  simp only [registeredId, LocatorTable.find_content_id_for_uri_ofRows, bind,
    Except.bind]
  split_ifs with blank
  · exact ⟨none, rfl, by simp⟩
  · cases rows.find? fun row =>
        Text.strip uri ∈ row.locators.map Locator.uri with
    | none => exact ⟨none, rfl, by simp⟩
    | some row =>
        obtain ⟨content, same⟩ := text_of_row row
        refine ⟨some content.text, ?_, ?_⟩
        · simp [same, ContentId.text_ne_empty, canonical, Except.map]
        · intro id member
          exact ⟨content, (Option.some.inj member).symm⟩

theorem registerHints_ofRows (digest : Digest) (uris : List String) :
    ∃ after, registerHints (to_ni digest) uris (.ofRows rows) = .ok after := by
  induction uris generalizing rows with
  | nil => exact ⟨_, rfl⟩
  | cons uri uris induction =>
      simp only [registerHints]
      split_ifs with web
      · have stored := LocatorTable.put_ofRows rows (digestRow digest) rfl
          (show LocatorIndex.canonical_id (to_ni digest) = .ok _ by
            simp [LocatorIndex.canonical_id, Except.map, digestRow,
              LocatorTable.blank]) uri none
        obtain ⟨after, rest⟩ := induction
          (LocatorTable.register (digestRow digest) uri none rows)
        exact ⟨after, by simp only [stored, bind, Except.bind, rest]⟩
      · exact induction rows

/-- The id a web locator's path ends in names a file when it is a segment. -/
theorem found_of_key {value path key : String}
    (bare : is_hl value = false) (unnamed : is_ni_or_digest value = false)
    (web : is_http_uri value = true)
    (parsed : Url.path (Text.strip value) = .ok path)
    (matched : ldpContentKey? path = some key)
    (other : digestSegment? (Text.lower key) = none) : Found value key := by
  have nonempty := (keyChars_of_ldpContentKey? matched).1
  have colonless := colonless_of_ldpContentKey? matched
  have stripped := strip_of_ldpContentKey? matched
  have undigested := notDigest_of_ldpContentKey? matched other
  have keyed : Keyed key ↔ isCidSegment key = true := by
    constructor
    · intro names
      obtain ⟨found, named⟩ := names "content_id"
      by_contra illegal
      simp [content_id_fs_key, stripped, nonempty, undigested, illegal]
        at named
    · intro legal label
      exact content_id_fs_key_segment legal label
  refine ⟨plain_of_notMem colonless, keyed.trans ?_⟩
  constructor
  · rintro legal ⟨_, _, _, otherPath, otherKey, again, also, illegal⟩
    rw [parsed, Except.ok.injEq] at again
    subst again
    rw [matched, Option.some.injEq] at also
    subst also
    rw [legal] at illegal
    exact Bool.noConfusion illegal
  · intro linked
    by_contra illegal
    exact linked ⟨bare, unnamed, web, path, key, parsed, matched,
      Bool.eq_false_iff.mpr illegal⟩

/-- A key that is a digest in some case is a segment. -/
theorem isCidSegment_of_digestSegment? {path key : String} {digest : Digest}
    (matched : ldpContentKey? path = some key)
    (hex : digestSegment? (Text.lower key) = some digest) :
    isCidSegment key = true := by
  obtain ⟨nonempty, letters⟩ := keyChars_of_ldpContentKey? matched
  have stripped : Text.strip (Text.lower key) = Text.lower key := by
    apply Text.strip_eq_self
    rw [Text.toList_lower]
    intro character member
    obtain ⟨original, there, rfl⟩ := List.mem_map.mp member
    apply Text.isSpace_toLower
    rcases letters original there with alphanum | rfl | rfl
    · exact isSpace_of_alphanum alphanum
    · decide
    · decide
  have valid : isHexSha256 (Text.lower (Text.lower key)) = true := by
    unfold digestSegment? at hex
    simp only [validate_digest_segment, stripped] at hex
    by_contra invalid
    simp [invalid] at hex
  simp only [isHexSha256, Bool.and_eq_true, List.all_eq_true,
    Text.toList_lower, List.map_map] at valid
  simp only [isCidSegment, Bool.and_eq_true, List.all_eq_true,
    decide_eq_true_eq]
  refine ⟨nonempty, ?_⟩
  intro character member
  have lowered := valid.2 _ (List.mem_map_of_mem member)
  rcases letters character member with alphanum | rfl | rfl
  · exact alphanum
  · exact absurd lowered (by decide)
  · exact absurd lowered (by decide)

/-- A resolution of a plain web locator. -/
theorem resolve_web {value : String} (bare : is_hl value = false)
    (unnamed : is_ni_or_digest value = false)
    (web : is_http_uri value = true) (blank : Text.strip value ≠ "") :
    (∃ raised, content_id_from_uri (some (.ofRows rows)) (Text.strip value) =
        .error raised ∧ raised.isValueError = true) ∨
      ∃ found, content_id_from_uri (some (.ofRows rows)) (Text.strip value) =
        .ok found ∧ (∀ id ∈ found, Found value id) ∧
        (found = none →
          registeredId (some (.ofRows rows)) (Text.strip value) = .ok none) := by
  obtain ⟨registered, looked, canonical⟩ :=
    registeredId_ofRows rows (Text.strip value)
  have sameWeb : is_http_uri (Text.strip value) = is_http_uri value := by
    simp [is_http_uri]
  cases parsed : Url.path (Text.strip value) with
  | error raised =>
      refine .inl ⟨raised, ?_, path_error parsed⟩
      simp [content_id_from_uri, blank, sameWeb, web, parsed, bind, Except.bind]
  | ok path =>
      have unpathed : (∀ key, ldpContentKey? path = some key →
          isCidSegment key = true) → ¬ UnkeyedPath value := by
        rintro legal ⟨_, _, _, otherPath, key, again, also, illegal⟩
        rw [parsed, Except.ok.injEq] at again
        rw [← again] at also
        rw [legal key also] at illegal
        exact Bool.noConfusion illegal
      cases matched : ldpContentKey? path with
      | some key =>
          cases hex : digestSegment? (Text.lower key) with
          | some digest =>
              refine .inr ⟨some (to_ni digest), ?_, ?_, by simp⟩
              · simp [content_id_from_uri, blank, sameWeb, web, parsed,
                  matched, hex, bind, Except.bind]
              · intro id member
                obtain rfl := Option.some.inj member
                apply found_text (.named digest) (unpathed _)
                intro other again
                rw [matched, Option.some.injEq] at again
                exact again ▸ isCidSegment_of_digestSegment? matched hex
          | none =>
              refine .inr ⟨some key, ?_, ?_, by simp⟩
              · simp [content_id_from_uri, blank, sameWeb, web, parsed,
                  matched, hex, bind, Except.bind]
              · intro id member
                obtain rfl := Option.some.inj member
                exact found_of_key bare unnamed web parsed matched hex
      | none =>
          refine .inr ⟨registered, ?_, ?_, fun none => none ▸ looked⟩
          · simp [content_id_from_uri, blank, sameWeb, web, parsed, matched,
              bind, Except.bind, looked]
          · intro id member
            obtain ⟨content, rfl⟩ := canonical id member
            apply found_text content (unpathed _)
            intro key again
            rw [matched] at again
            cases again

/-- A resolution on a reached index refuses the value, knows no id for it, or
finds one. -/
theorem resolve_ofRows (value : String) :
    (∃ raised, resolve_intake_ref (some (.ofRows rows)) value = .error raised ∧
      raised.isValueError = true) ∨
    ∃ found after, resolve_intake_ref (some (.ofRows rows)) value =
        .ok (found, some after) ∧
      (isIntakeValue value = true → ∀ id ∈ found, Found value id) := by
  have sameHl : is_hl (Text.strip value) = is_hl value := by simp [is_hl]
  have sameNi := is_ni_or_digest_strip value
  have sameWeb : is_http_uri (Text.strip value) = is_http_uri value := by
    simp [is_http_uri]
  simp only [resolve_intake_ref, sameHl, sameNi, sameWeb]
  by_cases blank : Text.strip value = ""
  · exact .inr ⟨none, _, if_pos blank, by simp⟩
  rw [if_neg blank]
  by_cases linked : is_hl value = true
  · rw [if_pos linked]
    cases parsed : from_hl (Text.strip value) with
    | error raised => exact .inl ⟨raised, rfl, from_hl_error parsed⟩
    | ok pair =>
        obtain ⟨ni, uris⟩ := pair
        obtain ⟨digest, rfl⟩ := from_hl_digest parsed
        obtain ⟨after, hints⟩ := registerHints_ofRows rows digest uris
        refine .inr ⟨some (to_ni digest), after, ?_, ?_⟩
        · simp only [bind, Except.bind, hints]
        · intro _ id member
          obtain rfl := Option.some.inj member
          exact found_text (.named digest) fun unkeyed => by
            rw [unkeyed.1] at linked
            exact Bool.noConfusion linked
  rw [if_neg linked]
  by_cases named : is_ni_or_digest value = true
  · rw [if_pos named]
    cases read : from_ni (Text.strip value) with
    | error raised =>
        refine .inl ⟨raised, ?_, from_ni_error read⟩
        simp only [equality_id, Text.strip_strip, sameNi, named, if_true, read,
          Except.map]
    | ok digest =>
        refine .inr ⟨some (to_ni digest), .ofRows rows, ?_, ?_⟩
        · simp only [equality_id, Text.strip_strip, sameNi, named, if_true,
            read, Except.map]
        · intro _ id member
          obtain rfl := Option.some.inj member
          exact found_text (.named digest) fun unkeyed => by
            rw [unkeyed.2.1] at named
            exact Bool.noConfusion named
  rw [if_neg named]
  by_cases web : is_http_uri value = true
  · rw [if_pos web]
    rcases resolve_web rows (Bool.eq_false_iff.mpr linked)
      (Bool.eq_false_iff.mpr named) web blank with
      ⟨raised, refused, isValue⟩ | ⟨found, located, all, missing⟩
    · refine .inl ⟨raised, ?_, isValue⟩
      simp only [refused, bind, Except.bind]
    · simp only [located, bind, Except.bind]
      cases found with
      | some id => exact .inr ⟨some id, .ofRows rows, rfl, fun _ => all⟩
      | none =>
          refine .inr ⟨none, .ofRows rows, ?_, by simp⟩
          simp only [missing rfl, Except.map]
  · rw [if_neg web]
    refine .inr ⟨_, _, rfl, ?_⟩
    intro intake
    simp [isIntakeValue, linked, named, web] at intake

end Resolving

namespace BomRegistry

/-- Every record names an Order, and every list is one of canonical BOM ids. -/
structure Readable (registry : BomRegistry) : Prop where
  records : ∀ file ∈ registry.boms, ∃ record order,
    readJson file.data = .ok (.obj record) ∧
      record_order_id record = some order
  lists : ∀ dir key, ∃ boms : List ContentId,
    read_list (registry.lists dir key) = .ok (boms.map ContentId.text)

theorem mem_writeBom {file other : BomFile} {boms : List BomFile}
    (member : other ∈ writeBom file boms) : other = file ∨ other ∈ boms := by
  induction boms with
  | nil => exact .inl (List.mem_singleton.mp member)
  | cons first rest induction =>
      rw [writeBom] at member
      split_ifs at member
      · rcases List.mem_cons.mp member with here | later
        · exact .inl here
        · exact .inr (List.mem_cons_of_mem _ later)
      · rcases List.mem_cons.mp member with here | later
        · exact .inr (here ▸ List.mem_cons_self)
        · exact (induction later).imp_right (List.mem_cons_of_mem _)

/-- Appending keeps every list readable. -/
theorem append_index_readable {registry : BomRegistry} (dir : IndexDir)
    (key : String) (bom : ContentId) (readable : Readable registry) :
    ∃ after, append_index dir key bom.text registry = .ok () after ∧
      Readable after := by
  obtain ⟨boms, list⟩ := readable.lists dir key
  obtain ⟨after, ran, sameBoms, appendedTo, frame⟩ := append_index_ok list
  refine ⟨after, ran, ⟨sameBoms ▸ readable.records, ?_⟩⟩
  intro other name
  by_cases here : other = dir ∧ name = key
  · rw [here.1, here.2, appendedTo, appended]
    split_ifs
    · exact ⟨boms, rfl⟩
    · exact ⟨bom :: boms, rfl⟩
  · rw [frame other name here]
    exact readable.lists other name

theorem put_readable {registry : BomRegistry} (call : PutCall)
    (readable : Readable registry) :
    Readable (final (put call.record call.now registry)) := by
  cases read : entryOf call.record with
  | error raised => rwa [put_refused read, final_error]
  | ok entry =>
      have start : Readable (filed registry call.record call.now entry) := by
        refine ⟨?_, readable.lists⟩
        intro file member
        rcases mem_writeBom member with rfl | before
        · obtain ⟨_, record, parsed, _, order, _⟩ :=
            filed_recordFile call.valid call.now entry
          exact ⟨record, entry.order.text, parsed, order⟩
        · exact readable.records file before
      obtain ⟨middle, dataPut, dataReadable⟩ :=
        append_index_readable .by_data entry.data.key entry.bom start
      obtain ⟨after, orderPut, orderReadable⟩ :=
        append_index_readable .by_order entry.order.key entry.bom dataReadable
      rw [put_entry read, bind_run_ok dataPut, bind_run_ok orderPut]
      exact orderReadable

/-- Whatever is put, the files stay readable. -/
theorem run_readable (calls : List PutCall) : Readable (run calls) := by
  induction calls using List.reverseRecOn with
  | nil => exact ⟨by simp [run, empty], fun _ _ => ⟨[], rfl⟩⟩
  | append_singleton calls call induction =>
      simp only [run, List.foldl_append, List.foldl_cons, List.foldl_nil]
      exact put_readable call induction

theorem Readable.get {registry : BomRegistry} (readable : Readable registry)
    {id key : String}
    (keyed : content_id_fs_key id "content_id" = .ok key) :
    registry.get id = .ok none ∨ ∃ record order,
      registry.get id = .ok (some (.obj record)) ∧
        record_order_id record = some order := by
  simp only [BomRegistry.get, keyed, bind, Except.bind, file?]
  cases located : registry.boms.find? fun file => file.stem = key with
  | none => exact .inl rfl
  | some file =>
      obtain ⟨record, order, parsed, named⟩ :=
        readable.records file (List.mem_of_find?_eq_some located)
      refine .inr ⟨record, order, ?_, named⟩
      simp only [Option.map_some, parsed, Except.map]

end BomRegistry

section Steps

/-- The mesh's record is one of the node's Order. -/
def OfOrder (order : String) (found : String × Json) : Prop :=
  (found.2.fields?.bind BomRegistry.record_order_id) = some order

/-- One value, taken in by both. -/
theorem resolve_alike (rows : List LocatorRow) (value nodeLabel meshLabel : String) :
    Alike (fun id other => id = other ∧ Found value id)
      (Node.id_from_value value nodeLabel (.ofRows rows))
      (OrderOps.resolve value meshLabel (.ofRows rows)) := by
  unfold Node.id_from_value OrderOps.resolve
  by_cases intake : isIntakeValue value = true
  · rw [if_pos intake, if_pos intake, bind_run_ok (get_run _),
      bind_run_ok (get_run _)]
    rcases resolve_ofRows rows value with
      ⟨raised, refused, isValue⟩ | ⟨found, after, resolved, sound⟩
    · simp only [refused, Node.orInvalid, isValue, if_true]
      exact .refused _ _ _ (.inl rfl)
    · simp only [resolved]
      cases found with
      | none => exact .refused _ _ _ (.inr rfl)
      | some id => exact .returned after ⟨rfl, sound intake id rfl⟩
  · rw [if_neg intake, if_neg intake]
    exact .refused _ _ _ (.inl rfl)

theorem keyed_of_key {id label key : String}
    (keyed : content_id_fs_key id label = .ok key) : Keyed id := by
  rw [ContentId.content_id_fs_key_eq] at keyed
  cases parsed : ContentId.parse id label with
  | error raised => simp [parsed, Except.map] at keyed
  | ok content =>
      exact fun other => ⟨content.key,
        (ContentId.spells_of_parse parsed).key other⟩

theorem error_of_not_keyed {id : String} (unkeyed : ¬ Keyed id)
    (label : String) : ∃ raised,
      content_id_fs_key id label = .error raised ∧
        raised.isValueError = true := by
  cases keyed : content_id_fs_key id label with
  | ok key => exact absurd (keyed_of_key keyed) unkeyed
  | error raised => exact ⟨raised, rfl, content_id_fs_key_error keyed⟩

variable {registry : BomRegistry} {index : LocatorIndex} {id : String}

/-- Both read the record of one BOM. -/
theorem record_alike (readable : registry.Readable) (keyed : Keyed id)
    (label named : String) :
    Alike OfOrder
      ((do
        let resolved ← Node.orInvalid label (registry.lookup_order id)
        Node.orderOrNotFound resolved label named) index)
      (OrderOps.recordOf registry id index) := by
  obtain ⟨key, keyed⟩ := keyed "content_id"
  unfold OrderOps.recordOf BomRegistry.lookup_order
  rcases readable.get keyed with missing | ⟨record, order, found, ordered⟩
  · simp only [missing, bind, Except.bind]
    exact .refused _ _ _ (.inr rfl)
  · simp only [found, bind, Except.bind, Json.mapping, Except.map, ordered]
    exact .returned index ordered

/-- Both look for the one BOM of a data id. -/
theorem data_alike (readable : registry.Readable) (keyed : Keyed id) :
    Alike OfOrder (Node.order_of_data registry id index)
      ((OrderOps.uniqueBom registry id >>= OrderOps.recordOf registry)
        index) := by
  obtain ⟨key, keyed⟩ := keyed "data"
  obtain ⟨boms, list⟩ := readable.lists .by_data key
  have looked : registry.lookup_bom id = .ok (boms.map ContentId.text) := by
    simp only [BomRegistry.lookup_bom, keyed, bind, Except.bind, list]
  unfold Node.order_of_data OrderOps.uniqueBom BomRegistry.resolve_unique_bom
  rw [looked]
  match boms with
  | [] => exact .refused _ _ _ (.inr rfl)
  | [bom] =>
      have unique : Alike
          (fun found other => found = bom.text ∧ other = bom.text)
          ((pure bom.text : Node.Intake String) index)
          ((pure bom.text : OrderOps.Intake String) index) :=
        .returned index ⟨rfl, rfl⟩
      apply unique.bind
      rintro _ _ after _ ⟨rfl, rfl⟩
      have both := @record_alike registry after bom.text readable
        (keyed_text bom) "content_id" bom.text
      cases read : registry.lookup_order bom.text with
      | ok found =>
          rw [read] at both
          simp only [read]
          exact both
      | error raised =>
          obtain ⟨textKey, textKeyed⟩ := keyed_text bom "content_id"
          exfalso
          simp only [BomRegistry.lookup_order] at read
          rcases readable.get textKeyed with missing | ⟨record, _, found, _⟩
          · simp [missing, bind, Except.bind] at read
          · simp [found, bind, Except.bind, Json.mapping, Except.map] at read
  | first :: second :: rest => exact .ambiguous _ _ _ _

end Steps

section Runs

/-- The claim of agreement: the node returns the Order of the record the mesh
reaches, answers 409 when the mesh finds the data ambiguous and 400 or 404 when
the mesh raises a `RuntimeError`; both leave the same locators. -/
structure Agree
    (node : EStateM.Result Node.Failure LocatorIndex String)
    (mesh : EStateM.Result RegistryError LocatorIndex (String × Json)) :
    Prop where
  returned : ∀ order, (∃ index, node = .ok order index) ↔
    ∃ found index, mesh = .ok found index ∧ OfOrder order found
  ambiguous : (∃ payload index,
      node = .error (Node.refusal 409 payload) index) ↔
    ∃ key bom_ids index, mesh = .error (.ambiguous key bom_ids) index
  refused : (∃ status payload index, (status = 400 ∨ status = 404) ∧
      node = .error (Node.refusal status payload) index) ↔
    ∃ text index, mesh = .error (.other (.runtimeError text)) index
  locators : final node = final mesh

theorem status_of_refusal {left right : Nat} {payload other : Fields}
    (same : Node.refusal left payload = Node.refusal right other) :
    left = right :=
  congrArg Node.OrderIntakeError.status (Node.Failure.intake.inj same)

theorem Alike.agree
    {node : EStateM.Result Node.Failure LocatorIndex String}
    {mesh : EStateM.Result RegistryError LocatorIndex (String × Json)}
    (alike : Alike OfOrder node mesh) : Agree node mesh := by
  cases alike with
  | @returned order found index values =>
      refine ⟨?_, by simp, by simp, rfl⟩
      intro other
      constructor
      · rintro ⟨_, same⟩
        obtain ⟨rfl, rfl⟩ := EStateM.Result.ok.inj same
        exact ⟨found, index, rfl, values⟩
      · rintro ⟨_, _, same, also⟩
        obtain ⟨rfl, rfl⟩ := EStateM.Result.ok.inj same
        exact ⟨index, by rw [Option.some.inj (values.symm.trans also)]⟩
  | @refused status payload text index refusal =>
      refine ⟨by simp, ?_, ?_, rfl⟩
      · constructor
        · rintro ⟨_, _, same⟩
          have status := status_of_refusal (EStateM.Result.error.inj same).1
          omega
        · rintro ⟨_, _, _, same⟩
          exact nomatch same
      · exact iff_of_true ⟨status, payload, index, refusal, rfl⟩
          ⟨text, index, rfl⟩
  | ambiguous payload key bom_ids index =>
      refine ⟨by simp, ?_, ?_, rfl⟩
      · exact iff_of_true ⟨payload, index, rfl⟩ ⟨key, bom_ids, index, rfl⟩
      · constructor
        · rintro ⟨_, _, _, refusal, same⟩
          have status := status_of_refusal (EStateM.Result.error.inj same).1
          omega
        · rintro ⟨_, _, same⟩
          exact nomatch same

/-- The node refuses, and the mesh lets a `ValueError` out. -/
def Escapes (node : EStateM.Result Node.Failure LocatorIndex String)
    (mesh : EStateM.Result RegistryError LocatorIndex (String × Json)) :
    Prop :=
  ∃ payload raised index, raised.isValueError = true ∧
    node = .error (Node.refusal 400 payload) index ∧
    mesh = .error (.other raised) index

theorem Escapes.not_agree
    {node : EStateM.Result Node.Failure LocatorIndex String}
    {mesh : EStateM.Result RegistryError LocatorIndex (String × Json)}
    (escapes : Escapes node mesh) : ¬ Agree node mesh := by
  obtain ⟨payload, raised, index, isValue, rfl, rfl⟩ := escapes
  intro agree
  obtain ⟨text, _, same⟩ :=
    agree.refused.mp ⟨400, payload, index, .inl rfl, rfl⟩
  have other := RegistryError.other.inj (EStateM.Result.error.inj same).1
  rw [other] at isValue
  exact nomatch isValue

variable {registry : BomRegistry} {index : LocatorIndex} {id : String}

theorem record_escapes (unkeyed : ¬ Keyed id) (label named : String) :
    Escapes
      ((do
        let resolved ← Node.orInvalid label (registry.lookup_order id)
        Node.orderOrNotFound resolved label named) index)
      (OrderOps.recordOf registry id index) := by
  obtain ⟨raised, refused, isValue⟩ := error_of_not_keyed unkeyed "content_id"
  have got : registry.get id = .error raised := by
    simp only [BomRegistry.get, refused, bind, Except.bind]
  have looked : registry.lookup_order id = .error raised := by
    simp only [BomRegistry.lookup_order, got, bind, Except.bind]
  refine ⟨[("error", .str s!"invalid {label}")], raised, index, isValue, ?_, ?_⟩
  · simp only [looked, Node.orInvalid, isValue, if_true]
    exact bind_run_error (throw_run _ _)
  · simp only [OrderOps.recordOf, got]
    exact throw_run _ _

theorem data_escapes (unkeyed : ¬ Keyed id) :
    Escapes (Node.order_of_data registry id index)
      ((OrderOps.uniqueBom registry id >>= OrderOps.recordOf registry)
        index) := by
  obtain ⟨raised, refused, isValue⟩ := error_of_not_keyed unkeyed "data"
  have resolved : registry.resolve_unique_bom id = .error (.other raised) := by
    simp only [BomRegistry.resolve_unique_bom, BomRegistry.lookup_bom, refused,
      bind, Except.bind]
  refine ⟨[("error", .str "invalid content_id")], raised, index, isValue, ?_,
    ?_⟩
  · simp only [Node.order_of_data, resolved, Node.orInvalid, isValue, if_true]
    exact bind_run_error (throw_run _ _)
  · simp only [OrderOps.uniqueBom, resolved]
    exact bind_run_error (throw_run _ _)

end Runs

section Requests

theorem textOr_given (given : Option Given) (other : Option String) :
    textOr (given.map Subtype.val) other = (given.map Subtype.val).or other := by
  cases given with
  | none => rfl
  | some given => simp [textOr, given.property]

/-- A path key that is no segment is what both resolve the locator to. -/
theorem resolve_of_unkeyed (rows : List LocatorRow) {value : String}
    (unkeyed : UnkeyedPath value) : ∃ key, ¬ Keyed key ∧ Plain key ∧
      ∀ label,
        Node.id_from_value value label (.ofRows rows) =
            .ok key (.ofRows rows) ∧
        OrderOps.resolve value label (.ofRows rows) =
            .ok key (.ofRows rows) := by
  obtain ⟨bare, unnamed, web, path, key, parsed, matched, illegal⟩ := unkeyed
  have other : digestSegment? (Text.lower key) = none := by
    cases hex : digestSegment? (Text.lower key) with
    | none => rfl
    | some digest =>
        rw [isCidSegment_of_digestSegment? matched hex] at illegal
        exact Bool.noConfusion illegal
  have found := found_of_key bare unnamed web parsed matched other
  have intake : isIntakeValue value = true := by
    simp [isIntakeValue, web]
  have sameHl : is_hl (Text.strip value) = is_hl value := by simp [is_hl]
  have sameNi := is_ni_or_digest_strip value
  have sameWeb : is_http_uri (Text.strip value) = is_http_uri value := by
    simp [is_http_uri]
  have present : Text.strip value ≠ "" := by
    intro blank
    rw [← sameWeb, blank] at web
    exact absurd web (by decide)
  have resolved : resolve_intake_ref (some (.ofRows rows)) value =
      .ok (some key, some (.ofRows rows)) := by
    simp [resolve_intake_ref, present, sameHl, bare, sameNi, unnamed, sameWeb,
      web, content_id_from_uri, parsed, matched, other, bind, Except.bind]
  refine ⟨key, ?_, found.plain, ?_⟩
  · intro keyed
    exact found.keyed.mp keyed
      ⟨bare, unnamed, web, path, key, parsed, matched, illegal⟩
  intro label
  unfold Node.id_from_value OrderOps.resolve
  rw [if_pos intake, if_pos intake, bind_run_ok (get_run _),
    bind_run_ok (get_run _), resolved]
  exact ⟨rfl, rfl⟩

/-- Two continuations of one resolution agree exactly when the locator's path
names a file. -/
theorem resolved_agree_iff (rows : List LocatorRow)
    (value nodeLabel meshLabel : String) {nextNode : String → Node.Intake String}
    {nextMesh : String → OrderOps.Intake (String × Json)}
    (keyed : ∀ id index, Keyed id → Plain id →
      Alike OfOrder (nextNode id index) (nextMesh id index))
    (unkeyed : ∀ id index, ¬ Keyed id → Plain id →
      Escapes (nextNode id index) (nextMesh id index)) :
    Agree ((Node.id_from_value value nodeLabel >>= nextNode) (.ofRows rows))
        ((OrderOps.resolve value meshLabel >>= nextMesh) (.ofRows rows)) ↔
      ¬ UnkeyedPath value := by
  by_cases bad : UnkeyedPath value
  · obtain ⟨key, missing, plain, resolved⟩ := resolve_of_unkeyed rows bad
    rw [bind_run_ok (resolved nodeLabel).1, bind_run_ok (resolved meshLabel).2]
    exact iff_of_false (unkeyed key _ missing plain).not_agree
      (not_not_intro bad)
  · apply iff_of_true _ bad
    apply Alike.agree
    apply (resolve_alike rows value nodeLabel meshLabel).bind
    rintro id _ after _ ⟨rfl, found⟩
    exact keyed id after (found.keyed.mpr bad) found.plain

end Requests

section Agreement

variable {registry : BomRegistry} (readable : registry.Readable)
  (rows : List LocatorRow)

include readable

/-- What both do with the locator of a BOM. -/
theorem bom_locator_agree_iff (locator : String) :
    Agree
      ((Node.id_from_value locator "bom_uri" >>= fun bom_id => do
        let resolved ← Node.orInvalid "bom_uri" (registry.lookup_order bom_id)
        Node.orderOrNotFound resolved "bom_uri" locator) (.ofRows rows))
      ((OrderOps.resolve locator "bom_uri" >>= OrderOps.recordOf registry)
        (.ofRows rows)) ↔
      ¬ UnkeyedPath locator :=
  resolved_agree_iff rows locator "bom_uri" "bom_uri"
    (fun _ _ keyed _ => record_alike readable keyed "bom_uri" locator)
    (fun _ _ unkeyed _ => record_escapes unkeyed "bom_uri" locator)

/-- What both do with an id of data that needs no resolution. -/
theorem data_id_agree_iff (id : String) (index : LocatorIndex) :
    Agree (Node.order_of_data registry id index)
      ((OrderOps.uniqueBom registry id >>= OrderOps.recordOf registry)
        index) ↔ Keyed id := by
  by_cases keyed : Keyed id
  · exact iff_of_true (data_alike readable keyed).agree keyed
  · exact iff_of_false (data_escapes keyed).not_agree keyed

/-- What both do with a locator of data. -/
theorem data_locator_agree_iff (locator nodeLabel meshLabel : String) :
    Agree
      ((Node.id_from_value locator nodeLabel >>=
        Node.order_of_data registry) (.ofRows rows))
      ((OrderOps.resolve locator meshLabel >>= fun id =>
        OrderOps.uniqueBom registry id >>= OrderOps.recordOf registry)
        (.ofRows rows)) ↔
      ¬ UnkeyedPath locator :=
  resolved_agree_iff rows locator nodeLabel meshLabel
    (fun _ _ keyed _ => data_alike readable keyed)
    (fun _ _ unkeyed _ => data_escapes unkeyed)

end Agreement

section Plans

variable (registry : BomRegistry) (selection : Selection)

theorem bom_locator_text (last : Option String)
    (ends : last = selection.bom_solid_uri.map Subtype.val) :
    textOr selection.request.bom_uri
        (textOr selection.request.bom_ldp_uri last) =
      selection.bom_locator.map Subtype.val := by
  obtain ⟨_, _, _, bom_uri, bom_ldp_uri, bom_solid_uri⟩ := selection
  subst ends
  simp only [Selection.request, Selection.bom_locator, textOr_given]
  cases bom_uri <;> cases bom_ldp_uri <;> rfl

theorem data_id_text (last : Option String)
    (ends : last = selection.hl.map Subtype.val) :
    textOr selection.request.content_id last =
      selection.data_id.map Subtype.val := by
  obtain ⟨content_id, _, _, _, _, _⟩ := selection
  subst ends
  simp only [Selection.request, Selection.data_id, textOr_given]
  cases content_id <;> rfl

theorem textOr_none (given : Option Given) :
    textOr (given.map Subtype.val) none = given.map Subtype.val := by
  rw [textOr_given, Option.or_none]

/-- What the node does with a selection. -/
theorem resolve_order_id_request :
    Node.resolve_order_id registry selection.request =
      match selection.bom_locator, selection.data_id, selection.data_uri with
      | some locator, _, _ =>
          Node.id_from_value locator.val "bom_uri" >>= fun bom_id => do
            let resolved ←
              Node.orInvalid "bom_uri" (registry.lookup_order bom_id)
            Node.orderOrNotFound resolved "bom_uri" locator.val
      | none, some id, _ =>
          Node.id_of_locator id.val >>= Node.order_of_data registry
      | none, none, some uri =>
          Node.id_from_value uri.val "data_uri" >>= fun id =>
            Node.id_of_locator id >>= Node.order_of_data registry
      | none, none, none => throw (Node.refusal 400 [("error", .str
          ("order_uri, data_uri, bom_ldp_uri / bom_solid_uri, " ++
            "content_id, or hl required"))]) := by
  have locator := bom_locator_text selection
    (textOr selection.request.bom_solid_uri none)
    (textOr_none selection.bom_solid_uri)
  have data := data_id_text selection (textOr selection.request.hl none)
    (textOr_none selection.hl)
  have uri : textOr selection.request.data_uri none =
      selection.data_uri.map Subtype.val := textOr_none selection.data_uri
  have order : textOr selection.request.order_uri none = none := rfl
  have legacy : namesGiven [("order_cid", selection.request.order_cid),
      ("bom_cid", selection.request.bom_cid),
      ("data_cid", selection.request.data_cid)] = [] := rfl
  unfold Node.resolve_order_id
  simp only [legacy, ne_eq, not_true_eq_false, if_false, order, locator, data,
    uri]
  cases selection.bom_locator with
  | some locator => simp only [Option.map_some]
  | none =>
      cases selection.data_id with
      | some id => simp only [Option.map_none, Option.map_some]
      | none =>
          cases selection.data_uri with
          | some uri => simp only [Option.map_none, Option.map_some]
          | none => simp only [Option.map_none]

/-- What the mesh does with a selection. -/
theorem record_from_registry_request :
    OrderOps.record_from_registry registry selection.request =
      match selection.bom_locator, selection.data_id, selection.data_uri with
      | some locator, _, _ =>
          OrderOps.resolve locator.val "bom_uri" >>=
            OrderOps.recordOf registry
      | none, some id, _ =>
          OrderOps.id_of_locator (some id.val) >>= fun data_id =>
            OrderOps.uniqueBom registry (data_id.getD "") >>=
              OrderOps.recordOf registry
      | none, none, some uri =>
          OrderOps.resolve uri.val "data_uri" >>= fun id =>
            OrderOps.id_of_locator (some id) >>= fun data_id =>
              OrderOps.uniqueBom registry (data_id.getD "") >>=
                OrderOps.recordOf registry
      | none, none, none => OrderOps.raise
          ("content_id, hl, data_uri, or bom_uri required when " ++
            "cat_response is omitted") := by
  have locator := bom_locator_text selection selection.request.bom_solid_uri rfl
  have data := data_id_text selection selection.request.hl rfl
  have uri : textOr selection.request.data_uri none =
      selection.data_uri.map Subtype.val := textOr_none selection.data_uri
  have legacy : namesGiven [("bom_cid", selection.request.bom_cid),
      ("data_cid", selection.request.data_cid)] = [] := rfl
  unfold OrderOps.record_from_registry
  simp only [legacy, ne_eq, not_true_eq_false, if_false, locator, data,
    OrderOps.id_of_data_uri, uri, textOr_none]
  cases selection.bom_locator with
  | some locator =>
      simp only [Option.map_some, reduceCtorEq, and_false, if_false]
  | none =>
      have nothing : (selection.request.content_id = none ∧
          selection.request.hl = none) ↔ selection.data_id = none := by
        obtain ⟨content_id, hl, _, _, _, _⟩ := selection
        cases content_id <;> cases hl <;> simp [Selection.request,
          Selection.data_id]
      have asked : (selection.request.content_id = none ∧
          selection.request.hl = none ∧ selection.request.data_uri = none ∧
          Option.map Subtype.val (none : Option Given) = none) ↔
          selection.data_id = none ∧ selection.data_uri = none := by
        rw [← and_assoc, nothing]
        simp [Selection.request]
      simp only [asked]
      cases selection.data_id with
      | some id =>
          simp only [reduceCtorEq, false_and, if_false, Option.map_some,
            Option.map_none]
          rfl
      | none =>
          cases selection.data_uri with
          | some uri =>
              simp only [reduceCtorEq, and_false, if_false, Option.map_some,
                Option.map_none, bind_assoc, pure_bind]
          | none => simp only [and_self, if_true, Option.map_none]

end Plans

theorem id_of_locator_plain {id : String} (plain : Plain id) :
    Node.id_of_locator id = pure id ∧
      OrderOps.id_of_locator (some id) = pure (some id) := by
  constructor
  · simp [Node.id_of_locator, plain.1, plain.2]
  · unfold OrderOps.id_of_locator textOr
    by_cases empty : id = ""
    · simp [empty]
    · simp [empty, plain.1, plain.2]

/-- Selection by selection, on readable files. -/
theorem selection_agree_iff {registry : BomRegistry}
    (readable : registry.Readable) (rows : List LocatorRow)
    (selection : Selection) :
    Agree (Node.resolve_order_id registry selection.request (.ofRows rows))
      (OrderOps.record_from_registry registry selection.request
        (.ofRows rows)) ↔ selection.LooksUpFile := by
  rw [resolve_order_id_request, record_from_registry_request]
  unfold Selection.LooksUpFile
  cases selection.bom_locator with
  | some locator => exact bom_locator_agree_iff readable rows locator.val
  | none =>
      cases selection.data_id with
      | some id =>
          simp only []
          split_ifs with locator
          · have second : OrderOps.id_of_locator (some id.val) =
                OrderOps.resolve id.val "content_id" >>= fun found =>
                  pure (some found) := by
              simp only [OrderOps.id_of_locator, textOr, id.property, if_false,
                locator, if_true]
            rw [Node.id_of_locator, if_pos locator, second, bind_assoc]
            simp only [pure_bind, Option.getD_some]
            exact data_locator_agree_iff readable rows id.val _ _
          · have plain : Plain id.val := by
              simpa [Plain] using locator
            obtain ⟨onNode, onMesh⟩ := id_of_locator_plain plain
            rw [onNode, onMesh, pure_bind, pure_bind, Option.getD_some]
            exact data_id_agree_iff readable id.val _
      | none =>
          cases selection.data_uri with
          | some uri =>
              apply resolved_agree_iff rows uri.val "data_uri" "data_uri"
              · intro id index keyed plain
                obtain ⟨onNode, onMesh⟩ := id_of_locator_plain plain
                rw [onNode, onMesh, pure_bind, pure_bind, Option.getD_some]
                exact data_alike readable keyed
              · intro id index unkeyed plain
                obtain ⟨onNode, onMesh⟩ := id_of_locator_plain plain
                rw [onNode, onMesh, pure_bind, pure_bind, Option.getD_some]
                exact data_escapes unkeyed
          | none =>
              exact iff_of_true (Alike.agree
                (.refused _ _ _ (.inl rfl))) trivial

/-- A client that names its BOM by an `ni:` id. -/
def namedSelection : Selection :=
  { bom_uri := some
      ⟨"ni:///sha-256;q6urq6urq6urq6urq6urq6urq6urq6urq6urq6urq6s",
        by decide⟩ }

/-- A BOM locator with an underscore in its key. -/
def underscoreSelection : Selection :=
  { bom_uri := some ⟨"http://n/ldp/boms/a_b", by decide⟩ }

end Cats
