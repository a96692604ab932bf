import Cats.Mesh.InvoiceStages
import Cats.Registry.SameContent

/-!
# The pairs an Invoice's stages are reported in

A run of `resolve_invoice_data_stages` reads a few slots, of the Invoice and of
the `data_stages` document it cites, and puts its result together from what
they read as.  The locator and the id of a stage may then come from two slots.
-/

namespace Cats

open Effect

namespace ContentMesh

/-- A slot, read with the locators the Node had at the time. -/
structure SlotReading (fields : Fields) (stem : String) where
  index : Option LocatorIndex
  id : Option String
  left : Option LocatorIndex
  read : ref_id index fields stem = .ok (id, left)

namespace SlotReading

variable {fields : Fields} {stem : String}

def uri (_ : SlotReading fields stem) : Option String := ref_uri fields stem

/-- The slot reads as this locator and this id. -/
def Gives (slot : SlotReading fields stem) (uri id : Option String) : Prop :=
  uri = slot.uri ∧ id = slot.id

def Cited (slot : SlotReading fields stem) : Prop :=
  slot.uri.isSome ∨ slot.id.isSome

end SlotReading

/-- The stages before egress. -/
inductive Earlier where
  | ingress
  | integration
  deriving DecidableEq

namespace Earlier

/-- The stem of the stage in a `data_stages` document. -/
def nestStem : Earlier → String
  | ingress => "ingressed_data"
  | integration => "integrated_data"

/-- The stem of the stage in the Invoice itself. -/
def flatStem : Earlier → String
  | ingress => "ingress_data"
  | integration => "integration_data"

/-- The id reported for the stage. -/
def idIn : Earlier → DataStages → Option String
  | ingress, stages => stages.ingress_data_id
  | integration, stages => stages.integration_data_id

/-- The locator reported for the stage. -/
def uriIn : Earlier → DataStages → Option String
  | ingress, stages => stages.ingress_data_uri
  | integration, stages => stages.integration_data_uri

end Earlier

/-- Where a run reads the stages: in the document, when the Invoice leads to a
JSON object, or else in the Invoice. -/
inductive StageSource (invoice : Fields) where
  | nest (fields : Fields)
      (slots : (stage : Earlier) → SlotReading fields stage.nestStem)
      (egressed : SlotReading fields "egressed_data")
  | flat (slots : (stage : Earlier) → SlotReading invoice stage.flatStem)

/-- What one run reads. -/
structure StageReadings (invoice : Fields) where
  data_stages : SlotReading invoice "data_stages"
  source : StageSource invoice
  data : SlotReading invoice "data"

/-- The stages put together from what was read. -/
def StageReadings.stages {invoice : Fields}
    (readings : StageReadings invoice) : DataStages :=
  let start : DataStages :=
    match readings.source with
    | .nest _ slots egressed =>
        { ingress_data_id := (slots .ingress).id
          integration_data_id := (slots .integration).id
          egress_data_id := egressed.id
          ingress_data_uri := (slots .ingress).uri
          integration_data_uri := (slots .integration).uri
          egress_data_uri := egressed.uri }
    | .flat slots =>
        { ingress_data_id := (slots .ingress).id
          integration_data_id := (slots .integration).id
          ingress_data_uri := (slots .ingress).uri
          integration_data_uri := (slots .integration).uri }
  { start with
    data_stages_id := readings.data_stages.id
    data_stages_uri := readings.data_stages.uri
    egress_data_uri := readings.data.uri.or start.egress_data_uri
    egress_data_id := idOr readings.data.id start.egress_data_id }

section Ids

variable {index left : Option LocatorIndex} {fields : Fields} {stem : String}

theorem equalityOr_ne_empty {found id : String} (nonempty : found ≠ "")
    (read : equalityOr found = .ok id) : id ≠ "" := by
  unfold equalityOr at read
  split at read
  · rename_i named
    have strips : is_ni_or_digest (Text.strip found) = true := by
      rw [is_ni_or_digest_strip]
      exact named
    unfold equality_id at read
    simp only [strips, if_true] at read
    obtain ⟨digest, -, rfl⟩ := map_eq_ok.mp read
    exact to_ni_ne_empty digest
  · cases read
    exact nonempty

theorem registeredId_ne_empty {uri id : String}
    (read : registeredId index uri = .ok (some id)) : id ≠ "" := by
  unfold registeredId at read
  cases index with
  | none => cases read
  | some index =>
      obtain ⟨found, -, read⟩ := Raised.bind_returns read
      cases found with
      | none => cases read
      | some found =>
          simp only at read
          split at read
          · cases read
          · rename_i nonempty
            obtain ⟨value, same, wrapped⟩ := map_eq_ok.mp read
            cases wrapped
            exact equalityOr_ne_empty nonempty same

theorem content_id_from_uri_ne_empty {uri id : String}
    (read : content_id_from_uri index uri = .ok (some id)) : id ≠ "" := by
  unfold content_id_from_uri at read
  split at read
  · cases read
  · obtain ⟨path, -, read⟩ := Raised.bind_returns read
    split at read
    · rename_i key matched
      split at read
      · cases read
        exact to_ni_ne_empty _
      · cases read
        exact (keyChars_of_ldpContentKey? matched).1
    · exact registeredId_ne_empty read

theorem legacyId_ne_empty {id : String} (bare : stem ≠ "" ∧ stem ≠ "content")
    (read : legacyId fields stem = .ok (some id)) : id ≠ "" := by
  unfold legacyId at read
  simp only [bare.1, bare.2] at read
  split at read
  · split at read
    · cases read
    · rename_i nonblank
      obtain ⟨value, same, wrapped⟩ := map_eq_ok.mp read
      cases wrapped
      exact equalityOr_ne_empty nonblank same
  · cases read

theorem ref_uri_nonblank {uri : String}
    (cited : ref_uri fields stem = some uri) : Text.strip uri ≠ "" := by
  unfold ref_uri at cited
  split at cited
  · split at cited
    · cases cited
    · rename_i nonblank
      cases cited
      rw [Text.strip_strip]
      exact nonblank
  · cases cited

/-- The places an id that is no hashlink's is read from. -/
def FromText (index : Option LocatorIndex) (fields : Fields)
    (stem id : String) : Prop :=
  (∃ uri, content_id_from_uri index uri = .ok (some id)) ∨
    (∃ value, value ≠ "" ∧ equalityOr value = .ok id) ∨
    legacyId fields stem = .ok (some id)

/-- Only a hashlink changes the locators, and its id does not depend on
them. -/
theorem ref_id_cases {id : Option String}
    (read : ref_id index fields stem = .ok (id, left)) :
    (∃ uri ni hints, ref_uri fields stem = some uri ∧ is_hl uri = true ∧
      from_hl (Text.strip uri) = .ok (ni, hints) ∧ id = some ni ∧
      left.isSome = index.isSome) ∨
    (left = index ∧
      (∀ found, id = some found → FromText index fields stem found) ∧
      ∀ uri, ref_uri fields stem = some uri → is_hl uri = true →
        id = none) := by
  have legacyCase : ∀ {result : Option String × Option LocatorIndex},
      ((legacyId fields stem).map fun id => (id, index)) = .ok result →
      result.2 = index ∧
        ∀ found, result.1 = some found → FromText index fields stem found := by
    intro result read
    obtain ⟨value, legacy, rfl⟩ := map_eq_ok.mp read
    constructor
    · rfl
    · intro found same
      right
      right
      rw [legacy]
      exact congrArg Except.ok same
  unfold ref_id at read
  cases cited : ref_uri fields stem with
  | none =>
      simp only [cited] at read
      right
      obtain ⟨same, places⟩ := legacyCase read
      exact ⟨same, places, fun _ missing => nomatch missing⟩
  | some uri =>
      simp only [cited] at read
      by_cases hashlink : is_hl uri = true
      · have strips : is_hl (Text.strip uri) = true := by
          simpa [is_hl] using hashlink
        simp only [hashlink, if_true] at read
        split at read
        · rename_i resolved found
          cases read
          unfold resolve_intake_ref at found
          simp only [strips, if_true] at found
          split at found
          · cases found
            right
            simp
          · left
            obtain ⟨⟨ni, hints⟩, parsed, found⟩ := Raised.bind_returns found
            refine ⟨uri, ni, hints, rfl, hashlink, parsed, ?_⟩
            cases index with
            | none =>
                cases found
                simp
            | some home =>
                obtain ⟨registered, -, found⟩ := Raised.bind_returns found
                cases found
                simp
        · right
          split at read
          · cases read
            simp
          · cases read
      · right
        have other : ∀ link, some uri = some link → is_hl link = true →
            id = none := by
          intro link same isHl
          cases same
          exact absurd isHl hashlink
        rw [if_neg hashlink] at read
        split at read
        · obtain ⟨found, named, read⟩ := Raised.bind_returns read
          split at read
          · cases read
            refine ⟨rfl, ?_, other⟩
            intro id same
            left
            exact ⟨uri, named.trans (congrArg Except.ok same)⟩
          · obtain ⟨same, places⟩ := legacyCase read
            exact ⟨same, places, other⟩
        · obtain ⟨value, spelled, same⟩ := map_eq_ok.mp read
          cases same
          refine ⟨rfl, ?_, other⟩
          intro id same
          cases same
          right
          left
          exact ⟨Text.strip uri, ref_uri_nonblank cited, spelled⟩

/-- A slot reads as no empty id. -/
theorem ref_id_ne_empty {id : String} (bare : stem ≠ "" ∧ stem ≠ "content")
    (read : ref_id index fields stem = .ok (some id, left)) : id ≠ "" := by
  obtain ⟨uri, ni, hints, -, -, parsed, same, -⟩ | ⟨-, places, -⟩ :=
    ref_id_cases read
  · obtain ⟨digest, rfl⟩ := from_hl_digest parsed
    cases same
    exact to_ni_ne_empty digest
  · obtain ⟨uri, named⟩ | ⟨value, nonempty, spelled⟩ | legacy :=
      places id rfl
    · exact content_id_from_uri_ne_empty named
    · exact equalityOr_ne_empty nonempty spelled
    · exact legacyId_ne_empty bare legacy

theorem ref_id_isSome {id : Option String}
    (read : ref_id index fields stem = .ok (id, left)) :
    left.isSome = index.isSome := by
  obtain ⟨_, _, _, -, -, -, -, kept⟩ | ⟨same, -⟩ := ref_id_cases read
  · exact kept
  · rw [same]

/-- A slot read again reads the same, or as no id. -/
theorem ref_id_again {id again : Option String} {later : Option LocatorIndex}
    (read : ref_id index fields stem = .ok (id, left))
    (reread : ref_id left fields stem = .ok (again, later)) :
    again = id ∨ again = none := by
  obtain ⟨uri, ni, hints, cited, hashlink, parsed, same, -⟩ | ⟨same, -⟩ :=
    ref_id_cases read
  · obtain ⟨uri', ni', hints', cited', -, parsed', same', -⟩ | ⟨-, -, none⟩ :=
      ref_id_cases reread
    · rw [cited] at cited'
      cases cited'
      rw [parsed] at parsed'
      cases parsed'
      left
      rw [same, same']
    · right
      exact none uri cited hashlink
  · left
    rw [same, read] at reread
    cases reread
    rfl

end Ids

section Reading

variable (net : Network)

/-- `ref_id`, with the locators it was called with. -/
def SlotReading.of (index : Option LocatorIndex) (fields : Fields)
    (stem : String) :
    Except Raised (SlotReading fields stem × Option LocatorIndex) :=
  match read : ref_id index fields stem with
  | .ok (id, left) => .ok (⟨index, id, left, read⟩, left)
  | .error raised => .error raised

theorem SlotReading.of_id (index : Option LocatorIndex) (fields : Fields)
    (stem : String) :
    ref_id index fields stem =
      (SlotReading.of index fields stem).map fun (slot, left) =>
        (slot.id, left) := by
  unfold SlotReading.of
  split
  · rename_i id left read
    exact read
  · rename_i raised read
    exact read

/-- `refId` that keeps the locators it was called with. -/
def readSlot (fields : Fields) (stem : String) :
    Act (SlotReading fields stem) :=
  Act.withIndex fun index => SlotReading.of index fields stem

def readEarlier (fields : Fields) (stem : Earlier → String) :
    Act ((stage : Earlier) → SlotReading fields (stem stage)) := do
  let ingress ← readSlot fields (stem .ingress)
  let integration ← readSlot fields (stem .integration)
  pure fun
    | .ingress => ingress
    | .integration => integration

/-- The document the `data_stages` slot leads to, if it can be read. -/
def readNest {invoice : Fields}
    (slot : SlotReading invoice "data_stages") : Act (Option Json) :=
  match idOr slot.uri slot.id with
  | some locator =>
      if locator = "" then pure none
      else attempt (catDocument net locator)
  | none => pure none

def readSource (invoice : Fields) (nest : Option Json) :
    Act (StageSource invoice) :=
  match nest with
  | some (.obj fields) => do
      let slots ← readEarlier fields Earlier.nestStem
      let egressed ← readSlot fields "egressed_data"
      pure (.nest fields slots egressed)
  | _ => do
      let slots ← readEarlier invoice Earlier.flatStem
      pure (.flat slots)

/-- The reads of `resolve_invoice_data_stages`, in their order. -/
def readStages (invoice : Fields) : Act (StageReadings invoice) := do
  let data_stages ← readSlot invoice "data_stages"
  let nest ← readNest net data_stages
  let source ← readSource invoice nest
  let data ← readSlot invoice "data"
  pure ⟨data_stages, source, data⟩

/-- `refId` returns the id of the reading. -/
theorem refId_eq (fields : Fields) (stem : String) :
    refId fields stem =
      (readSlot fields stem >>= fun slot => pure slot.id) := by
  funext machine
  unfold refId readSlot Act.withIndex
  simp only [bind_assoc, pure_bind]
  rw [bind_run_ok (get_run machine), bind_run_ok (get_run machine),
    SlotReading.of_id]
  cases SlotReading.of (machine.home.map Home.index) fields stem with
  | ok found => rfl
  | error raised => rfl

theorem readSource_flat (invoice : Fields) {nest : Option Json}
    (other : ∀ fields, nest = some (.obj fields) → False) :
    readSource invoice nest =
      (readEarlier invoice Earlier.flatStem >>= fun slots =>
        pure (.flat slots)) := by
  unfold readSource
  split
  · rename_i fields
    exact (other fields rfl).elim
  · rfl

/-- A run reads its slots and only puts them together. -/
theorem resolve_invoice_data_stages_eq (invoice : Fields) :
    resolve_invoice_data_stages net invoice =
      (readStages net invoice >>= fun readings => pure readings.stages) := by
  unfold resolve_invoice_data_stages readStages readNest SlotReading.uri
  simp only [refId_eq, bind_assoc, pure_bind]
  congr 1
  funext data_stages
  -- one case for each way to a document, and the Invoice's fields otherwise
  cases idOr (ref_uri invoice "data_stages") data_stages.id with
  | none =>
      simp only [pure_bind, readSource, readEarlier, flatStages, refId_eq,
        bind_assoc]
      rfl
  | some locator =>
      by_cases empty : locator = ""
      · simp only [empty, if_true, pure_bind, readSource, readEarlier,
          flatStages, refId_eq, bind_assoc]
        rfl
      · simp only [empty, if_false]
        congr 1
        funext nest
        split
        · simp only [readSource, readEarlier, nestedStages, refId_eq,
            bind_assoc, pure_bind]
          rfl
        · rename_i other
          simp only [readSource_flat invoice other, readEarlier, flatStages,
            refId_eq, bind_assoc, pure_bind]
          rfl

end Reading

section Law

/-- `repr` of an id that may be missing. -/
def reprId : Option String → String
  | none => "None"
  | some id => Text.repr id

/-- The comparison of `assert_egressed_matches_data`. -/
def compareEgressed (data_id egressed_id : Option String) :
    Except Raised Unit := do
  let data_key ← digest_key data_id
  let egressed_key ← digest_key egressed_id
  match data_key.filter (· ≠ ""), egressed_key.filter (· ≠ "") with
  | some data_key, some egressed_key =>
      if data_key ≠ egressed_key then
        .error (.assertionError
          ("data_stages.egressed_data digest " ++ Text.repr egressed_key ++
            " != invoice.data digest " ++ Text.repr data_key))
      else .ok ()
  | _, _ =>
      .error (.assertionError
        ("cannot compare data/egressed digests: data=" ++ reprId data_id ++
          " egressed=" ++ reprId egressed_id))

/-- `assert_egressed_matches_data(invoice, nest, cats_home=cats_home)`. -/
def assert_egressed_matches_data (invoice nest : Fields) : Act Unit := do
  let data_id ← refId invoice "data"
  let egressed_id ← refId nest "egressed_data"
  Act.lift (compareEgressed data_id egressed_id)

variable {invoice : Fields}

/-- A stage before egress is reported as the document cites it, or else as the
Invoice does. -/
def StageSource.Gives (source : StageSource invoice) (stage : Earlier)
    (uri id : Option String) : Prop :=
  match source with
  | .nest _ slots _ =>
      ((slots stage).Cited → (slots stage).Gives uri id) ∧
      (¬ (slots stage).Cited →
        ∃ flat : SlotReading invoice stage.flatStem,
          flat.index = (slots stage).index ∧ flat.Gives uri id)
  | .flat slots => (slots stage).Gives uri id

/-- What the stages of an Invoice should be, given what the run read. -/
structure StagesPaired (readings : StageReadings invoice)
    (stages : DataStages) (after : Machine) : Prop where
  data_stages : readings.data_stages.Gives stages.data_stages_uri
    stages.data_stages_id
  earlier : ∀ stage : Earlier,
    readings.source.Gives stage (stage.uriIn stages) (stage.idIn stages)
  egress : ∀ uri id, stages.egress_data_uri = some uri →
    stages.egress_data_id = some id →
    readings.data.Gives (some uri) (some id) ∨
      ∃ nest slots egressed, readings.source = .nest nest slots egressed ∧
        egressed.Gives (some uri) (some id)
  data : ∀ id, readings.data.id = some id → stages.egress_data_id = some id
  matched : ∀ nest slots egressed,
    readings.source = .nest nest slots egressed → ∀ done,
    assert_egressed_matches_data invoice nest after = .ok () done →
    ∃ middle one other, refId invoice "data" after = .ok (some one) middle ∧
      refId nest "egressed_data" middle = .ok (some other) done ∧
      stages.egress_data_id = some one ∧ same_id one other = .ok true

/-- One of two egress slots has only a locator and the other, or only it, an
id that is not for this locator. -/
def Crossed {nest : Fields} (data : SlotReading invoice "data")
    (egressed : SlotReading nest "egressed_data") : Prop :=
  (data.uri.isSome ∧ data.id = none ∧ egressed.id.isSome ∧
      egressed.uri ≠ data.uri) ∨
    (data.uri = none ∧ data.id.isSome ∧ egressed.uri.isSome ∧
      egressed.id ≠ data.id)

/-- Neither field of a slot says anything. -/
def Uncited (fields : Fields) (stem : String) : Prop :=
  ref_uri fields stem = none ∧ legacyId fields stem = .ok none

/-- Two ids that are no digests and differ only in the case of letters. -/
def DifferInLetters (one other : String) : Prop :=
  is_ni_or_digest one = false ∧ is_ni_or_digest other = false ∧
    Text.strip one ≠ Text.strip other ∧
    Text.lower (Text.strip one) = Text.lower (Text.strip other)

/-- When a document and its Invoice lead to the same stages. -/
structure NestAgrees (data : SlotReading invoice "data") (nest : Fields)
    (slots : (stage : Earlier) → SlotReading nest stage.nestStem)
    (egressed : SlotReading nest "egressed_data") (after : Machine) :
    Prop where
  uncrossed : ¬ Crossed data egressed
  earlier : ∀ stage : Earlier,
    (slots stage).Cited ∨ Uncited invoice stage.flatStem
  letters : ∀ middle done one other,
    refId invoice "data" after = .ok (some one) middle →
    refId nest "egressed_data" middle = .ok (some other) done →
    ¬ DifferInLetters one other

/-- The Invoice's own fields are read, or the document agrees with them. -/
def StageReadings.Agree (readings : StageReadings invoice)
    (after : Machine) : Prop :=
  match readings.source with
  | .nest nest slots egressed =>
      NestAgrees readings.data nest slots egressed after
  | .flat _ => True

theorem digest_key_some {id : Option String} {key : String}
    (read : digest_key id = .ok (some key)) :
    ∃ text, id = some text ∧
      ((is_ni_or_digest text = true ∧
          ∃ digest, from_ni text = .ok digest ∧ key = digest.hex) ∨
        (is_ni_or_digest text = false ∧
          key = Text.lower (Text.strip text))) := by
  unfold digest_key at read
  cases id with
  | none => cases read
  | some text =>
      simp only [is_ni_or_digest_strip] at read
      split at read
      · cases read
      · split at read
        · rename_i named
          obtain ⟨digest, parsed, same⟩ := map_eq_ok.mp read
          cases same
          exact ⟨text, rfl, .inl ⟨named, digest, from_ni_strip.mp parsed, rfl⟩⟩
        · rename_i unnamed
          have key := Option.some.inj (Except.ok.inj read)
          exact ⟨text, rfl, .inr ⟨by simpa using unnamed, key.symm⟩⟩

theorem eq_empty_of_lower {text : String} (blank : Text.lower text = "") :
    text = "" := by
  have letters := congrArg String.toList blank
  rw [Text.toList_lower] at letters
  have none := List.map_eq_nil_iff.mp letters
  exact String.toList_inj.mp none

/-- A text in the letters of a digest is one. -/
theorem named_of_lower {text : String} {digest : Digest}
    (same : digest.hex = Text.lower (Text.strip text)) :
    is_ni_or_digest text = true := by
  simp only [is_ni_or_digest, ← same, digest.valid, Bool.true_or]

/-- The comparison lets the same ids through, and ids that differ in case. -/
theorem compareEgressed_ok {data_id egressed_id : Option String}
    (passed : compareEgressed data_id egressed_id = .ok ()) :
    ∃ one other, data_id = some one ∧ egressed_id = some other ∧
      (same_id one other = .ok true ∨ DifferInLetters one other) := by
  unfold compareEgressed at passed
  obtain ⟨data_key, first, passed⟩ := Raised.bind_returns passed
  obtain ⟨egressed_key, second, passed⟩ := Raised.bind_returns passed
  split at passed
  · rename_i left right leftKey rightKey
    split at passed
    · cases passed
    · rename_i same
      have same : left = right := not_not.mp same
      rw [(Option.filter_eq_some_iff.mp leftKey).1] at first
      rw [(Option.filter_eq_some_iff.mp rightKey).1, ← same] at second
      obtain ⟨one, rfl, read⟩ := digest_key_some first
      obtain ⟨other, rfl, read'⟩ := digest_key_some second
      refine ⟨one, other, rfl, rfl, ?_⟩
      obtain ⟨named, digest, parsed, key⟩ | ⟨unnamed, key⟩ := read
      · obtain ⟨named', digest', parsed', key'⟩ | ⟨unnamed', key'⟩ := read'
        · left
          have digests : digest = digest' := Digest.ext_hex (key.symm.trans key')
          simp [same_id, named, named', parsed, parsed', digests, bind,
            Except.bind]
        · rw [named_of_lower (key.symm.trans key')] at unnamed'
          cases unnamed'
      · obtain ⟨named', digest', parsed', key'⟩ | ⟨unnamed', key'⟩ := read'
        · rw [named_of_lower (key'.symm.trans key)] at unnamed
          cases unnamed
        · by_cases texts : Text.strip one = Text.strip other
          · left
            simp [same_id, unnamed, texts]
          · right
            exact ⟨unnamed, unnamed', texts, key.symm.trans key'⟩
  · cases passed

theorem DifferInLetters.not_same {one other : String}
    (differ : DifferInLetters one other) : same_id one other ≠ .ok true := by
  obtain ⟨unnamed, -, texts, -⟩ := differ
  simp [same_id, unnamed, texts]

theorem DifferInLetters.compare {one other : String}
    (differ : DifferInLetters one other) (nonempty : one ≠ "")
    (nonempty' : other ≠ "") :
    compareEgressed (some one) (some other) = .ok () := by
  obtain ⟨unnamed, unnamed', texts, lowered⟩ := differ
  have first : digest_key (some one) =
      .ok (some (Text.lower (Text.strip one))) := by
    simp [digest_key, nonempty, is_ni_or_digest_strip, unnamed]
  have second : digest_key (some other) =
      .ok (some (Text.lower (Text.strip one))) := by
    simp [digest_key, nonempty', is_ni_or_digest_strip, unnamed', lowered]
  have letters : Text.lower (Text.strip one) ≠ "" := by
    intro blank
    have blank' : Text.lower (Text.strip other) = "" := by
      rw [← lowered]
      exact blank
    exact texts ((eq_empty_of_lower blank).trans (eq_empty_of_lower blank').symm)
  unfold compareEgressed
  simp [first, second, Option.filter, letters, bind, Except.bind]

theorem withIndex_ok {α : Type}
    {step : Option LocatorIndex → Except Raised (α × Option LocatorIndex)}
    {value : α} {machine after : Machine}
    (ran : Act.withIndex step machine = .ok value after) :
    ∃ index, step (machine.home.map Home.index) = .ok (value, index) ∧
      (index.isSome = machine.home.isSome →
        after.home.map Home.index = index) := by
  unfold Act.withIndex at ran
  rw [bind_run_ok (get_run machine)] at ran
  obtain ⟨⟨found, index⟩, middle, lifted, ran⟩ := bind_ok ran
  obtain ⟨stepped, unchanged⟩ := lift_ok lifted
  obtain ⟨same, changed⟩ := EStateM.Result.ok.inj ran
  rw [← same, ← changed, unchanged]
  refine ⟨index, stepped, ?_⟩
  intro kept
  cases index with
  | none =>
      cases home : machine.home with
      | none => simp [home]
      | some home' => simp [home] at kept
  | some index =>
      cases home : machine.home with
      | none => simp [home] at kept
      | some home' => simp [home]

theorem SlotReading.of_ok {index left : Option LocatorIndex} {fields : Fields}
    {stem : String} {slot : SlotReading fields stem}
    (made : SlotReading.of index fields stem = .ok (slot, left)) :
    slot.index = index ∧ slot.left = left := by
  unfold SlotReading.of at made
  split at made
  · cases made
    exact ⟨rfl, rfl⟩
  · cases made

/-- The locators a reading leaves are those of the Node after it. -/
theorem readSlot_ok {fields : Fields} {stem : String} {machine after : Machine}
    {slot : SlotReading fields stem}
    (ran : readSlot fields stem machine = .ok slot after) :
    slot.index = machine.home.map Home.index ∧
      after.home.map Home.index = slot.left := by
  obtain ⟨left, made, home⟩ := withIndex_ok ran
  obtain ⟨index, rfl⟩ := SlotReading.of_ok made
  have kept := ref_id_isSome slot.read
  rw [index, Option.isSome_map] at kept
  exact ⟨index, home kept⟩

theorem refId_ok {fields : Fields} {stem : String} {machine after : Machine}
    {id : Option String} (ran : refId fields stem machine = .ok id after) :
    ∃ slot : SlotReading fields stem, slot.id = id ∧
      slot.index = machine.home.map Home.index ∧
      after.home.map Home.index = slot.left := by
  rw [refId_eq] at ran
  obtain ⟨slot, middle, read, returned⟩ := bind_ok ran
  cases returned
  exact ⟨slot, rfl, readSlot_ok read⟩

/-- What `data` reads as in the assertion is what it read as in the run. -/
theorem SlotReading.again {fields : Fields} {stem id : String}
    {after middle : Machine} (slot : SlotReading fields stem)
    (left : after.home.map Home.index = slot.left)
    (reread : refId fields stem after = .ok (some id) middle) :
    slot.id = some id := by
  obtain ⟨other, same, index, -⟩ := refId_ok reread
  have read := other.read
  rw [index, left] at read
  obtain here | gone := ref_id_again slot.read read
  · rw [← here, same]
  · rw [same] at gone
    cases gone

theorem idOr_of_ne {first : Option String}
    (nonempty : ∀ id, first = some id → id ≠ "") (second : Option String) :
    idOr first second = first.or second := by
  cases first with
  | none => rfl
  | some id => exact if_neg (nonempty id rfl)

theorem SlotReading.id_ne_empty {fields : Fields} {stem id : String}
    (slot : SlotReading fields stem) (bare : stem ≠ "" ∧ stem ≠ "content")
    (found : slot.id = some id) : id ≠ "" := by
  have read := slot.read
  rw [found] at read
  exact ref_id_ne_empty bare read

/-- The egress pair is what one of the two slots reads as unless they cross. -/
theorem egress_iff {nest : Fields} (data : SlotReading invoice "data")
    (egressed : SlotReading nest "egressed_data") :
    (∀ uri id, data.uri.or egressed.uri = some uri →
      data.id.or egressed.id = some id →
      data.Gives (some uri) (some id) ∨ egressed.Gives (some uri) (some id)) ↔
    ¬ Crossed data egressed := by
  unfold SlotReading.Gives Crossed
  cases data.uri <;> cases data.id <;> cases egressed.uri <;>
    cases egressed.id <;> simp [eq_comm]

/-- What a stage the document leaves out is reported as is what the Invoice
says when the Invoice leaves it out too. -/
theorem flat_iff {stem : String} {fields : Fields} {nested : String}
    (slot : SlotReading fields nested) (uncited : ¬ slot.Cited) :
    (∃ flat : SlotReading invoice stem,
      flat.index = slot.index ∧ flat.Gives slot.uri slot.id) ↔
    Uncited invoice stem := by
  have noUri : slot.uri = none := by
    simpa using fun uri => uncited (.inl uri)
  have noId : slot.id = none := by
    simpa using fun id => uncited (.inr id)
  constructor
  · rintro ⟨flat, -, uri, id⟩
    rw [noUri] at uri
    rw [noId] at id
    have uri : ref_uri invoice stem = none := uri.symm
    have read := flat.read
    rw [← id] at read
    unfold ref_id at read
    simp only [uri] at read
    obtain ⟨value, legacy, same⟩ := map_eq_ok.mp read
    obtain ⟨rfl, -⟩ := Prod.mk.inj same
    exact ⟨uri, legacy⟩
  · rintro ⟨uri, legacy⟩
    have read : ref_id slot.index invoice stem = .ok (none, slot.index) := by
      unfold ref_id
      simp only [uri, legacy]
      rfl
    exact ⟨⟨slot.index, none, slot.index, read⟩, rfl, noUri.trans uri.symm,
      noId⟩

theorem assert_ok {nest : Fields} {after done : Machine}
    (passed : assert_egressed_matches_data invoice nest after = .ok () done) :
    ∃ middle one other, refId invoice "data" after = .ok (some one) middle ∧
      refId nest "egressed_data" middle = .ok (some other) done ∧
      (same_id one other = .ok true ∨ DifferInLetters one other) := by
  obtain ⟨data_id, middle, first, rest⟩ := bind_ok passed
  obtain ⟨egressed_id, later, second, lifted⟩ := bind_ok rest
  obtain ⟨compared, rfl⟩ := lift_ok lifted
  obtain ⟨one, other, rfl, rfl, judged⟩ := compareEgressed_ok compared
  exact ⟨middle, one, other, first, second, judged⟩

/-- The assertion lets ids that differ in case through. -/
theorem assert_of_letters {nest : Fields} {after middle done : Machine}
    {one other : String}
    (first : refId invoice "data" after = .ok (some one) middle)
    (second : refId nest "egressed_data" middle = .ok (some other) done)
    (differ : DifferInLetters one other) :
    assert_egressed_matches_data invoice nest after = .ok () done := by
  obtain ⟨slot, oneId, -⟩ := refId_ok first
  obtain ⟨slot', otherId, -⟩ := refId_ok second
  unfold assert_egressed_matches_data
  rw [bind_run_ok first, bind_run_ok second,
    differ.compare (slot.id_ne_empty (by decide) oneId)
      (slot'.id_ne_empty (by decide) otherId)]
  rfl

/-- The stages of a run are paired exactly when what it read agrees. -/
theorem stagesPaired_iff (readings : StageReadings invoice) {after : Machine}
    (left : after.home.map Home.index = readings.data.left) :
    StagesPaired readings readings.stages after ↔ readings.Agree after := by
  obtain ⟨data_stages, source, data⟩ := readings
  have bare : ("data" : String) ≠ "" ∧ "data" ≠ "content" := by decide
  have dataId : ∀ second, idOr data.id second = data.id.or second :=
    idOr_of_ne fun id found => data.id_ne_empty bare found
  cases source with
  | flat slots =>
      constructor
      · intro _
        trivial
      · intro _
        constructor
        · exact ⟨rfl, rfl⟩
        · intro stage
          cases stage with
          | ingress => exact ⟨rfl, rfl⟩
          | integration => exact ⟨rfl, rfl⟩
        · intro uri id hasUri hasId
          left
          simp only [StageReadings.stages, dataId, Option.or_none] at hasUri hasId
          exact ⟨hasUri.symm, hasId.symm⟩
        · intro id found
          simp only [StageReadings.stages, dataId, Option.or_none]
          exact found
        · intro nest slots egressed impossible
          cases impossible
  | nest nest slots egressed =>
      constructor
      · intro paired
        constructor
        · apply (egress_iff data egressed).mp
          intro uri id hasUri hasId
          have one := paired.egress uri id hasUri
            ((dataId egressed.id).trans hasId)
          rcases one with ofData | ⟨_, _, _, same, ofNest⟩
          · exact .inl ofData
          · cases same
            exact .inr ofNest
        · intro stage
          by_cases cited : (slots stage).Cited
          · exact .inl cited
          · right
            apply (flat_iff (slots stage) cited).mp
            cases stage with
            | ingress => exact (paired.earlier .ingress).2 cited
            | integration => exact (paired.earlier .integration).2 cited
        · intro middle done one other readOne readOther differ
          have passed := assert_of_letters readOne readOther differ
          obtain ⟨_, one', other', readOne', readOther', -, same⟩ :=
            paired.matched nest slots egressed rfl done passed
          rw [readOne] at readOne'
          obtain ⟨rfl⟩ := Option.some.inj (EStateM.Result.ok.inj readOne').1
          obtain ⟨-, rfl⟩ := EStateM.Result.ok.inj readOne'
          rw [readOther] at readOther'
          obtain ⟨rfl⟩ := Option.some.inj (EStateM.Result.ok.inj readOther').1
          exact differ.not_same same
      · intro agree
        constructor
        · exact ⟨rfl, rfl⟩
        · intro stage
          constructor
          · intro _
            cases stage with
            | ingress => exact ⟨rfl, rfl⟩
            | integration => exact ⟨rfl, rfl⟩
          · intro uncited
            have flat := (flat_iff (slots stage) uncited).mpr
              ((agree.earlier stage).resolve_left uncited)
            cases stage with
            | ingress => exact flat
            | integration => exact flat
        · intro uri id hasUri hasId
          have one := (egress_iff data egressed).mpr agree.uncrossed uri id
            hasUri ((dataId egressed.id).symm.trans hasId)
          rcases one with ofData | ofNest
          · exact .inl ofData
          · exact .inr ⟨nest, slots, egressed, rfl, ofNest⟩
        · intro id found
          have reported : data.id.or egressed.id = some id := by
            rw [found]
            rfl
          exact (dataId egressed.id).trans reported
        · intro _ _ _ same done passed
          cases same
          obtain ⟨middle, one, other, readOne, readOther, judged⟩ :=
            assert_ok passed
          have found : data.id = some one := data.again left readOne
          have reported : data.id.or egressed.id = some one := by
            rw [found]
            rfl
          refine ⟨middle, one, other, readOne, readOther,
            (dataId egressed.id).trans reported, ?_⟩
          exact judged.resolve_right
            (agree.letters middle done one other readOne readOther)

end Law

section Runs

def lotUri : String := "http://n/lot"

def stagesUri : String := "http://n/stages"

/-- An Invoice whose lot is at a locator that spells no id. -/
def crossedInvoice : Fields :=
  [("data_uri", .str lotUri), ("data_stages_uri", .str stagesUri)]

/-- Its document, which cites another lot. -/
def crossedNest : Fields := [("egressed_data_uri", .str "QmOlder")]

def crossedNet : Network :=
  { answer := fun _ uri =>
      if uri = stagesUri then some (mintedBytes (.obj crossedNest)) else none }

/-- A Node without a home, after some GETs. -/
def homeless (gets : Nat) : Machine := ⟨none, fun _ => none, [], gets⟩

theorem catDocument_crossed :
    catDocument crossedNet stagesUri (homeless 0) =
      .ok (.obj crossedNest) (homeless 1) := by
  have bare : is_hl stagesUri = false := by decide +kernel
  have web : is_http_uri stagesUri = true := by decide +kernel
  have path : Url.path stagesUri = .ok "/stages" := by decide +kernel
  have fetched : AddressStore.cat_bytes crossedNet stagesUri none (homeless 0) =
      .ok (mintedBytes (.obj crossedNest)) (homeless 1) := by
    unfold AddressStore.cat_bytes AddressStore.catPlain
    rw [bare, web]
    unfold AddressStore.catHttp AddressStore.fetchUri
      AddressStore.local_ldp_bytes AddressStore.resolve_expect_digest
    simp only [path]
    rfl
  unfold catDocument
  rw [bind_run_ok fetched, readJson_mintedBytes (by rfl)]
  rfl

theorem readSlot_homeless {fields : Fields} {stem : String}
    (slot : SlotReading fields stem) (gets : Nat) (index : slot.index = none)
    (left : slot.left = none) :
    readSlot fields stem (homeless gets) = .ok slot (homeless gets) := by
  have made : SlotReading.of none fields stem = .ok (slot, none) := by
    obtain ⟨_, id, _, read⟩ := slot
    subst index left
    unfold SlotReading.of
    split
    · rename_i id' left found
      obtain ⟨rfl, rfl⟩ := Prod.mk.inj (Except.ok.inj (read.symm.trans found))
      rfl
    · rename_i raised found
      rw [read] at found
      cases found
  unfold readSlot Act.withIndex
  rw [bind_run_ok (get_run _)]
  show ((Act.lift (SlotReading.of none fields stem)) >>= _) _ = _
  rw [made]
  rfl

def crossedSlots : (stage : Earlier) → SlotReading crossedNest stage.nestStem
  | .ingress => ⟨none, none, none, rfl⟩
  | .integration => ⟨none, none, none, rfl⟩

def crossedEgressed : SlotReading crossedNest "egressed_data" :=
  ⟨none, some "QmOlder", none, rfl⟩

def crossedReadings : StageReadings crossedInvoice where
  data_stages := ⟨none, none, none, rfl⟩
  source := .nest crossedNest crossedSlots crossedEgressed
  data := ⟨none, none, none, rfl⟩

theorem readStages_crossed :
    readStages crossedNet crossedInvoice (homeless 0) =
      .ok crossedReadings (homeless 1) := by
  have located : ref_uri crossedInvoice "data_stages" = some stagesUri := by
    rfl
  have nest : readNest crossedNet crossedReadings.data_stages (homeless 0) =
      .ok (some (.obj crossedNest)) (homeless 1) := by
    unfold readNest SlotReading.uri
    rw [located]
    have first : idOr (some stagesUri) crossedReadings.data_stages.id =
        some stagesUri := by rfl
    simp only [first]
    rw [if_neg (by decide)]
    unfold attempt
    apply tryCatch_run_ok
    rw [bind_run_ok catDocument_crossed]
    rfl
  unfold readStages
  rw [bind_run_ok (readSlot_homeless crossedReadings.data_stages 0 rfl rfl),
    bind_run_ok nest]
  unfold readSource readEarlier
  simp only [bind_assoc, pure_bind]
  rw [bind_run_ok (readSlot_homeless (crossedSlots .ingress) 1 rfl rfl),
    bind_run_ok (readSlot_homeless (crossedSlots .integration) 1 rfl rfl),
    bind_run_ok (readSlot_homeless crossedEgressed 1 rfl rfl),
    bind_run_ok (readSlot_homeless crossedReadings.data 1 rfl rfl)]
  rfl

theorem crossedReadings_disagree : ¬ crossedReadings.Agree (homeless 1) := by
  intro agree
  apply agree.uncrossed
  left
  refine ⟨?_, rfl, rfl, ?_⟩
  · decide +kernel
  · decide +kernel

theorem resolve_invoice_data_stages_crossed :
    resolve_invoice_data_stages crossedNet crossedInvoice (homeless 0) =
      .ok crossedReadings.stages (homeless 1) := by
  rw [resolve_invoice_data_stages_eq, bind_run_ok readStages_crossed]
  rfl

end Runs

end ContentMesh

end Cats
