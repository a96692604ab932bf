import Cats.Registry.HonestRefs

/-!
# The bind checkers on BOMs of the builder

A BOM that `build_execution_bom` wrote for honest refs passes both checkers when
they are called with the locators of the refs, as long as no hashlink is among
these.  What the first checker accepts, wherever it is from, bears the digests
of the locators.
-/

namespace Cats

namespace ExecutionBind

open ExecutionBom

/-- The text a token is read from. -/
def tokenText (value : String) : String :=
  if Text.startsWith (Text.lower (Text.strip value)) "ipfs://" then
    String.ofList ((Text.strip value).toList.drop 7)
  else Text.strip value

/-- The text names the digest: as the last segment of a URI, or as an id, which
may stand behind `ipfs://`. -/
inductive Bears (value : String) (digest : Digest) : Prop
  | path (http : is_http_uri (tokenText value) = true)
      (segment : uri_digest (tokenText value) = digest.hex)
  | id (named : from_ni (tokenText value) = .ok digest)

/-- The entity names the digest by its `@id` or its `contentId`. -/
def Carries (entity : Fields) (digest : Digest) : Prop :=
  ∃ key ∈ ["@id", "contentId"], ∃ text,
    Fields.get? entity key = some (.str text) ∧ Bears text digest

theorem ref_token_eq (value : String) :
    ref_token value = tokenOf (tokenText value) := by
  rw [ref_token, tokenText]
  split
  · rfl
  · rfl

/-- No space is a letter. -/
theorem toLower_of_isSpace {character : Char}
    (space : Text.isSpace character = true) :
    character.toLower = character := by
  have table : Text.spaces.all (fun code => code < 65 || 90 < code) = true := by
    decide
  have code := List.all_eq_true.mp table character.toNat
    (List.contains_iff_mem.mp space)
  simp only [Bool.or_eq_true, decide_eq_true_eq] at code
  delta Char.toLower
  split_ifs with upper
  · have above : 65 ≤ character.toNat := upper.1
    have below : character.toNat ≤ 90 := upper.2
    omega
  · rfl

/-- A text that lowers to a digest is read as one. -/
theorem is_ni_or_digest_of_lower {text : String} {digest : Digest}
    (same : Text.lower text = digest.hex) : is_ni_or_digest text = true := by
  have visible : Text.strip text = text := by
    apply Text.strip_eq_self
    intro character member
    have lowered : character.toLower ∈ digest.hex.toList := by
      rw [← same, Text.toList_lower]
      exact List.mem_map_of_mem member
    by_contra space
    rw [Bool.not_eq_false] at space
    rw [toLower_of_isSpace space] at lowered
    have hex := Digest.isSpace_of_hex (digest.isDigit character lowered)
    rw [space] at hex
    cases hex
  have valid := digest.valid
  rw [← same, ← visible] at valid
  rw [is_ni_or_digest, valid, Bool.true_or]

/-- A token is a digest when the text names it. -/
theorem ref_token_bears {value : String} {digest : Digest} :
    ref_token value = .ok digest.hex ↔ Bears value digest := by
  rw [ref_token_eq, tokenOf]
  constructor
  · intro token
    cases http : is_http_uri (tokenText value) with
    | true =>
        rw [if_pos http] at token
        exact .path http (Except.ok.inj token)
    | false =>
        rw [if_neg (by simp [http])] at token
        cases bare : is_ni_or_digest (tokenText value) with
        | true =>
            rw [if_pos bare] at token
            obtain ⟨found, named, same⟩ := map_eq_ok.mp token
            rw [Digest.lower_hex] at same
            rw [Digest.ext_hex same] at named
            exact .id named
        | false =>
            rw [if_neg (by simp [bare])] at token
            rw [is_ni_or_digest_of_lower (Except.ok.inj token)] at bare
            cases bare
  · intro bears
    cases bears with
    | path http segment => rw [if_pos http, segment]
    | id named =>
        obtain ⟨http, _, digests⟩ := notUri_of_from_ni named
        rw [if_neg (by simp [http]), if_pos digests, named]
        simp [Except.map]

/-- Every token comes from the text under one of the keys. -/
theorem of_mem_candidates {entity : Fields} {keys tokens : List String}
    (read : candidates entity keys = .ok tokens) {token : String}
    (member : token ∈ tokens) : ∃ key ∈ keys, ∃ text,
      Fields.get? entity key = some (.str text) ∧
        ref_token text = .ok token := by
  induction keys generalizing tokens with
  | nil =>
      cases read
      cases member
  | cons key keys induction =>
      have later : ∀ {others}, candidates entity keys = .ok others →
          token ∈ others → ∃ key' ∈ key :: keys, ∃ text,
            Fields.get? entity key' = some (.str text) ∧
              ref_token text = .ok token := by
        intro others read member
        obtain ⟨found, inside, text⟩ := induction read member
        exact ⟨found, List.mem_cons_of_mem _ inside, text⟩
      rw [candidates] at read
      split at read
      · rename_i raw there
        split_ifs at read with blank
        · exact later read member
        · obtain ⟨first, own, read⟩ := Raised.bind_returns read
          obtain ⟨others, rest, read⟩ := Raised.bind_returns read
          cases read
          rcases List.mem_cons.mp member with same | member
          · rw [same]
            exact ⟨key, List.mem_cons_self, raw, there, own⟩
          · exact later rest member
      · exact later read member

/-- An entity that agrees with a locator has its token. -/
theorem token_of_agrees {entity : Fields} {uri label : String}
    (agreed : entity_agrees entity uri label = .ok ()) :
    ∃ expected tokens, ref_token uri = .ok expected ∧
      candidates entity ["@id", "contentId"] = .ok tokens ∧
      expected ∈ tokens := by
  cases token : ref_token uri with
  | error raised => simp [entity_agrees, token, bind, Except.bind] at agreed
  | ok expected =>
      cases read : candidates entity ["@id", "contentId"] with
      | error raised =>
          simp [entity_agrees, token, read, bind, Except.bind] at agreed
      | ok tokens =>
          refine ⟨expected, tokens, rfl, rfl, ?_⟩
          by_contra absent
          simp [entity_agrees, token, read, absent, bind, Except.bind] at agreed

/-- It then carries the digest the locator bears. -/
theorem carries_of_agrees {entity : Fields} {uri label : String}
    (agreed : entity_agrees entity uri label = .ok ()) {digest : Digest}
    (bears : Bears uri digest) : Carries entity digest := by
  obtain ⟨expected, tokens, token, read, member⟩ := token_of_agrees agreed
  have same : expected = digest.hex :=
    Except.ok.inj (token.symm.trans (ref_token_bears.mpr bears))
  rw [same] at member
  obtain ⟨key, listed, text, there, own⟩ := of_mem_candidates read member
  exact ⟨key, listed, text, there, ref_token_bears.mp own⟩

theorem require_uri_ok {value label found : String}
    (required : require_uri value label = .ok found) :
    found = Text.strip value := by
  by_cases blank : Text.strip value = ""
  · simp [require_uri, blank] at required
  · rw [require_uri, if_neg blank] at required
    exact (Except.ok.inj required).symm

theorem entity_agrees_strip (entity : Fields) (uri label : String) :
    entity_agrees entity (Text.strip uri) label =
      entity_agrees entity uri label := by
  rw [entity_agrees, ref_token_strip]
  rfl

/-- What the first checker accepts. -/
theorem accepted_bind {bom : Json} {order_uri invoice_uri : String}
    {payloads : Payloads} {bind : List Fields}
    (accepted : assert_execution_bind bom order_uri invoice_uri payloads =
      .ok bind) : ∃ order invoice rest, bind = order :: invoice :: rest ∧
        used_entities bom = .ok bind ∧
        entity_agrees order order_uri "Order" = .ok () ∧
        entity_agrees invoice invoice_uri "output Invoice" = .ok () := by
  obtain ⟨order_text, first, accepted⟩ := Raised.bind_returns accepted
  obtain ⟨invoice_text, second, accepted⟩ := Raised.bind_returns accepted
  split_ifs at accepted
  obtain ⟨used, cited, accepted⟩ := Raised.bind_returns accepted
  split at accepted
  · rename_i order invoice rest
    obtain ⟨_, ordered, accepted⟩ := Raised.bind_returns accepted
    obtain ⟨_, invoiced, accepted⟩ := Raised.bind_returns accepted
    obtain ⟨_, _, accepted⟩ := Raised.bind_returns accepted
    obtain ⟨_, _, accepted⟩ := Raised.bind_returns accepted
    cases accepted
    rw [require_uri_ok first, entity_agrees_strip] at ordered
    rw [require_uri_ok second, entity_agrees_strip] at invoiced
    exact ⟨order, invoice, rest, rfl, cited, ordered, invoiced⟩
  · cases accepted

section Built

variable {base_url : String} {args : Args}

theorem build_returns {invoice_uri log_uri : Option String}
    {used lineage : List Fields}
    (invoice : resolvedUri base_url args.invoice_id args.invoice_uri =
      .ok invoice_uri)
    (log : resolvedUri base_url args.log_id args.log_uri = .ok log_uri)
    (cited : usedEntities base_url args invoice_uri = .ok used)
    (staged : lineageEntities base_url args = .ok lineage) :
    build_execution_bom base_url args = .ok (withLineage lineage
      (attributedTo args.node_did
        (startedBom args invoice_uri log_uri used))) := by
  simp only [build_execution_bom, invoice, log, cited, staged, bind,
    Except.bind]

theorem get?_attributedTo (node_did : Option String) (bom : Fields)
    {key : String} (node : key ≠ "node_did")
    (attribution : key ≠ "prov:wasAttributedTo") :
    Fields.get? (attributedTo node_did bom) key = Fields.get? bom key := by
  cases node_did with
  | none => rfl
  | some did =>
      rw [attributedTo, Fields.get?_set_of_ne _ attribution.symm,
        attach_node_did, Fields.get?_set_of_ne _ node.symm]

/-- The activity stays what it was. -/
theorem activity_of_build (args : Args) (lineage used : List Fields)
    (invoice_uri log_uri : Option String) :
    Fields.get? (withLineage lineage (attributedTo args.node_did
        (startedBom args invoice_uri log_uri used))) "prov:wasGeneratedBy" =
      some (.obj (activityOf used)) := by
  have started : Fields.get? (attributedTo args.node_did
      (startedBom args invoice_uri log_uri used)) "prov:wasGeneratedBy" =
        some (.obj (activityOf used)) := by
    refine (get?_attributedTo _ _ ?_ ?_).trans rfl
    · decide
    · decide
  rw [withLineage]
  split_ifs
  · exact started
  · rw [Fields.get?_set_of_ne _ (by decide)]
    exact started

/-- The stages are read back. -/
theorem lineage_of_build (args : Args) (lineage used : List Fields)
    (invoice_uri log_uri : Option String) :
    lineageOf (withLineage lineage (attributedTo args.node_did
        (startedBom args invoice_uri log_uri used))) =
      .ok (lineage.map .obj) := by
  rw [withLineage]
  split_ifs with empty
  · have absent : Fields.get? (attributedTo args.node_did
        (startedBom args invoice_uri log_uri used)) "stageLineage" = none := by
      refine (get?_attributedTo _ _ ?_ ?_).trans rfl
      · decide
      · decide
    rw [List.isEmpty_iff.mp empty, lineageOf, absent]
    rfl
  · rw [lineageOf, Fields.get?_set_self]

/-- A BOM whose activity used two entities that are named. -/
theorem used_entities_pair {bom order invoice : Fields}
    {order_id invoice_id : String}
    (activity : Fields.get? bom "prov:wasGeneratedBy" =
      some (.obj (activityOf [order, invoice])))
    (ordered : Fields.get? order "@id" = some (.str order_id))
    (invoiced : Fields.get? invoice "@id" = some (.str invoice_id))
    (orderText : Text.strip order_id ≠ "")
    (invoiceText : Text.strip invoice_id ≠ "") :
    used_entities (.obj bom) = .ok [order, invoice] := by
  simp [used_entities, activity, activityOf, BomRegistry.orNone, usedValue, usedItems,
    usedFrom, usedEntity, ordered, invoiced, orderText, invoiceText, bind,
    Except.bind]

end Built

/-- What the builder makes of a stage: the entity of its ref, with what it is
derived from behind it. -/
structure IsStage (base_url : String) (stage : HonestRef)
    (derived : Option HonestRef) (entity : Fields) : Prop where
  built : stage_entity base_url stage.content_id stage.uri (refOf derived) =
    .ok entity
  cited : ∃ uri own rest, stage.checked base_url = .ok uri ∧
    Cited stage uri own ∧ entity = own ++ rest ∧
    Fields.get? rest "contentId" = none
  isDerived : isDerived entity = derived.isSome

section Stages

variable {host : String} {port : Nat}

theorem stage_honest (stage : HonestRef) (derived : Option HonestRef) :
    ∃ entity, IsStage (node_base_url host port) stage derived entity := by
  obtain ⟨uri, own, checked, named, cited⟩ := @entity_honest host port stage
  cases derived with
  | none =>
      refine ⟨own ++ [("@type", .str "prov:Entity"),
        ("prov:wasGeneratedBy", .obj [("@id", .str executorRunId)])], ?_, ?_,
        ?_⟩
      · simp only [stage_entity, named, bind, Except.bind]
        rfl
      · exact ⟨uri, own, _, checked, cited, rfl, rfl⟩
      · cases cited <;> rfl
  | some source =>
      obtain ⟨_, other, _, found, _⟩ := @entity_honest host port source
      refine ⟨own ++ [("@type", .str "prov:Entity"),
        ("prov:wasGeneratedBy", .obj [("@id", .str executorRunId)]),
        ("prov:wasDerivedFrom", .obj other)], ?_, ?_, ?_⟩
      · simp [stage_entity, named, refOf, found, bind, Except.bind]
      · exact ⟨uri, own, _, checked, cited, rfl, rfl⟩
      · cases cited <;> rfl

/-- A stage that is given adds its entity, and no other. -/
theorem stageOf_honest (stage derived : Option HonestRef) : ∃ entities,
    stageOf (node_base_url host port) (refOf stage) (refOf derived) =
        .ok entities ∧ entities.length ≤ 1 ∧
      ∀ entity, entity ∈ entities ↔ ∃ given, stage = some given ∧
        IsStage (node_base_url host port) given derived entity := by
  cases stage with
  | none =>
      refine ⟨[], rfl, Nat.zero_le 1, ?_⟩
      intro entity
      simp
  | some given =>
      obtain ⟨built, isStage⟩ := @stage_honest host port given derived
      refine ⟨[built], ?_, Nat.le_refl 1, ?_⟩
      · have id : (refOf (some given)).given = some given.content_id :=
          given.given_ref
        have uri : (refOf (some given)).uri = given.uri := rfl
        simp only [stageOf, id, uri, isStage.built, bind, Except.bind]
      · intro entity
        rw [List.mem_singleton]
        constructor
        · intro same
          rw [same]
          exact ⟨given, rfl, isStage⟩
        · intro found
          obtain ⟨other, same, also⟩ := found
          cases same
          exact Except.ok.inj (also.built.symm.trans isStage.built)

/-- An entity tells the id of its ref. -/
theorem IsStage.sameId {base_url : String} {stage other : HonestRef}
    {derived source : Option HonestRef} {entity : Fields}
    (here : IsStage base_url stage derived entity)
    (there : IsStage base_url other source entity) :
    stage.content_id = other.content_id := by
  obtain ⟨uri, own, rest, _, cited, whole, appended⟩ := here.cited
  obtain ⟨uri', own', rest', _, cited', whole', appended'⟩ := there.cited
  have same := congrArg (Fields.get? · "contentId") (whole.symm.trans whole')
  have names := congrArg (Fields.get? · "@id") (whole.symm.trans whole')
  cases cited with
  | web http =>
      cases cited' with
      | web http' => simpa using same
      | bare http' denotes' => simp [appended'] at same
  | bare http denotes =>
      cases cited' with
      | web http' => simp [appended] at same
      | bare http' denotes' => simpa using names

/-- A checker takes a stage for a locator or raises an `AssertionError`. -/
theorem IsStage.calm {base_url uri expected : String} {stage : HonestRef}
    {derived : Option HonestRef} {entity : Fields} (label : String)
    (here : IsStage base_url stage derived entity)
    (token : ref_token uri = .ok expected) :
    entity_agrees entity uri label = .ok () ∨
      ∃ text, entity_agrees entity uri label =
        .error (.assertionError text) := by
  obtain ⟨own, start, rest, _, cited, whole, appended⟩ := here.cited
  rw [whole]
  rcases entity_agrees_cases label cited appended token with agreed | refused
  · exact .inl agreed.1
  · exact .inr refused.1

/-- Whether a checker takes the entity for the locator. -/
def accepts (uri : String) (entity : Fields) : Bool :=
  (entity_agrees entity uri "structure_as_executed").isOk

/-- The search keeps what the checker takes. -/
theorem matching_eq {uri : String} {lineage : List Fields}
    (calm : ∀ entity ∈ lineage,
      entity_agrees entity uri "structure_as_executed" = .ok () ∨
        ∃ text, entity_agrees entity uri "structure_as_executed" =
          .error (.assertionError text)) :
    matching uri (lineage.map .obj) = .ok (lineage.filter (accepts uri)) := by
  induction lineage with
  | nil => rfl
  | cons entity lineage induction =>
      have later := induction fun other member =>
        calm other (List.mem_cons_of_mem _ member)
      rcases calm entity List.mem_cons_self with agreed | ⟨text, refused⟩
      · have kept : accepts uri entity = true := by
          rw [accepts, agreed]
          rfl
        rw [List.map_cons, matching, agreed, later,
          List.filter_cons_of_pos kept]
        rfl
      · have dropped : ¬ accepts uri entity = true := by
          rw [accepts, refused]
          intro taken
          cases taken
        rw [List.map_cons, matching, refused, later,
          List.filter_cons_of_neg dropped]
        rfl

theorem entity_agrees_of_accepts {uri : String} {entity : Fields}
    (accepted : accepts uri entity = true) :
    entity_agrees entity uri "structure_as_executed" = .ok () := by
  rw [accepts] at accepted
  cases agreed : entity_agrees entity uri "structure_as_executed" with
  | ok _ => rfl
  | error raised =>
      rw [agreed] at accepted
      cases accepted

/-- The entity the search settles on is one that the checker takes. -/
theorem accepts_of_found {bom : Fields} {uri : String} {lineage : List Fields}
    {entity : Fields} (listed : lineageOf bom = .ok (lineage.map .obj))
    (calm : ∀ other ∈ lineage,
      entity_agrees other uri "structure_as_executed" = .ok () ∨
        ∃ text, entity_agrees other uri "structure_as_executed" =
          .error (.assertionError text))
    (found : sae_lineage_entity (.obj bom) uri = .ok entity) :
    accepts uri entity = true := by
  simp only [sae_lineage_entity, listed, matching_eq calm, bind, Except.bind]
    at found
  split_ifs at found
  split at found
  · rename_i last chosen
    cases found
    have member := List.mem_of_getLast? chosen
    exact (List.mem_filter.mp (List.mem_filter.mp member).1).2
  · cases found

/-- Behind the stages that hold payload, the last one is taken for its locator,
unless that is a hashlink. -/
theorem sae_lineage_entity_last {bom : Fields} {base_url uri : String}
    {payload : List Fields} {sae : HonestRef} {entity : Fields}
    (lineage : lineageOf bom = .ok ((payload ++ [entity]).map .obj))
    (last : IsStage base_url sae none entity)
    (checked : sae.checked base_url = .ok uri)
    (calm : ∀ other ∈ payload ++ [entity],
      entity_agrees other (Text.strip uri) "structure_as_executed" = .ok () ∨
        ∃ text, entity_agrees other (Text.strip uri) "structure_as_executed" =
          .error (.assertionError text)) :
    sae_lineage_entity (.obj bom) (Text.strip uri) = .ok entity ↔
      is_hl uri = false := by
  obtain ⟨own, start, rest, found, cited, whole, appended⟩ := last.cited
  have same : uri = own := Except.ok.inj (checked.symm.trans found)
  subst same
  have agrees := entity_agrees_own "structure_as_executed" cited appended
  rw [← whole, ← entity_agrees_strip] at agrees
  have underived : isDerived entity = false := last.isDerived
  constructor
  · intro returned
    apply agrees.mp
    exact entity_agrees_of_accepts (accepts_of_found lineage calm returned)
  · intro plain
    have kept : accepts (Text.strip uri) entity = true := by
      rw [accepts, agrees.mpr plain]
      rfl
    simp only [sae_lineage_entity, lineage, matching_eq calm, bind,
      Except.bind]
    simp [List.filter_append, kept, underived]

/-- What denotes an id is not blank. -/
theorem visible_of_denotes {uri : String} {content : ContentId}
    (denotes : Denotes uri content) : Text.strip uri ≠ "" := by
  intro blank
  cases denotes with
  | web http =>
      rw [is_http_uri, blank] at http
      revert http
      decide
  | spelling spells => exact nonblank_spelling spells blank
  | ipfs text lowered bare spells =>
      rw [blank] at text
      obtain ⟨none, _⟩ := List.append_eq_nil_iff.mp text.symm
      rw [none] at lowered
      cases lowered
  | hashlink linked parsed =>
      rw [is_hl, blank] at linked
      revert linked
      decide

theorem nonempty_of_visible {uri : String} (visible : Text.strip uri ≠ "") :
    uri ≠ "" := by
  intro empty
  apply visible
  rw [empty]
  decide

/-- Looking the locator up beforehand makes the same entity. -/
theorem resolved_honest (honest : HonestRef) : ∃ resolved,
    resolvedUri (node_base_url host port) honest.content_id honest.uri =
        .ok resolved ∧
      entity_id (node_base_url host port) honest.content_id resolved =
        entity_id (node_base_url host port) honest.content_id honest.uri := by
  cases given : honest.uri with
  | some uri =>
      have nonempty := nonempty_of_visible
        (visible_of_denotes (honest.denotes uri given))
      refine ⟨some uri, ?_, rfl⟩
      simp [resolvedUri, Option.filter_some, nonempty]
  | none =>
      obtain ⟨uri, found, _⟩ | absent := @content_uri_honest host port honest
      · refine ⟨some uri, found, ?_⟩
        simp only [entity_id, locator, found]
      · exact ⟨none, absent, rfl⟩

/-- The stages of honest arguments. -/
theorem lineage_honest (honest : HonestArgs) : ∃ payload observed,
    lineageEntities (node_base_url host port) honest.args =
        .ok (payload ++ observed) ∧ observed.length ≤ 1 ∧
      (∀ entity ∈ payload, ∃ stage ∈ honest.stages, ∃ derived,
        IsStage (node_base_url host port) stage derived entity) ∧
      ∀ entity, entity ∈ observed ↔ ∃ sae,
        honest.structure_as_executed = some sae ∧
          IsStage (node_base_url host port) sae none entity := by
  obtain ⟨ingress, first, _, ingresses⟩ :=
    @stageOf_honest host port honest.ingress_data honest.input_data
  obtain ⟨integration, second, _, integrations⟩ :=
    @stageOf_honest host port honest.integration_data honest.ingress_data
  obtain ⟨data, third, _, datas⟩ :=
    @stageOf_honest host port honest.data honest.integration_data
  obtain ⟨observed, last, few, observations⟩ :=
    @stageOf_honest host port honest.structure_as_executed none
  refine ⟨ingress ++ integration ++ data, observed, ?_, few, ?_,
    observations⟩
  · have none : stageOf (node_base_url host port)
        (refOf honest.structure_as_executed) {} = .ok observed := last
    simp only [lineageEntities, HonestArgs.args, first, second, third, none,
      bind, Except.bind]
  · intro entity member
    rcases List.mem_append.mp member with member | member
    · rcases List.mem_append.mp member with member | member
      · obtain ⟨stage, given, isStage⟩ := (ingresses entity).mp member
        exact ⟨stage, by simp [HonestArgs.stages, given], _, isStage⟩
      · obtain ⟨stage, given, isStage⟩ := (integrations entity).mp member
        exact ⟨stage, by simp [HonestArgs.stages, given], _, isStage⟩
    · obtain ⟨stage, given, isStage⟩ := (datas entity).mp member
      exact ⟨stage, by simp [HonestArgs.stages, given], _, isStage⟩

/-- What the checkers make of a BOM of honest arguments: they pass it, with the
entities that were built, as long as they are not called with a hashlink. -/
structure PassesBinds (base_url : String) (honest : HonestArgs)
    (bom : Fields) : Prop where
  execution : ∃ order_uri invoice_uri order invoice,
    honest.order.checked base_url = .ok order_uri ∧
    honest.invoice.checked base_url = .ok invoice_uri ∧
    entity_id base_url honest.order.content_id honest.order.uri =
      .ok order ∧
    entity_id base_url honest.invoice.content_id honest.invoice.uri =
      .ok invoice ∧
    ∀ bind, assert_execution_bind (.obj bom) order_uri invoice_uri =
        .ok bind ↔
      bind = [order, invoice] ∧ is_hl order_uri = false ∧
        is_hl invoice_uri = false
  observation : ∀ sae, honest.structure_as_executed = some sae →
    ∃ sae_uri entity payload,
      sae.checked base_url = .ok sae_uri ∧
      stage_entity base_url sae.content_id sae.uri {} = .ok entity ∧
      lineageEntities base_url honest.args = .ok (payload ++ [entity]) ∧
      (assert_structure_as_executed_bind (.obj bom) sae_uri = .ok entity ↔
        is_hl sae_uri = false) ∧
      ((∀ stage ∈ honest.stages, stage.content_id ≠ sae.content_id) →
        entity ∉ payload)

/-- The `@id` of an entity of the builder is not blank. -/
theorem Cited.named {honest : HonestRef} {uri : String} {entity : Fields}
    (cited : Cited honest uri entity) : ∃ id,
      Fields.get? entity "@id" = some (.str id) ∧ Text.strip id ≠ "" := by
  cases cited with
  | web http =>
      refine ⟨uri, rfl, ?_⟩
      intro blank
      rw [is_http_uri, blank] at http
      revert http
      decide
  | bare http denotes =>
      refine ⟨_, rfl, ?_⟩
      rw [strip_ipfs_id]
      simp

theorem Cited.visible {honest : HonestRef} {uri : String} {entity : Fields}
    (cited : Cited honest uri entity) : Text.strip uri ≠ "" := by
  cases cited with
  | web http =>
      have denotes : Denotes uri honest.content := .web http
      exact visible_of_denotes denotes
  | bare http denotes => exact visible_of_denotes denotes

/-- Every locator has a token. -/
theorem Cited.token {honest : HonestRef} {uri : String} {entity : Fields}
    (cited : Cited honest uri entity) :
    ∃ expected, ref_token uri = .ok expected := by
  cases linked : is_hl uri with
  | true => exact ⟨_, ref_token_hl linked⟩
  | false =>
      cases cited with
      | web http => exact ⟨_, ref_token_http http⟩
      | bare http denotes => exact ⟨_, ref_token_denotes denotes http linked⟩

theorem entity_agrees_whole {honest : HonestRef} {uri : String}
    {entity : Fields} (label : String) (cited : Cited honest uri entity) :
    entity_agrees entity uri label = .ok () ↔ is_hl uri = false := by
  have agrees := @entity_agrees_own honest uri entity [] label cited rfl
  rwa [List.append_nil] at agrees

/-- The first checker on a BOM that used two entities. -/
theorem assert_execution_bind_built {bom order invoice : Fields}
    {order_uri invoice_uri : String} {first second : HonestRef}
    (used : used_entities (.obj bom) = .ok [order, invoice])
    (ordered : Cited first order_uri order)
    (invoiced : Cited second invoice_uri invoice) (bound : List Fields) :
    assert_execution_bind (.obj bom) order_uri invoice_uri = .ok bound ↔
      bound = [order, invoice] ∧ is_hl order_uri = false ∧
        is_hl invoice_uri = false := by
  constructor
  · intro accepted
    obtain ⟨_, _, _, whole, found, agreed, agreed'⟩ := accepted_bind accepted
    have same : bound = [order, invoice] :=
      Except.ok.inj (found.symm.trans used)
    rw [same] at whole
    cases whole
    exact ⟨same, (entity_agrees_whole _ ordered).mp agreed,
      (entity_agrees_whole _ invoiced).mp agreed'⟩
  · intro plain
    obtain ⟨same, order_plain, invoice_plain⟩ := plain
    have agreed := (entity_agrees_whole "Order" ordered).mpr order_plain
    have agreed' :=
      (entity_agrees_whole "output Invoice" invoiced).mpr invoice_plain
    rw [← entity_agrees_strip] at agreed agreed'
    rw [same, assert_execution_bind, require_uri, if_neg ordered.visible,
      require_uri, if_neg invoiced.visible]
    simp [used, agreed, agreed', fetchPayload, bind, Except.bind]

/-- The second checker on a BOM whose last stage is the observation. -/
theorem assert_sae_bind_built {bom : Fields} {base_url uri : String}
    {payload : List Fields} {sae : HonestRef} {entity : Fields}
    (listed : lineageOf bom = .ok ((payload ++ [entity]).map .obj))
    (last : IsStage base_url sae none entity)
    (checked : sae.checked base_url = .ok uri)
    (staged : ∀ other ∈ payload, ∃ stage derived,
      IsStage base_url stage derived other) :
    assert_structure_as_executed_bind (.obj bom) uri = .ok entity ↔
      is_hl uri = false := by
  obtain ⟨own, start, rest, found, cited, _⟩ := last.cited
  have same : uri = own := Except.ok.inj (checked.symm.trans found)
  subst same
  obtain ⟨expected, token⟩ := cited.token
  rw [← ref_token_strip] at token
  have calm : ∀ other ∈ payload ++ [entity],
      entity_agrees other (Text.strip uri) "structure_as_executed" = .ok () ∨
        ∃ text, entity_agrees other (Text.strip uri) "structure_as_executed" =
          .error (.assertionError text) := by
    intro other member
    rcases List.mem_append.mp member with member | member
    · obtain ⟨stage, derived, isStage⟩ := staged other member
      exact isStage.calm _ token
    · rw [List.mem_singleton.mp member]
      exact last.calm _ token
  have settled := sae_lineage_entity_last listed last checked calm
  rw [← settled, assert_structure_as_executed_bind, require_uri,
    if_neg cited.visible]
  cases result : sae_lineage_entity (.obj bom) (Text.strip uri) with
  | error raised => simp [result, bind, Except.bind]
  | ok chosen => simp [result, fetchPayload, bind, Except.bind]

/-- The BOM of honest arguments. -/
theorem bom_honest (honest : HonestArgs) : ∃ bom,
    build_execution_bom (node_base_url host port) honest.args = .ok bom ∧
      PassesBinds (node_base_url host port) honest bom := by
  obtain ⟨order_uri, order, orderChecked, ordered, orderCited⟩ :=
    @entity_honest host port honest.order
  obtain ⟨invoice_uri, invoice, invoiceChecked, invoiced, invoiceCited⟩ :=
    @entity_honest host port honest.invoice
  obtain ⟨resolved, invoiceResolved, sameInvoice⟩ :=
    @resolved_honest host port honest.invoice
  obtain ⟨log_uri, logResolved, _⟩ := @resolved_honest host port honest.log
  obtain ⟨payload, observed, staged, few, payloads, observations⟩ :=
    @lineage_honest host port honest
  have used : usedEntities (node_base_url host port) honest.args resolved =
      .ok [order, invoice] := by
    have given : honest.args.order.given = some honest.order.content_id :=
      honest.order.given_ref
    have uri : honest.args.order.uri = honest.order.uri := rfl
    have id : honest.args.invoice_id = honest.invoice.content_id := rfl
    simp only [usedEntities, given, uri, id, ordered, sameInvoice, invoiced,
      bind, Except.bind]
    rfl
  refine ⟨_, build_returns invoiceResolved logResolved used staged, ?_⟩
  constructor
  · refine ⟨order_uri, invoice_uri, order, invoice, orderChecked,
      invoiceChecked, ordered, invoiced, ?_⟩
    intro bound
    obtain ⟨order_id, orderNamed, orderText⟩ := orderCited.named
    obtain ⟨invoice_id, invoiceNamed, invoiceText⟩ := invoiceCited.named
    have activity := activity_of_build honest.args (payload ++ observed)
      [order, invoice] resolved log_uri
    exact assert_execution_bind_built (used_entities_pair activity orderNamed
      invoiceNamed orderText invoiceText) orderCited invoiceCited bound
  · intro sae given
    obtain ⟨entity, isStage⟩ := @stage_honest host port sae none
    obtain ⟨sae_uri, own, rest, checked, cited, whole, appended⟩ :=
      isStage.cited
    have member := (observations entity).mpr ⟨sae, given, isStage⟩
    have only : observed = [entity] := by
      have one : observed.length = 1 :=
        Nat.le_antisymm few (List.length_pos_of_mem member)
      obtain ⟨other, whole⟩ := List.length_eq_one_iff.mp one
      rw [whole, List.mem_singleton] at member
      rw [whole, member]
    subst only
    refine ⟨sae_uri, entity, payload, checked, isStage.built, staged, ?_, ?_⟩
    · apply assert_sae_bind_built _ isStage checked
      · intro other member
        obtain ⟨stage, _, derived, isOther⟩ := payloads other member
        exact ⟨stage, derived, isOther⟩
      · exact lineage_of_build _ _ _ _ _
    · intro others member
      obtain ⟨stage, listed, derived, isOther⟩ := payloads entity member
      exact others stage listed (isOther.sameId isStage)

end Stages

/-- What the checkers guarantee on a Node. -/
structure BindsHonest (base_url : String) : Prop where
  built : ∀ honest : HonestArgs, ∃ bom,
    build_execution_bom base_url honest.args = .ok bom ∧
      PassesBinds base_url honest bom
  accepted : ∀ bom order_uri invoice_uri payloads bound,
    assert_execution_bind bom order_uri invoice_uri payloads = .ok bound →
      ∃ order invoice rest, bound = order :: invoice :: rest ∧
        used_entities bom = .ok bound ∧
        (∀ digest, Bears order_uri digest → Carries order digest) ∧
        ∀ digest, Bears invoice_uri digest → Carries invoice digest

/-- Honest BOMs pass the bind checkers, unless these are called with a hashlink,
and what `assert_execution_bind` accepts carries the digests of its locators, in
order. -/
theorem honest_boms_bind (host : String) (port : Nat) :
    BindsHonest (node_base_url host port) := by
  constructor
  · exact bom_honest
  · intro bom order_uri invoice_uri payloads bound accepted
    obtain ⟨order, invoice, rest, whole, used, ordered, invoiced⟩ :=
      accepted_bind accepted
    refine ⟨order, invoice, rest, whole, used, ?_, ?_⟩
    · intro digest bears
      exact carries_of_agrees ordered bears
    · intro digest bears
      exact carries_of_agrees invoiced bears

/-- The hashlink of a digest, with a hint, denotes the digest. -/
theorem denotes_hashlink (digest : Digest) :
    is_hl (hashlinkWith digest "https://example.org/order") = true ∧
      Denotes (hashlinkWith digest "https://example.org/order")
        (.named digest) := by
  obtain ⟨_, linked, parsed⟩ :=
    @from_hl_hashlinkWith digest "https://example.org/order" (by decide)
      (by decide) (by
        intro character last
        rw [← Option.mem_some.mp last]
        decide)
  exact ⟨linked, .hashlink linked parsed⟩

/-- An id that is given without a locator. -/
def bareRef (digest : Digest) : HonestRef :=
  { content_id := to_ni digest
    content := .named digest
    spells := ContentId.spells_text (.named digest)
    bare := strip_to_ni digest
    denotes := by
      intro uri given
      cases given }

/-- An id that is given with its hashlink for a locator. -/
def linkedRef (digest : Digest) : HonestRef :=
  { bareRef digest with
    uri := some (hashlinkWith digest "https://example.org/order")
    denotes := by
      intro uri given
      rw [← Option.mem_some.mp given]
      exact (denotes_hashlink digest).2 }

/-- An Order whose locator is its hashlink is not recognised in the BOM that was
built with it. -/
theorem hashlinked_order_rejected : ∃ (honest : HonestArgs) (bom : Fields)
    (order_uri invoice_uri : String),
    build_execution_bom (node_base_url "localhost" 8080) honest.args =
        .ok bom ∧
      honest.order.uri = some order_uri ∧
      Denotes order_uri honest.order.content ∧
      honest.invoice.checked (node_base_url "localhost" 8080) =
        .ok invoice_uri ∧
      ∀ bound, assert_execution_bind (.obj bom) order_uri invoice_uri ≠
        .ok bound := by
  obtain ⟨bom, built, passes⟩ := @bom_honest "localhost" 8080
    { log := bareRef (sha256_hex [])
      invoice := bareRef (sha256_hex [])
      order := linkedRef (sha256_hex []) }
  obtain ⟨order_uri, invoice_uri, order, invoice, ordered, invoiced, _, _,
    checks⟩ := passes.execution
  have denotes := denotes_hashlink (sha256_hex [])
  refine ⟨_, bom, _, invoice_uri, built, rfl, denotes.2, invoiced, ?_⟩
  intro bound accepted
  cases ordered
  obtain ⟨_, plain, _⟩ := (checks bound).mp accepted
  rw [denotes.1] at plain
  cases plain

end ExecutionBind

end Cats
