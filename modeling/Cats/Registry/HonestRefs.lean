import Cats.Ldp.Address
import Cats.Registry.ExecutionBind

/-!
# The entities of honest refs

An honest ref is an id with a locator that denotes it.  The builder makes one of
two entities of it, and a checker that is called with the locator takes that
entity unless the locator is a hashlink, the one spelling its tokens do not
know.
-/

namespace Cats

/-- A scheme that begins the lowered text. -/
def BeginsWith (text scheme : String) : Prop :=
  Text.startsWith (Text.lower (Text.strip text)) scheme = true

/-- Two schemes that both begin a text are nested. -/
theorem BeginsWith.nested {text one other : String}
    (first : BeginsWith text one) (second : BeginsWith text other) :
    (one.toList.isPrefixOf other.toList || other.toList.isPrefixOf one.toList)
      = true := by
  rw [Bool.or_eq_true, List.isPrefixOf_iff_prefix, List.isPrefixOf_iff_prefix]
  have left := Text.startsWith_iff.mp first
  have right := Text.startsWith_iff.mp second
  rcases Nat.le_total one.toList.length other.toList.length with short | long
  · left
    exact List.prefix_of_prefix_length_le left right short
  · right
    exact List.prefix_of_prefix_length_le right left long

theorem beginsWith_of_http {uri : String} (http : is_http_uri uri = true) :
    BeginsWith uri "http://" ∨ BeginsWith uri "https://" :=
  Bool.or_eq_true_iff.mp http

theorem notIpfs_of_http {uri : String} (http : is_http_uri uri = true) :
    Text.startsWith (Text.lower (Text.strip uri)) "ipfs://" = false := by
  rw [Bool.eq_false_iff]
  intro ipfs
  rcases beginsWith_of_http http with plain | secure
  · have nested := plain.nested ipfs
    revert nested
    decide
  · have nested := secure.nested ipfs
    revert nested
    decide

theorem notIpfs_of_hl {uri : String} (linked : is_hl uri = true) :
    Text.startsWith (Text.lower (Text.strip uri)) "ipfs://" = false := by
  rw [Bool.eq_false_iff]
  intro ipfs
  have begins : BeginsWith uri "hl:" := linked
  have nested := begins.nested ipfs
  revert nested
  decide

theorem notHttp_of_hl {uri : String} (linked : is_hl uri = true) :
    is_http_uri uri = false := by
  rw [Bool.eq_false_iff]
  intro http
  rw [notHashlink_of_http http] at linked
  cases linked

theorem colon_of_hl {uri : String} (linked : is_hl uri = true) :
    ':' ∈ (Text.lower (Text.strip uri)).toList := by
  have begins := Text.startsWith_iff.mp linked
  exact begins.subset (by decide)

/-- A hashlink is not read as an `ni:` id or a digest. -/
theorem bare_of_hl {uri : String} (linked : is_hl uri = true) :
    is_ni_or_digest uri = false := by
  rw [is_ni_or_digest, Bool.or_eq_false_iff]
  constructor
  · rw [Bool.eq_false_iff]
    intro hex
    simp only [isHexSha256, Bool.and_eq_true, List.all_eq_true] at hex
    have digit := hex.2 ':' (colon_of_hl linked)
    revert digit
    decide
  · have begins := Text.startsWith_iff.mp linked
    have other : Text.startsWith (Text.strip uri) "ni:///sha-256;" = false := by
      rw [Bool.eq_false_iff, ne_eq, Text.startsWith_iff]
      intro leads
      obtain ⟨tail, whole⟩ := leads
      rw [Text.toList_lower, ← whole, List.map_append] at begins
      obtain ⟨rest, same⟩ := begins
      have start : "hl:".toList = ['h', 'l', ':'] := by decide
      rw [start] at same
      have heads := congrArg List.head? same
      cases heads
    simp [niPayload?, other]

/-- The content an explicit locator denotes. -/
inductive Denotes : String → ContentId → Prop
  | web {uri : String} {content : ContentId} (http : is_http_uri uri = true) :
      Denotes uri content
  | spelling {uri : String} {content : ContentId}
      (spells : ContentId.Spells uri content) : Denotes uri content
  | ipfs {uri id : String} {scheme : List Char} {content : ContentId}
      (text : (Text.strip uri).toList = scheme ++ id.toList)
      (lowered : scheme.map Char.toLower = "ipfs://".toList)
      (bare : Text.strip id = id) (spells : ContentId.Spells id content) :
      Denotes uri content
  | hashlink {uri : String} {digest : Digest} {hints : List String}
      (linked : is_hl uri = true)
      (parsed : from_hl uri = .ok (to_ni digest, hints)) :
      Denotes uri (.named digest)

theorem tokenOf_http {uri : String} (http : is_http_uri uri = true) :
    tokenOf uri = .ok (uri_digest uri) := by
  rw [tokenOf, if_pos http]

theorem is_http_uri_strip (uri : String) :
    is_http_uri (Text.strip uri) = is_http_uri uri := by
  rw [is_http_uri, Text.strip_strip]
  rfl

theorem ref_token_strip (uri : String) :
    ref_token (Text.strip uri) = ref_token uri := by
  simp only [ref_token, Text.strip_strip]

theorem ref_token_http {uri : String} (http : is_http_uri uri = true) :
    ref_token uri = .ok (uri_digest (Text.strip uri)) := by
  simp only [ref_token, notIpfs_of_http http, Bool.false_eq_true, if_false]
  apply tokenOf_http
  rw [is_http_uri_strip]
  exact http

theorem ref_token_hl {uri : String} (linked : is_hl uri = true) :
    ref_token uri = .ok (Text.lower (Text.strip uri)) := by
  have bare := bare_of_hl linked
  rw [← is_ni_or_digest_strip] at bare
  have http := notHttp_of_hl linked
  rw [← is_http_uri_strip] at http
  simp only [ref_token, notIpfs_of_hl linked, Bool.false_eq_true, if_false,
    tokenOf, http, bare]

/-- Behind `ipfs://` the token is that of the id. -/
theorem ref_token_ipfs {uri id : String} {scheme : List Char}
    {content : ContentId} (text : (Text.strip uri).toList = scheme ++ id.toList)
    (lowered : scheme.map Char.toLower = "ipfs://".toList)
    (bare : Text.strip id = id) (spells : ContentId.Spells id content) :
    ref_token uri = .ok content.lowered := by
  have begins : Text.startsWith (Text.lower (Text.strip uri)) "ipfs://" =
      true := by
    rw [Text.startsWith_iff, Text.toList_lower, text, List.map_append, lowered]
    exact List.prefix_append _ _
  have size : scheme.length = 7 := by
    have lengths := congrArg List.length lowered
    rw [List.length_map] at lengths
    exact lengths
  have rest : String.ofList ((Text.strip uri).toList.drop 7) = id := by
    rw [text, ← size, List.drop_left, String.ofList_toList]
  have token := tokenOf_spelling spells
  rw [bare] at token
  simp only [ref_token, begins, if_true, rest]
  exact token

theorem noColon_lowered (content : ContentId) :
    ':' ∉ content.lowered.toList := by
  cases content with
  | named digest =>
      intro colon
      have digit := digest.isDigit ':' colon
      revert digit
      decide
  | segment value legal bare =>
      intro colon
      have mapped : ':' ∈ (Text.lower value).toList := colon
      rw [Text.toList_lower] at mapped
      obtain ⟨character, inside, same⟩ := List.mem_map.mp mapped
      refine Text.toLower_ne_colon ?_ same
      intro same
      exact ContentId.noColon_of_segment legal (same ▸ inside)

/-- A locator that is neither a URI nor a hashlink has the token of what it
denotes. -/
theorem ref_token_denotes {uri : String} {content : ContentId}
    (denotes : Denotes uri content) (http : is_http_uri uri = false)
    (hl : is_hl uri = false) : ref_token uri = .ok content.lowered := by
  cases denotes with
  | web web =>
      rw [web] at http
      cases http
  | spelling spells => exact ref_token_spelling spells
  | ipfs text lowered bare spells =>
      exact ref_token_ipfs text lowered bare spells
  | hashlink linked parsed =>
      rw [linked] at hl
      cases hl

namespace ExecutionBind

open ExecutionBom

/-- An id with the locator given for it, if any. -/
structure HonestRef where
  content_id : String
  content : ContentId
  spells : ContentId.Spells content_id content
  bare : Text.strip content_id = content_id
  uri : Option String := none
  denotes : ∀ given ∈ uri, Denotes given content

namespace HonestRef

/-- The ref as the builder takes it. -/
def ref (honest : HonestRef) : Ref :=
  { id := some honest.content_id, uri := honest.uri }

/-- The locator a checker is called with. -/
def checked (base_url : String) (honest : HonestRef) : Except Raised String :=
  match honest.uri with
  | some uri => .ok uri
  | none => (content_uri honest.content_id base_url).map
      (·.getD honest.content_id)

theorem id_ne_empty (honest : HonestRef) : honest.content_id ≠ "" := by
  intro empty
  have nonblank := nonblank_spelling honest.spells
  rw [honest.bare] at nonblank
  exact nonblank empty

@[simp] theorem given_ref (honest : HonestRef) :
    honest.ref.given = some honest.content_id := by
  simp [ref, Ref.given, honest.id_ne_empty]

@[simp] theorem uri_ref (honest : HonestRef) : honest.ref.uri = honest.uri :=
  rfl

/-- No id is a URI. -/
theorem notHttp_id (honest : HonestRef) :
    is_http_uri honest.content_id = false := by
  obtain ⟨digest, _, named⟩ | ⟨legal, _, _⟩ := honest.spells.cases
  · rw [honest.bare] at named
    exact (notUri_of_from_ni named).1
  · rw [honest.bare] at legal
    exact ContentId.is_http_uri_segment legal

theorem notHl_id (honest : HonestRef) : is_hl honest.content_id = false := by
  obtain ⟨digest, _, named⟩ | ⟨legal, _, _⟩ := honest.spells.cases
  · rw [honest.bare] at named
    exact (notUri_of_from_ni named).2.1
  · rw [honest.bare] at legal
    exact ContentId.is_hl_segment legal

end HonestRef

/-- The ref of an argument that may be left out. -/
def refOf (argument : Option HonestRef) : Ref :=
  match argument with
  | some honest => honest.ref
  | none => {}

/-- The arguments of an honest call. -/
structure HonestArgs where
  log : HonestRef
  invoice : HonestRef
  order : HonestRef
  node_did : Option String := none
  input_data : Option HonestRef := none
  ingress_data : Option HonestRef := none
  integration_data : Option HonestRef := none
  data : Option HonestRef := none
  structure_as_executed : Option HonestRef := none

def HonestArgs.args (honest : HonestArgs) : Args :=
  { log_id := honest.log.content_id
    log_uri := honest.log.uri
    invoice_id := honest.invoice.content_id
    invoice_uri := honest.invoice.uri
    node_did := honest.node_did
    order := honest.order.ref
    input_data := refOf honest.input_data
    ingress_data := refOf honest.ingress_data
    integration_data := refOf honest.integration_data
    data := refOf honest.data
    structure_as_executed := refOf honest.structure_as_executed }

/-- The stages that hold payload. -/
def HonestArgs.stages (honest : HonestArgs) : List HonestRef :=
  honest.ingress_data.toList ++ honest.integration_data.toList ++
    honest.data.toList

/-- The two entities the builder can make of a ref, with the locator a checker
is called with. -/
inductive Cited (honest : HonestRef) (uri : String) : Fields → Prop
  | web (http : is_http_uri uri = true) :
      Cited honest uri [("@id", .str uri), ("contentId", .str honest.content_id)]
  | bare (http : is_http_uri uri = false)
      (denotes : Denotes uri honest.content) :
      Cited honest uri [("@id", .str ("ipfs://" ++ honest.content_id))]

section Built

variable {host : String} {port : Nat}

/-- The locator a Node gives to a digest is a URI. -/
theorem isHttp_cas_ldp_uri (digest : Digest) :
    is_http_uri (cas_ldp_uri digest (node_base_url host port)) = true := by
  have shape : (cas_ldp_uri digest (node_base_url host port)).toList =
      "http://".toList ++ (host.toList ++ ':' :: Nat.toDigits 10 port ++
        "/ldp/cas/".toList ++ digest.hex.toList) := by
    rw [cas_ldp_uri, rstripSlash_node_base_url, String.toList_append,
      toList_node_base_url, cas_ldp_path]
    simp
  have nonempty : digest.hex.toList ≠ [] := by
    intro empty
    have size := digest.length
    rw [empty] at size
    cases size
  have stripped : Text.strip (cas_ldp_uri digest (node_base_url host port)) =
      cas_ldp_uri digest (node_base_url host port) := by
    apply String.toList_injective
    rw [Text.toList_strip, shape]
    apply Text.stripChars_eq_self
    · intro character first
      rw [← Option.mem_some.mp first]
      decide
    · intro character last
      rw [← List.append_assoc, List.getLast?_append_of_ne_nil _ nonempty]
        at last
      exact Digest.isSpace_of_hex
        (digest.isDigit character (List.mem_of_getLast? last))
  rw [is_http_uri, stripped, Bool.or_eq_true]
  left
  rw [Text.startsWith_iff, Text.toList_lower, shape, List.map_append]
  have lowered : "http://".toList.map Char.toLower = "http://".toList := by
    decide
  rw [lowered]
  exact List.prefix_append _ _

/-- The locator that `content_uri` finds for an id. -/
theorem content_uri_honest (honest : HonestRef) :
    (∃ uri, content_uri honest.content_id (node_base_url host port) =
        .ok (some uri) ∧ is_http_uri uri = true) ∨
      content_uri honest.content_id (node_base_url host port) = .ok none := by
  obtain ⟨digest, _, named⟩ | ⟨_, bare, _⟩ := honest.spells.cases
  · left
    refine ⟨cas_ldp_uri digest (node_base_url host port), ?_,
      isHttp_cas_ldp_uri digest⟩
    have digests := (notUri_of_from_ni named).2.2
    rw [content_uri, if_neg honest.id_ne_empty]
    simp only [digests, if_true, named]
    rfl
  · right
    rw [content_uri, if_neg honest.id_ne_empty]
    simp only [bare, Bool.false_eq_true, if_false]

theorem bareEntity_honest (honest : HonestRef) :
    bareEntity honest.content_id =
      [("@id", .str ("ipfs://" ++ honest.content_id))] := by
  rw [bareEntity, honest.notHttp_id]
  rfl

theorem entityAt_web {content_id resolved : String}
    (http : is_http_uri resolved = true) :
    entityAt content_id (some resolved) =
      [("@id", .str resolved), ("contentId", .str content_id)] := by
  have nonempty : resolved ≠ "" := by
    intro empty
    rw [empty] at http
    revert http
    decide
  simp [entityAt, Option.filter_some, nonempty, http]

theorem entityAt_bare {honest : HonestRef} {resolved : Option String}
    (http : ∀ given ∈ resolved, is_http_uri given = false) :
    entityAt honest.content_id resolved =
      [("@id", .str ("ipfs://" ++ honest.content_id))] := by
  rw [entityAt, bareEntity_honest]
  cases resolved with
  | none => rfl
  | some given =>
      rw [Option.filter_some]
      by_cases empty : given = ""
      · simp [empty]
      · simp [empty, http given rfl]

/-- The entity the builder makes of an honest ref. -/
theorem entity_honest (honest : HonestRef) : ∃ uri entity,
    honest.checked (node_base_url host port) = .ok uri ∧
      entity_id (node_base_url host port) honest.content_id honest.uri =
        .ok entity ∧ Cited honest uri entity := by
  cases given : honest.uri with
  | some uri =>
      have checked : honest.checked (node_base_url host port) = .ok uri := by
        rw [HonestRef.checked, given]
      refine ⟨uri, entityAt honest.content_id (some uri), checked, rfl, ?_⟩
      cases http : is_http_uri uri with
      | true =>
          rw [entityAt_web http]
          exact .web http
      | false =>
          rw [entityAt_bare]
          · exact .bare http (honest.denotes uri given)
          · intro other same
            rw [← Option.mem_some.mp same]
            exact http
  | none =>
      obtain ⟨uri, found, http⟩ | absent :=
        @content_uri_honest host port honest
      · refine ⟨uri, entityAt honest.content_id (some uri), ?_, ?_, ?_⟩
        · rw [HonestRef.checked, given, found]
          rfl
        · rw [entity_id, locator, found]
          rfl
        · rw [entityAt_web http]
          exact .web http
      · refine ⟨honest.content_id, entityAt honest.content_id none, ?_, ?_, ?_⟩
        · rw [HonestRef.checked, given, absent]
          rfl
        · rw [entity_id, locator, absent]
          rfl
        · rw [entityAt_bare]
          · exact .bare honest.notHttp_id (.spelling honest.spells)
          · intro other same
            cases same

end Built

theorem strip_ipfs_id (honest : HonestRef) :
    Text.strip ("ipfs://" ++ honest.content_id) =
      "ipfs://" ++ honest.content_id := by
  have nonempty : honest.content_id.toList ≠ [] := by
    intro empty
    apply honest.id_ne_empty
    exact String.toList_injective (empty.trans rfl)
  apply String.toList_injective
  rw [Text.toList_strip, String.toList_append]
  apply Text.stripChars_eq_self
  · intro character first
    rw [← Option.mem_some.mp first]
    decide
  · intro character last
    rw [List.getLast?_append_of_ne_nil _ nonempty, ← honest.bare,
      Text.toList_strip] at last
    exact Text.stripChars_last _ character last

theorem ref_token_ipfs_id (honest : HonestRef) :
    ref_token ("ipfs://" ++ honest.content_id) =
      .ok honest.content.lowered := by
  have text : (Text.strip ("ipfs://" ++ honest.content_id)).toList =
      "ipfs://".toList ++ honest.content_id.toList := by
    rw [strip_ipfs_id, String.toList_append]
  exact ref_token_ipfs text (by decide) honest.bare honest.spells

/-- The tokens of a stage are those of its locator and of its id. -/
theorem candidates_cited {honest : HonestRef} {uri : String}
    {entity rest : Fields} (cited : Cited honest uri entity)
    (appended : Fields.get? rest "contentId" = none) : ∃ tokens,
    candidates (entity ++ rest) ["@id", "contentId"] = .ok tokens ∧
      ∀ token, token ∈ tokens ↔
        (is_http_uri uri = true ∧ token = uri_digest (Text.strip uri)) ∨
          token = honest.content.lowered := by
  have nonblank := nonblank_spelling honest.spells
  have own := ref_token_spelling honest.spells
  cases cited with
  | web http =>
      have web := ref_token_http http
      have visible : Text.strip uri ≠ "" := by
        intro blank
        rw [is_http_uri, blank] at http
        revert http
        decide
      refine ⟨[uri_digest (Text.strip uri), honest.content.lowered], ?_, ?_⟩
      · simp [candidates, visible, nonblank, web, own, bind, Except.bind]
      · intro token
        simp [http]
  | bare http denotes =>
      have named := ref_token_ipfs_id honest
      have visible : Text.strip ("ipfs://" ++ honest.content_id) ≠ "" := by
        rw [strip_ipfs_id]
        simp
      refine ⟨[honest.content.lowered], ?_, ?_⟩
      · simp [candidates, appended, visible, named, bind, Except.bind]
      · intro token
        simp [http]

/-- The locator's token is one of the entity's. -/
def Agrees (honest : HonestRef) (own expected : String) : Prop :=
  (is_http_uri own = true ∧ expected = uri_digest (Text.strip own)) ∨
    expected = honest.content.lowered

/-- A checker that does not take an entity raises an `AssertionError`. -/
theorem entity_agrees_cases {honest : HonestRef} {own uri expected : String}
    {entity rest : Fields} (label : String) (cited : Cited honest own entity)
    (appended : Fields.get? rest "contentId" = none)
    (token : ref_token uri = .ok expected) :
    (entity_agrees (entity ++ rest) uri label = .ok () ∧
        Agrees honest own expected) ∨
      (∃ text, entity_agrees (entity ++ rest) uri label =
          .error (.assertionError text)) ∧ ¬ Agrees honest own expected := by
  obtain ⟨tokens, read, members⟩ := candidates_cited cited appended
  rw [entity_agrees, token, Agrees, ← members]
  simp only [read, bind, Except.bind]
  by_cases member : expected ∈ tokens
  · left
    simp [member]
  · right
    simp [member]

/-- A checker takes the entity of a ref for its locator, unless that is a
hashlink. -/
theorem entity_agrees_own {honest : HonestRef} {uri : String}
    {entity rest : Fields} (label : String) (cited : Cited honest uri entity)
    (appended : Fields.get? rest "contentId" = none) :
    entity_agrees (entity ++ rest) uri label = .ok () ↔ is_hl uri = false := by
  cases linked : is_hl uri with
  | true =>
      have colon := colon_of_hl linked
      obtain ⟨_, found⟩ | ⟨⟨text, refused⟩, _⟩ :=
        entity_agrees_cases label cited appended (ref_token_hl linked)
      · rcases found with ⟨http, _⟩ | same
        · rw [notHttp_of_hl linked] at http
          cases http
        · rw [same] at colon
          exact absurd colon (noColon_lowered honest.content)
      · simp [refused]
  | false =>
      obtain ⟨expected, token, found⟩ : ∃ expected,
          ref_token uri = .ok expected ∧ Agrees honest uri expected := by
        cases cited with
        | web http => exact ⟨_, ref_token_http http, .inl ⟨http, rfl⟩⟩
        | bare http denotes =>
            exact ⟨_, ref_token_denotes denotes http linked, .inr rfl⟩
      obtain ⟨agreed, _⟩ | ⟨_, missing⟩ :=
        entity_agrees_cases label cited appended token
      · simp [agreed]
      · exact absurd found missing

end ExecutionBind

end Cats
