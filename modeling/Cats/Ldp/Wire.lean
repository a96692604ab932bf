import Cats.AddressStore.Copy
import Cats.Ldp.Routes
import Cats.Ldp.Runs
import Cats.Registry.RefRoundTrip

/-!
# Published locators and the digests they stand for

A document is named by the digest of the bytes `put_json` writes of it.  What a
published locator answers is written anew, by another encoder: the two agree on
the empty object only.
-/

namespace Cats

open Effect

namespace Json

theorem withFloatsFields_eq_map (fields : Fields) :
    withFloatsFields fields =
      fields.map fun field => (field.1, field.2.withFloats) := by
  induction fields with
  | nil => rfl
  | cons field rest induction =>
      rw [withFloatsFields, induction]
      rfl

theorem withFloatsFields_insertField (field : String × Json)
    (fields : Fields) :
    withFloatsFields (insertField field fields) =
      insertField (field.1, field.2.withFloats) (withFloatsFields fields) := by
  induction fields with
  | nil => rfl
  | cons other rest induction =>
      unfold insertField
      by_cases before : field.1 ≤ other.1
      · rw [if_pos before]
        simp only [withFloatsFields]
        rw [if_pos before]
      · rw [if_neg before]
        simp only [withFloatsFields]
        rw [if_neg before, induction]

mutual

/-- Writing the floats and sorting the keys commute. -/
theorem withFloats_sortKeys :
    ∀ value : Json, value.sortKeys.withFloats = value.withFloats.sortKeys
  | .null => rfl
  | .bool _ => rfl
  | .int _ => rfl
  | .float _ => rfl
  | .str _ => rfl
  | .arr items => by
      simp only [sortKeys, withFloats]
      rw [withFloats_sortKeysItems items]
  | .obj fields => by
      simp only [sortKeys, withFloats]
      rw [withFloats_sortKeysFields fields]

theorem withFloats_sortKeysItems :
    ∀ items : List Json, withFloatsItems (sortKeysItems items) =
      sortKeysItems (withFloatsItems items)
  | [] => rfl
  | item :: items => by
      simp only [sortKeysItems, withFloatsItems]
      rw [withFloats_sortKeys item, withFloats_sortKeysItems items]

theorem withFloats_sortKeysFields :
    ∀ fields : List (String × Json), withFloatsFields (sortKeysFields fields) =
      sortKeysFields (withFloatsFields fields)
  | [] => rfl
  | (name, value) :: rest => by
      simp only [sortKeysFields, withFloatsFields]
      rw [withFloatsFields_insertField, withFloats_sortKeys value,
        withFloats_sortKeysFields rest]

end

end Json

/-- A file that an encoder wrote is loaded as the document. -/
theorem loadFile_written (style : Json.Style) {value : Json}
    (valid : value.wellFormed = true) (floats : value.withFloats = value) :
    loadFile (some (Utf8.encodeAscii (Json.dumps style value ++ ['\n']))) =
      .ok (some value) := by
  obtain ⟨text, decoded, loaded⟩ :=
    Raised.bind_returns (load_written style valid floats)
  simp only [loadFile, decoded, loaded, bind, Except.bind, Except.map]

section Layouts

variable (name : String) (value : Json) (rest : Fields)

theorem dumps_standard_cons : ∃ tail,
    Json.dumps .standard (.obj ((name, value) :: rest)) =
      '{' :: '"' :: (name.toList.flatMap Json.escapeChar ++
        '"' :: ':' :: ' ' :: tail) := by
  have line : ∀ depth, Json.Style.standard.newline depth = [] := fun _ => rfl
  have gap : Json.Style.standard.keyGap = [' '] := rfl
  simp only [Json.dumps, Json.render, Json.quote, line, gap, List.nil_append,
    List.cons_append, List.append_assoc]
  exact ⟨_, rfl⟩

theorem dumps_compact_cons : ∃ tail,
    Json.dumps .compact (.obj ((name, value) :: rest)) =
      '{' :: '"' :: (name.toList.flatMap Json.escapeChar ++
        '"' :: ':' :: (Json.render .compact 1 value ++ tail)) := by
  have line : ∀ depth, Json.Style.compact.newline depth = [] := fun _ => rfl
  have gap : Json.Style.compact.keyGap = [] := rfl
  simp only [Json.dumps, Json.render, Json.quote, line, gap, List.nil_append,
    List.cons_append, List.append_assoc]
  exact ⟨_, rfl⟩

theorem dumps_indented_cons : ∃ tail,
    Json.dumps .indented (.obj ((name, value) :: rest)) =
      '{' :: '\n' :: tail := by
  simp only [Json.dumps, Json.render]
  exact ⟨_, rfl⟩

end Layouts

/-- The text of a document that has a field is laid out in its own way by each
encoder. -/
theorem dumps_ne_standard (debug : Bool) {left right : Fields}
    (valid : Json.wellFormed (.obj left) = true) (given : right ≠ []) :
    Json.dumps (if debug then .indented else .compact) (.obj left) ++ ['\n'] ≠
      Json.dumps .standard (.obj right) ++ ['\n'] := by
  intro same
  obtain ⟨⟨name, value⟩, rest, rfl⟩ := List.exists_cons_of_ne_nil given
  obtain ⟨behind, standard⟩ := dumps_standard_cons name value rest
  rw [standard] at same
  cases left with
  | nil =>
      have empty : ∀ style, Json.dumps style (.obj []) = ['{', '}'] :=
        fun _ => rfl
      rw [empty] at same
      injection same with _ same
      injection same with same _
      revert same
      decide
  | cons field others =>
      obtain ⟨other, first⟩ := field
      cases debug with
      | true =>
          obtain ⟨tail, indented⟩ := dumps_indented_cons other first others
          rw [if_pos rfl, indented] at same
          injection same with _ same
          injection same with same _
          revert same
          decide
      | false =>
          obtain ⟨tail, compact⟩ := dumps_compact_cons other first others
          rw [if_neg Bool.false_ne_true, compact] at same
          simp only [List.cons_append, List.append_assoc, List.cons.injEq,
            true_and] at same
          -- the quoted names are read off both texts, and what is left differs
          have scanned := congrArg (Json.scanString
            (other.toList.length + name.toList.length + 1)) same
          rw [Json.scanString_escape _ _ _ (by omega),
            Json.scanString_escape _ _ _ (by omega)] at scanned
          have rests := (Prod.mk.inj (Option.some.inj scanned)).2
          obtain ⟨start, text, shape, visible⟩ :=
            Json.render_head .compact 1 first
              ((Json.wellFormed_obj_iff.mp valid).2 (other, first) (by simp))
          have blank := (Json.starts_visible visible).1
          rw [shape] at rests
          injection rests with _ rests
          injection rests with space _
          rw [space] at blank
          revert blank
          decide

/-- What an encoder of the routes or the pod writes of a document with a field
is not what `put_json` minted of any. -/
theorem written_ne_minted (debug : Bool) {left right : Fields}
    (leftValid : Json.wellFormed (.obj left) = true)
    (rightValid : Json.wellFormed (.obj right) = true) (given : right ≠ []) :
    Utf8.encodeAscii (Json.dumps (if debug then .indented else .compact)
      (.obj left) ++ ['\n']) ≠ mintedBytes (.obj right) := by
  intro same
  apply dumps_ne_standard debug leftValid given
  apply Utf8.encodeAscii_injective _ _ same
  · exact (Json.render_ascii _ _ 0 leftValid).append
      (Utf8.IsAscii.of_all (by decide))
  · exact (Json.render_ascii _ _ 0 rightValid).append
      (Utf8.IsAscii.of_all (by decide))

/-- A document written anew, by an encoder of the routes or of the pod. -/
def Rewritten (fields : Fields) (body : Bytes) : Prop :=
  ∃ debug left, Json.wellFormed (.obj left) = true ∧
    (left = [] ↔ fields = []) ∧
    body = Utf8.encodeAscii (Json.dumps
      (if debug = true then .indented else .compact) (.obj left) ++ ['\n'])

section Documents

variable {fields : Fields} (valid : Json.wellFormed (.obj fields) = true)

include valid

/-- Written anew, a document is as it was minted when it is empty. -/
theorem Rewritten.minted_iff {body : Bytes} (written : Rewritten fields body) :
    body = mintedBytes (.obj fields) ↔ fields = [] := by
  obtain ⟨debug, left, leftValid, empty, rfl⟩ := written
  constructor
  · intro same
    by_contra given
    exact written_ne_minted debug leftValid valid given same
  · rintro rfl
    obtain rfl : left = [] := empty.mpr rfl
    cases debug <;> rfl

theorem sorted_fields : ∃ left, Json.sortKeys (.obj fields) = .obj left ∧
    Json.wellFormed (.obj left) = true ∧ (left = [] ↔ fields = []) := by
  refine ⟨Json.sortKeysFields fields, rfl, Json.wellFormed_sortKeys _ valid, ?_⟩
  have permuted := Json.sortKeysFields_perm fields
  constructor
  · intro none
    have length := permuted.length_eq
    rw [none, List.length_nil, List.length_map] at length
    exact List.length_eq_zero_iff.mp length.symm
  · rintro rfl
    rfl

theorem rewritten_jsonify (debug : Bool) :
    Rewritten fields (jsonify debug (.obj fields)) := by
  obtain ⟨left, same, leftValid, empty⟩ := sorted_fields valid
  exact ⟨debug, left, leftValid, empty, by rw [jsonify, same]⟩

theorem rewritten_sortedDocument :
    Rewritten fields (sortedDocument (.obj fields)) := by
  obtain ⟨left, same, leftValid, empty⟩ := sorted_fields valid
  exact ⟨true, left, leftValid, empty, by rw [sortedDocument, same]; rfl⟩

/-- The BOM route sorts what the store sorted already. -/
theorem rewritten_jsonify_sorted (debug : Bool) :
    Rewritten fields (jsonify debug (Json.sortKeys (.obj fields))) := by
  obtain ⟨left, same, leftValid, empty⟩ := sorted_fields valid
  obtain ⟨debug, other, otherValid, sameEmpty, written⟩ :=
    rewritten_jsonify leftValid debug
  rw [same]
  exact ⟨debug, other, otherValid, sameEmpty.trans empty, written⟩

variable (floats : (Json.obj fields).withFloats = .obj fields)

include floats

/-- A GET of a stored Order or Invoice answers what `jsonify` writes of it. -/
theorem ldp_json_resource_put (debug : Bool) {store after : JsonResourceStore}
    {digest : Digest}
    (stored : store.put (to_ni digest) (.obj fields) = .ok after) :
    ldp_json_resource debug after digest.hex =
      .ok ⟨200, jsonify debug (.obj fields)⟩ := by
  have loaded := loadFile_written .standard valid floats
  simp only [JsonResourceStore.put, JsonResourceStore.put_bytes,
    content_id_fs_key_to_ni, bind, Except.bind, Except.ok.injEq] at stored
  have found : after.get digest.hex = .ok (some (.obj fields)) := by
    rw [← stored]
    simp only [JsonResourceStore.get, JsonResourceStore.get_bytes,
      content_id_fs_key_hex, bind, Except.bind, Except.map,
      Function.update_self]
    exact loaded
  rw [ldp_json_resource, found]
  rfl

/-- A GET of a stored BOM answers what `jsonify` writes of its sorted keys. -/
theorem ldp_bom_resource_put (debug : Bool) {store after : BomLdpStore}
    {digest : Digest}
    (stored : store.put (to_ni digest) (.obj fields) = .ok after) :
    ldp_bom_resource debug after digest.hex =
      .ok ⟨200, jsonify debug (Json.sortKeys (.obj fields))⟩ := by
  have sortedFloats : (Json.sortKeys (.obj fields)).withFloats =
      Json.sortKeys (.obj fields) := by
    rw [Json.withFloats_sortKeys, floats]
  have loaded := loadFile_written .indented (Json.wellFormed_sortKeys _ valid)
    sortedFloats
  simp only [BomLdpStore.put, content_id_fs_key_to_ni, bind, Except.bind,
    Except.ok.injEq] at stored
  have found : after.get digest.hex =
      .ok (some (Json.sortKeys (.obj fields))) := by
    rw [← stored]
    simp only [BomLdpStore.get, content_id_fs_key_hex, bind, Except.bind,
      Function.update_self]
    exact loaded
  rw [ldp_bom_resource, found]
  rfl

end Documents

/-- A plain `http(s)` URI, as a hashlink carries it. -/
structure Hint (uri : String) : Prop where
  http : is_http_uri uri = true
  alone : Text.strip uri = uri
  oneLine : '\n' ∉ uri.toList

/-- The locators a Node publishes for a document it minted, each with what a GET
of it answers: `order_ldp_uri` and `invoice_ldp_uri`, `bom_ldp_uri`, and the
place of the BOM in a Solid pod. -/
inductive OnWire (base : BaseUrl) (debug : Bool) (obj : Json) :
    String → Bytes → Prop where
  | resource {store after : JsonResourceStore} {uri : String} {body : Bytes}
      (stored : store.put (to_ni (sha256_hex (mintedBytes obj))) obj =
        .ok after)
      (named : resource_ldp_uri store.kind
        (to_ni (sha256_hex (mintedBytes obj))) base.text = .ok uri)
      (got : ldp_json_resource debug after
        (sha256_hex (mintedBytes obj)).hex = .ok ⟨200, body⟩) :
      OnWire base debug obj uri body
  | bom {store after : BomLdpStore} {uri : String} {body : Bytes}
      (stored : store.put (to_ni (sha256_hex (mintedBytes obj))) obj =
        .ok after)
      (named : bom_ldp_uri (to_ni (sha256_hex (mintedBytes obj))) base.text =
        .ok uri)
      (got : ldp_bom_resource debug after
        (sha256_hex (mintedBytes obj)).hex = .ok ⟨200, body⟩) :
      OnWire base debug obj uri body
  | solid {uri : String} (pod : Hint uri) :
      OnWire base debug obj uri (solidBody obj)

section Reading

variable {base : BaseUrl} {debug : Bool} {fields : Fields} {uri : String}
  {body : Bytes}

/-- The address of a digest is a plain URI. -/
theorem hint_ldpAddress (base : BaseUrl) (collection : Collection)
    (digest : Digest) : Hint (ldpAddress base collection digest.hex) := by
  have legal := isCidSegment_hex digest
  refine ⟨is_http_uri_ldpAddress base collection legal,
    strip_ldpAddress base collection legal, ?_⟩
  intro member
  rw [ldpAddress, Url.toList_address] at member
  rcases List.mem_append.mp member with inScheme | member
  · have letter := Url.code_of_isAlpha (base.scheme.isAlpha _ inScheme)
    revert letter
    decide
  rcases List.mem_append.mp (show '\n' ∈ [':', '/', '/'] ++
    (base.authority ++ '/' :: ldpPlace collection digest.hex) from member)
    with mark | member
  · revert mark
    decide
  rcases List.mem_append.mp member with inside | behind
  · exact (base.host.unbroken _ inside).2.2 rfl
  · have large := ((isPlace_ldpPlace collection legal).facts _ behind).1
    revert large
    decide

theorem OnWire.hint (wire : OnWire base debug (.obj fields) uri body) :
    Hint uri := by
  have spells := ContentId.spells_text
    (.named (sha256_hex (mintedBytes (.obj fields))))
  cases wire with
  | resource stored named got =>
      have place := named.symm.trans (resource_ldp_uri_base base _ spells)
      rw [Except.ok.inj place]
      exact hint_ldpAddress base _ _
  | bom stored named got =>
      have place := named.symm.trans (bom_ldp_uri_base base spells)
      rw [Except.ok.inj place]
      exact hint_ldpAddress base _ _
  | solid pod => exact pod

/-- Every published locator answers the document written anew. -/
theorem OnWire.rewritten (wire : OnWire base debug (.obj fields) uri body)
    (valid : Json.wellFormed (.obj fields) = true)
    (floats : (Json.obj fields).withFloats = .obj fields) :
    Rewritten fields body := by
  cases wire with
  | resource stored named got =>
      rw [ldp_json_resource_put valid floats debug stored, Except.ok.injEq,
        Response.mk.injEq] at got
      rw [← got.2]
      exact rewritten_jsonify valid debug
  | bom stored named got =>
      rw [ldp_bom_resource_put valid floats debug stored, Except.ok.injEq,
        Response.mk.injEq] at got
      rw [← got.2]
      exact rewritten_jsonify_sorted valid debug
  | solid pod => exact rewritten_sortedDocument valid

end Reading

/-- Whoever reads a locator is given the bytes it stands for: the answer has
their digest, the hashlink with this hint reads them on a Node that has no copy
of its own, and so does the `ni:` id where this is the one place known. -/
structure ServesMinted (net : Network) (uri : String) (minted : Bytes) :
    Prop where
  get : ∀ made, ∃ body, net.answer made uri = some body ∧
    sha256_hex body = sha256_hex minted
  hashlink : ∀ link machine,
    to_hl (to_ni (sha256_hex minted)) [uri] = .ok link →
    AddressStore.local_ldp_bytes machine.home uri = .ok none →
    ∃ after, AddressStore.cat_bytes net link none machine = .ok minted after
  listed : ∀ machine home, machine.home = some home →
    home.cas.blobs (sha256_hex minted) = none →
    home.index.lookup_uris (to_ni (sha256_hex minted)) = .ok [uri] →
    ∃ after, AddressStore.cat_bytes net (to_ni (sha256_hex minted)) none
      machine = .ok minted after

section Serving

variable {net : Network} {uri : String} {minted body : Bytes}

theorem to_hl_hint (hint : Hint uri) (digest : Digest) :
    to_hl (to_ni digest) [uri] = .ok (hashlinkWith digest uri) := by
  have present : uri ≠ "" := by
    rintro rfl
    have http := hint.http
    revert http
    decide
  simp [to_hl, hint.alone, present, hashlinkWith, String.append_assoc, bind,
    Except.bind]

theorem Hint.nonempty (hint : Hint uri) : uri ≠ "" := by
  rintro rfl
  have http := hint.http
  revert http
  decide

theorem Hint.last (hint : Hint uri) : ∀ character ∈ uri.toList.getLast?,
    Text.isSpace character = false := by
  have stripped := hint.alone
  rw [← stripped, Text.toList_strip]
  exact Text.stripChars_last uri.toList

/-- The bytes of a URI nothing local is kept for are what it answers. -/
theorem fetch_hint_uri_run {machine : Machine}
    (nothing : AddressStore.local_ldp_bytes machine.home uri = .ok none)
    (answered : net.answer machine.gets uri = some body) :
    AddressStore.fetch_hint_uri net uri machine =
      .ok body { machine with gets := machine.gets + 1 } := by
  have opened : urlopen net uri machine =
      .ok body { machine with gets := machine.gets + 1 } := by
    unfold urlopen
    rw [bind_run_ok (get_run machine), bind_run_ok (modify_run _ _), answered]
    rfl
  have fetched : AddressStore.fetchUri net uri machine =
      .ok (body, none) { machine with gets := machine.gets + 1 } := by
    unfold AddressStore.fetchUri
    rw [bind_run_ok (get_run machine), nothing, bind_run_ok (show Act.lift
      (.ok none) machine = .ok none machine from rfl)]
    dsimp only
    rw [bind_run_ok opened]
    rfl
  unfold AddressStore.fetch_hint_uri
  rw [bind_run_ok fetched]
  rfl

/-- The one hint of a hashlink is taken when its answer has the digest, and
refused otherwise. -/
theorem hintBytes_one (hint : Hint uri) (content_id : String)
    {digest : Digest} {machine : Machine}
    (nothing : AddressStore.local_ldp_bytes machine.home uri = .ok none)
    (answered : net.answer machine.gets uri = some body) :
    (sha256_hex body = digest →
      AddressStore.hintBytes net content_id digest [uri] machine =
        .ok (some body) { machine with gets := machine.gets + 1 }) ∧
    (sha256_hex body ≠ digest → ∃ raised,
      AddressStore.hintBytes net content_id digest [uri] machine =
        .error raised { machine with gets := machine.gets + 1 }) := by
  have tried : AddressStore.attempt (AddressStore.fetch_hint_uri net uri)
      machine = .ok (some body) { machine with gets := machine.gets + 1 } := by
    unfold AddressStore.attempt
    apply tryCatch_run_ok
    rw [bind_run_ok (fetch_hint_uri_run nothing answered)]
    rfl
  unfold AddressStore.hintBytes
  rw [if_pos hint.http, bind_run_ok tried]
  dsimp only
  constructor
  · intro good
    rw [if_neg (not_not.mpr good)]
    rfl
  · intro bad
    rw [if_pos bad]
    exact ⟨_, rfl⟩

/-- A hashlink is read by the one hint it has. -/
theorem cat_bytes_hint_iff (hint : Hint uri) {digest : Digest}
    {machine : Machine}
    (nothing : AddressStore.local_ldp_bytes machine.home uri = .ok none)
    (answered : net.answer machine.gets uri = some body) :
    (∃ after, AddressStore.cat_bytes net (hashlinkWith digest uri) none
      machine = .ok minted after) ↔
      body = minted ∧ sha256_hex body = digest := by
  obtain ⟨stripped, linked, parsed⟩ := from_hl_hashlinkWith digest
    hint.nonempty hint.oneLine hint.last
  obtain ⟨taken, refused⟩ := @hintBytes_one _ _ _ hint
    (hashlinkWith digest uri) digest _ nothing answered
  unfold AddressStore.cat_bytes
  rw [if_pos linked, stripped, parsed, bind_run_ok (show Act.lift
    (.ok (to_ni digest, [uri])) machine = .ok _ machine from rfl)]
  dsimp only
  rw [from_ni_to_ni, bind_run_ok (show Act.lift (.ok digest) machine =
    .ok digest machine from rfl)]
  by_cases good : sha256_hex body = digest
  · rw [bind_run_ok (taken good)]
    constructor
    · rintro ⟨after, ran⟩
      exact ⟨(EStateM.Result.ok.inj ran).1, good⟩
    · rintro ⟨rfl, _⟩
      exact ⟨_, rfl⟩
  · obtain ⟨raised, refused⟩ := refused good
    rw [bind_run_error refused]
    constructor
    · rintro ⟨after, ran⟩
      exact nomatch ran
    · rintro ⟨_, same⟩
      exact absurd same good

/-- The one place known for a digest is read when its answer has it. -/
theorem cat_bytes_listed_iff {digest : Digest} {machine : Machine}
    {home : Home} (place : machine.home = some home)
    (absent : home.cas.blobs digest = none)
    (listed : home.index.lookup_uris (to_ni digest) = .ok [uri])
    (answered : net.answer machine.gets uri = some body) :
    (∃ after, AddressStore.cat_bytes net (to_ni digest) none machine =
      .ok minted after) ↔ body = minted ∧ sha256_hex body = digest := by
  rw [AddressStore.cat_bytes_digest_iff (from_ni_to_ni digest)]
  have copied : AddressStore.copyOf net machine digest = some body := by
    unfold AddressStore.copyOf
    rw [place]
    dsimp only
    rw [absent, listed]
    dsimp only
    rw [AddressStore.firstAnswer, answered]
  rw [copied, Option.some.injEq]
  constructor
  · rintro ⟨rfl, good⟩
    exact ⟨rfl, good⟩
  · rintro ⟨rfl, good⟩
    exact ⟨rfl, good⟩

/-- A locator serves what was minted when it answers nothing else. -/
theorem servesMinted_iff (hint : Hint uri)
    (answered : ∀ made, net.answer made uri = some body) :
    ServesMinted net uri minted ↔ body = minted := by
  constructor
  · intro serves
    let reader : Machine :=
      { home := none, disk := fun _ => none, writes := [], gets := 0 }
    have read := serves.hashlink _ reader (to_hl_hint hint _) rfl
    exact ((@cat_bytes_hint_iff _ _ _ _ hint _ reader rfl
      (answered 0)).mp read).1
  · rintro rfl
    constructor
    · intro made
      exact ⟨body, answered made, rfl⟩
    · intro link machine linked nothing
      obtain rfl := Except.ok.inj ((to_hl_hint hint _).symm.trans linked)
      exact (cat_bytes_hint_iff hint nothing (answered _)).mpr ⟨rfl, rfl⟩
    · intro machine home place absent listed
      exact (cat_bytes_listed_iff place absent listed (answered _)).mpr
        ⟨rfl, rfl⟩

end Serving

/-- A published locator serves the bytes of the digest it stands for exactly
when the document is empty: wherever the Node stands, in the debug mode or not,
for Orders, Invoices and BOMs, on the Node or in a pod. -/
theorem published_serves_minted_iff (base : BaseUrl) (debug : Bool)
    {fields : Fields} (valid : Json.wellFormed (.obj fields) = true)
    (floats : (Json.obj fields).withFloats = .obj fields) {uri : String}
    {body : Bytes} (wire : OnWire base debug (.obj fields) uri body)
    {net : Network} (answered : ∀ made, net.answer made uri = some body) :
    ServesMinted net uri (mintedBytes (.obj fields)) ↔ fields = [] := by
  rw [servesMinted_iff wire.hint answered]
  exact (wire.rewritten valid floats).minted_iff valid

/-- An Invoice that cites its data. -/
def smallInvoice : Fields := [("data_uri", .str "http://a/ldp/cas/0")]

/-- Storing the document under its digest. -/
theorem onWire_resource (kind : ResourceKind) (base : BaseUrl) (debug : Bool)
    {fields : Fields} (valid : Json.wellFormed (.obj fields) = true)
    (floats : (Json.obj fields).withFloats = .obj fields) : ∃ uri,
    OnWire base debug (.obj fields) uri (jsonify debug (.obj fields)) := by
  have spells := ContentId.spells_text
    (.named (sha256_hex (mintedBytes (.obj fields))))
  have stored : JsonResourceStore.put ⟨kind, fun _ => none⟩
      (to_ni (sha256_hex (mintedBytes (.obj fields)))) (.obj fields) =
      .ok ⟨kind, Function.update (fun _ => none)
        (sha256_hex (mintedBytes (.obj fields))).hex
        (some (mintedBytes (.obj fields)))⟩ := by
    simp [JsonResourceStore.put, JsonResourceStore.put_bytes, bind, Except.bind]
  exact ⟨_, .resource stored (resource_ldp_uri_base base kind spells)
    (ldp_json_resource_put valid floats debug stored)⟩

theorem published_serves_minted_iff_invoice : ∃ uri,
    ServesMinted (AddressStore.answering
        (jsonify false (.obj smallInvoice))) uri
      (mintedBytes (.obj smallInvoice)) ↔ smallInvoice = [] := by
  have valid : Json.wellFormed (.obj smallInvoice) = true := by decide
  obtain ⟨uri, wire⟩ := onWire_resource .invoices shoutedBase false valid rfl
  exact ⟨uri, published_serves_minted_iff shoutedBase false valid rfl wire
    fun _ => rfl⟩

/-- What a peer gets of a published Invoice does not have its digest's bytes. -/
theorem published_invoice_misserved :
    ¬ ∀ (base : BaseUrl) (debug : Bool) (fields : Fields) (uri : String)
      (body : Bytes) (net : Network),
      Json.wellFormed (.obj fields) = true →
      (Json.obj fields).withFloats = .obj fields →
      OnWire base debug (.obj fields) uri body →
      (∀ made, net.answer made uri = some body) →
        ServesMinted net uri (mintedBytes (.obj fields)) := by
  intro serves
  have valid : Json.wellFormed (.obj smallInvoice) = true := by decide
  obtain ⟨uri, wire⟩ := onWire_resource .invoices shoutedBase false valid rfl
  have served := serves shoutedBase false smallInvoice uri _
    (AddressStore.answering (jsonify false (.obj smallInvoice))) valid rfl wire
    fun _ => rfl
  have hint := wire.hint
  have same := (@servesMinted_iff (AddressStore.answering
    (jsonify false (.obj smallInvoice))) _ _ _ hint fun _ => rfl).mp served
  have empty := ((wire.rewritten valid rfl).minted_iff valid).mp same
  exact nomatch empty

end Cats
