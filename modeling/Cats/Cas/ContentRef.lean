import Cats.Cas.Hashlink
import Cats.Cas.Locators
import Cats.Python.Url

/-!
# Content refs

A slot `{stem}_uri` holds the locator of a piece of content and `ref_id` turns
it into an equality id.  Reading an `hl:` slot registers its hint, so every
reader here takes the locator index of the Node, when there is one, and gives
back the index it leaves.
-/

namespace Cats

/-- `content_uri(content_id, base_url=base_url)`. -/
def content_uri (content_id base_url : String) :
    Except Raised (Option String) :=
  if content_id = "" then .ok none
  else
    let value := Text.strip content_id
    if is_ni_or_digest value then
      (from_ni value).map fun digest => some (cas_ldp_uri digest base_url)
    else .ok none

/-- `is_http_uri(value)`. -/
def is_http_uri (value : String) : Bool :=
  let lowered := Text.lower (Text.strip value)
  Text.startsWith lowered "http://" || Text.startsWith lowered "https://"

/-- `validate_digest_segment(…)` inside `try … except ValueError`. -/
def digestSegment? (key : String) : Option Digest :=
  match validate_digest_segment key with
  | .ok digest => some digest
  | .error _ => none

/-- The text after `start`, when the path starts with it. -/
def pathAfter? (start path : String) : Option String :=
  (Json.after? start.toList path.toList).map String.ofList

/-- The key of an LDP content path, by `_LDP_CONTENT_PATH`. -/
def ldpContentKey? (path : String) : Option String :=
  let isKeyChar (character : Char) : Bool :=
    character.isAlphanum || character = '_' || character = '-'
  let keyOf (start : String) : Option String :=
    (pathAfter? start path).filter fun key =>
      key ≠ "" && key.toList.all isKeyChar
  keyOf "/ldp/cas/" <|> keyOf "/ldp/invoices/" <|> keyOf "/ldp/orders/" <|>
    keyOf "/ldp/boms/"

/-- `equality_id(found) if is_ni_or_digest(found) else found`. -/
def equalityOr (found : String) : Except Raised String :=
  if is_ni_or_digest found then equality_id found else .ok found

/-- The id some locator of the Node registers for the URI. -/
def registeredId (index : Option LocatorIndex) (uri : String) :
    Except Raised (Option String) :=
  match index with
  | none => .ok none
  | some index => do
      let found ← index.find_content_id_for_uri uri
      match found with
      | some id => if id = "" then .ok none else (equalityOr id).map some
      | none => .ok none

/-- `content_id_from_uri(uri, cats_home=cats_home)`. -/
def content_id_from_uri (index : Option LocatorIndex) (uri : String) :
    Except Raised (Option String) :=
  if uri = "" || !is_http_uri uri then .ok none
  else do
    let path ← Url.path (Text.strip uri)
    match ldpContentKey? path with
    | some key =>
        match digestSegment? (Text.lower key) with
        | some digest => .ok (some (to_ni digest))
        | none => .ok (some key)
    | none => registeredId index (Text.strip uri)

/-- Register the `http(s)` hints of a hashlink. -/
def registerHints (ni : String) :
    List String → LocatorIndex → Except Raised LocatorIndex
  | [], index => .ok index
  | uri :: uris, index =>
      if is_http_uri uri then do
        let registered ← index.put ni uri
        registerHints ni uris registered
      else registerHints ni uris index

/-- `resolve_intake_ref(value, cats_home=cats_home)`. -/
def resolve_intake_ref (index : Option LocatorIndex) (value : String) :
    Except Raised (Option String × Option LocatorIndex) :=
  let raw := Text.strip value
  if raw = "" then .ok (none, index)
  else if is_hl raw then do
    let (ni, uris) ← from_hl raw
    match index with
    | none => .ok (some ni, none)
    | some home => do
        let registered ← registerHints ni uris home
        .ok (some ni, some registered)
  else if is_ni_or_digest raw then
    (equality_id raw).map fun id => (some id, index)
  else if is_http_uri raw then do
    let found ← content_id_from_uri index raw
    match found with
    | some id => .ok (some id, index)
    | none => (registeredId index raw).map fun id => (id, index)
  else .ok (some raw, index)

/-- `text[: -len(tail)]` when the text ends with the tail. -/
def dropTail? (text tail : String) : Option String :=
  if Text.endsWith text tail then
    some (String.ofList (text.toList.take
      (text.toList.length - tail.toList.length)))
  else none

/-- `uri_field_name(stem_or_cid_field)`. -/
def uri_field_name (stem : String) : String :=
  match dropTail? stem "_cid" with
  | some bare => bare ++ "_uri"
  | none =>
      if Text.endsWith stem "_uri" then stem
      else if stem = "cid" then "uri"
      else stem ++ "_uri"

/-- `cid_field_name(stem)`. -/
def cid_field_name (stem : String) : String :=
  if Text.endsWith stem "_cid" then stem
  else
    match dropTail? stem "_uri" with
    | some bare => bare ++ "_cid"
    | none => stem ++ "_cid"

/-- `build_content_ref(content_id, base_url=base_url, uri=uri)`: the id and
the locator. -/
def build_content_ref (content_id base_url : String)
    (uri : Option String := none) :
    Except Raised (String × Option String) := do
  let eid ←
    if is_ni_or_digest content_id then equality_id content_id
    else .ok (Text.strip content_id)
  let resolved ←
    match uri with
    | some given => Except.ok (some given)
    | none => content_uri eid base_url
  .ok (eid, resolved.filter (· ≠ ""))

/-- `set_ref(obj, stem, content_id, base_url=base_url, uri=uri)`: the
equality id and the object left behind. -/
def set_ref (obj : Fields) (stem content_id base_url : String)
    (uri : Option String := none) : Except Raised (String × Fields) := do
  let (eid, resolved) ← build_content_ref content_id base_url uri
  let stored := Fields.set obj (uri_field_name stem)
    (.str (resolved.getD eid))
  .ok (eid, Fields.erase stored (cid_field_name stem))

/-- `ref_uri(obj, stem)`. -/
def ref_uri (obj : Fields) (stem : String) : Option String :=
  match Fields.get? obj (uri_field_name stem) with
  | some (.str value) =>
      if Text.strip value = "" then none else some (Text.strip value)
  | _ => none

/-- The fall-back of `ref_id`: the legacy field, then a bare content id. -/
def legacyId (obj : Fields) (stem : String) :
    Except Raised (Option String) :=
  let bare : Except Raised (Option String) :=
    if stem = "" || stem = "content" then
      match Fields.get? obj "content_id" with
      | some (.str id) => (equalityOr (Text.strip id)).map some
      | _ => .ok none
    else .ok none
  match Fields.get? obj (cid_field_name stem) with
  | some (.str legacy) =>
      if Text.strip legacy = "" then bare
      else (equalityOr (Text.strip legacy)).map some
  | _ => bare

/-- `ref_id(obj, stem, cats_home=cats_home)`. -/
def ref_id (index : Option LocatorIndex) (obj : Fields) (stem : String) :
    Except Raised (Option String × Option LocatorIndex) :=
  match ref_uri obj stem with
  | some uri =>
      if is_hl uri then
        match resolve_intake_ref index uri with
        | .ok resolved => .ok resolved
        | .error raised =>
            if raised.isValueError then .ok (none, index) else .error raised
      else if is_http_uri uri then do
        let found ← content_id_from_uri index uri
        match found with
        | some id => .ok (some id, index)
        | none => (legacyId obj stem).map fun id => (id, index)
      else (equalityOr (Text.strip uri)).map fun id => (some id, index)
  | none => (legacyId obj stem).map fun id => (id, index)

/-- An `ni:` id names no web address. -/
theorem isHttp_to_ni (digest : Digest) :
    is_http_uri (to_ni digest) = false := by
  have text : (Text.lower (Text.strip (to_ni digest))).toList =
      "ni:///sha-256;".toList ++
        (Base64Url.encode digest.bytes).map Char.toLower := by
    rw [strip_to_ni, Text.toList_lower, toList_to_ni, List.map_append]
    rfl
  have notHttp : ∀ start : String, start.toList.head? = some 'h' →
      Text.startsWith (Text.lower (Text.strip (to_ni digest))) start =
        false := by
    intro start first
    rw [Bool.eq_false_iff, ne_eq, Text.startsWith_iff, text]
    intro leads
    obtain ⟨rest, same⟩ := leads
    obtain ⟨tail, shape⟩ := List.head?_eq_some_iff.mp first
    rw [shape] at same
    have heads := congrArg List.head? same
    cases heads
  rw [is_http_uri, notHttp "http://" rfl, notHttp "https://" rfl,
    Bool.or_false]

end Cats
