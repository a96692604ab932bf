import Cats.Machine

/-!
# Content-addressed reads

`cat_bytes` tries the hints of a hashlink, the local stores, the locator list
and HTTP, in that order.  Bytes named by a digest are returned only after
their sha256 was compared with it, whichever way they came.
-/

namespace Cats

/-- `_legacy_cid_unsupported(content_id)`. -/
def legacy_cid_unsupported (content_id : String) : Raised :=
  .runtimeError
    s!"Legacy CID {content_id} is unsupported (§6s); remint to ni: / HTTP uri"

namespace AddressStore

/-- `_CAS_PATH.match`. -/
def casPathDigest? (path : String) : Option Digest :=
  match pathAfter? "/ldp/cas/" path with
  | some key =>
      if valid : isHexSha256 key = true then some ⟨key, valid⟩ else none
  | none => none

/-- `_INVOICE_PATH.match` and `_ORDER_PATH.match`. -/
def resourcePathKey? (kind : ResourceKind) (path : String) : Option String :=
  (pathAfter? s!"/ldp/{kind.name}/" path).filter isCidSegment

/-- The bytes of a local resource and the digest its key spells, if any. -/
def localResource (home : Home) (kind : ResourceKind) (key : String) :
    Except Raised (Option (Bytes × Option Digest)) :=
  ((home.resourceStore kind).get_bytes key).map fun data =>
    data.map fun bytes => (bytes, digestSegment? (Text.lower key))

/-- The collections `_local_ldp_bytes` looks into. -/
def localLdp (home : Home) (path : String) :
    Except Raised (Option (Bytes × Option Digest)) :=
  match casPathDigest? path with
  | some digest =>
      .ok ((home.cas.blobs digest).map fun data => (data, some digest))
  | none =>
      match resourcePathKey? .invoices path with
      | some key => localResource home .invoices key
      | none =>
          match resourcePathKey? .orders path with
          | some key => localResource home .orders key
          | none => .ok none

/-- `_local_ldp_bytes(uri)`. -/
def local_ldp_bytes (home : Option Home) (uri : String) :
    Except Raised (Option (Bytes × Option Digest)) :=
  match home with
  | none => .ok none
  | some home => do
      let path ← Url.path uri
      localLdp home path

/-- `_cas_local_bytes(content_id)`. -/
def cas_local_bytes (home : Option Home) (content_id : String) :
    Except Raised (Option Bytes) :=
  match home with
  | none => .ok none
  | some home => home.cas.get content_id

/-- The digest the locator index knows for a URI. -/
def indexedDigest (index : Option LocatorIndex) (uri : String) :
    Except Raised (Option Digest) :=
  match index with
  | none => .ok none
  | some index => do
      let found ← index.find_content_id_for_uri uri
      match found with
      | some id =>
          if is_ni_or_digest id then (from_ni id).map some else .ok none
      | none => .ok none

/-- `_resolve_expect_digest(uri, expect_digest)`. -/
def resolve_expect_digest (index : Option LocatorIndex) (uri : String)
    (expect_digest : Option String) : Except Raised (Option Digest) :=
  match expect_digest.filter (· ≠ "") with
  | some expected =>
      if is_ni_or_digest expected then (from_ni expected).map some
      else (validate_digest_segment expected).map some
  | none => do
      let path ← Url.path uri
      match casPathDigest? path with
      | some digest => .ok (some digest)
      | none => indexedDigest index uri

/-- A fetch inside `try … except Exception: continue`. -/
def attempt (fetch : Act Bytes) : Act (Option Bytes) :=
  tryCatch (do let data ← fetch; pure (some data)) fun _ => pure none

/-- The loop of `_cas_locator_bytes`. -/
def locatorBytes (net : Network) (content_id : String) :
    List String → Act (Option Bytes)
  | [] => pure none
  | uri :: uris => do
      let fetched ← attempt (urlopen net uri)
      match fetched with
      | none => locatorBytes net content_id uris
      | some data => do
          let digest ← Act.lift (from_ni content_id)
          if sha256_hex data ≠ digest then
            throw (.runtimeError
              s!"CAS locator verify failed for {Text.repr content_id} via {uri}")
          else pure (some data)

/-- `_cas_locator_bytes(content_id)`. -/
def cas_locator_bytes (net : Network) (content_id : String) :
    Act (Option Bytes) := do
  let machine ← get
  match machine.home with
  | none => pure none
  | some home => do
      let uris ← Act.lift (home.index.lookup_uris content_id)
      locatorBytes net content_id uris

/-- The bytes of a URI and the digest its local key spells. -/
def fetchUri (net : Network) (uri : String) : Act (Bytes × Option Digest) := do
  let machine ← get
  let found ← Act.lift (local_ldp_bytes machine.home uri)
  match found with
  | some fetched => pure fetched
  | none => do
      let data ← urlopen net uri
      pure (data, none)

/-- `_fetch_hint_uri(uri)`. -/
def fetch_hint_uri (net : Network) (uri : String) : Act Bytes := do
  let (data, _) ← fetchUri net uri
  pure data

/-- The loop over the hints of a hashlink. -/
def hintBytes (net : Network) (content_id : String) (digest : Digest) :
    List String → Act (Option Bytes)
  | [] => pure none
  | uri :: uris =>
      if is_http_uri uri then do
        let fetched ← attempt (fetch_hint_uri net uri)
        match fetched with
        | none => hintBytes net content_id digest uris
        | some data =>
            if sha256_hex data ≠ digest then
              throw (.runtimeError
                s!"hl: sha256 mismatch for {Text.repr content_id} via {uri}")
            else pure (some data)
      else hintBytes net content_id digest uris

/-- The HTTP branch of `cat_bytes`. -/
def catHttp (net : Network) (uri : String) (expect_digest : Option String) :
    Act Bytes := do
  let (data, pathDigest) ← fetchUri net uri
  let machine ← get
  let resolved ← Act.lift (resolve_expect_digest
    (machine.home.map Home.index) uri expect_digest)
  match resolved <|> pathDigest with
  | some digest =>
      if sha256_hex data ≠ digest then
        throw (.runtimeError
          s!"URI sha256 mismatch for {Text.repr uri} (expected {digest.hex})")
      else pure data
  | none => pure data

/-- The local blob, else the first locator that answers. -/
def locate (net : Network) (content_id : String) : Act (Option Bytes) := do
  let machine ← get
  let stored ← Act.lift (cas_local_bytes machine.home content_id)
  match stored with
  | some data => pure (some data)
  | none => cas_locator_bytes net content_id

/-- The `ni:` and hex branch of `cat_bytes`. -/
def catDigest (net : Network) (content_id : String) : Act Bytes := do
  let found ← locate net content_id
  match found with
  | none => throw ⟨.fileNotFoundError, s!"CAS content not found: {content_id}"⟩
  | some data => do
      let digest ← Act.lift (from_ni content_id)
      if sha256_hex data ≠ digest then
        throw (.runtimeError
          s!"CAS sha256 mismatch for {Text.repr content_id}")
      else pure data

/-- `cat_bytes` once hashlinks are dealt with. -/
def catPlain (net : Network) (content_id : String)
    (expect_digest : Option String) : Act Bytes :=
  if is_http_uri content_id then catHttp net content_id expect_digest
  else if is_ni_or_digest content_id then catDigest net content_id
  else throw (legacy_cid_unsupported (Text.repr content_id))

/-- `cat_bytes(content_id, expect_digest=expect_digest)`. -/
def cat_bytes (net : Network) (content_id : String)
    (expect_digest : Option String := none) : Act Bytes :=
  if is_hl content_id then do
    let (ni, uris) ← Act.lift (from_hl (Text.strip content_id))
    let digest ← Act.lift (from_ni ni)
    let hinted ← hintBytes net content_id digest uris
    match hinted with
    | some data => pure data
    | none => catPlain net ni expect_digest
  else catPlain net content_id expect_digest

/-- `cat(content_id)`, as characters. -/
def cat (net : Network) (content_id : String) : Act (List Char) := do
  let data ← cat_bytes net content_id
  Act.lift (readText data)

end AddressStore

end Cats
