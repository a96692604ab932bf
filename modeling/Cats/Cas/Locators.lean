import Cats.Cas.Store
import Cats.Codec.JsonRoundTrip
import Cats.Python.Value

/-!
# The locator index

Each content id owns one JSON file of locators.  Files are kept in listing
order, because the reverse lookup of a URI returns the first file that names
it.  Whatever puts are made, a lookup only ever returns an id some put
registered for that very URI.
-/

namespace Cats

/-- The text of a document file. -/
def readText (data : Bytes) : Except Raised (List Char) :=
  match Utf8.decode data with
  | some text => .ok text
  | none => .error ⟨.unicodeDecodeError, "invalid utf-8"⟩

/-- `json.loads(…)` of a document file. -/
def readJson (data : Bytes) : Except Raised Json := do
  let text ← readText data
  match Json.loads text with
  | some value => .ok value
  | none => .error ⟨.jsonDecodeError, "invalid JSON document"⟩

/-- `(json.dumps(value, indent=2, sort_keys=True) + '\n').encode('utf-8')`. -/
def sortedDocument (value : Json) : Bytes :=
  Utf8.encodeAscii (Json.dumps .indented value.sortKeys ++ ['\n'])

/-- The bytes `put_json` stores. -/
def mintedBytes (obj : Json) : Bytes :=
  Utf8.encodeAscii (Json.dumps .standard obj ++ ['\n'])

/-- The files of `.cats/registry/by-content`, by stem, as a listing yields
them. -/
structure LocatorIndex where
  files : List (String × Bytes)
  deriving DecidableEq

namespace LocatorIndex

def empty : LocatorIndex := { files := [] }

/-- `_canonical_id(content_id)`. -/
def canonical_id (content_id : String) : Except Raised String :=
  if is_ni_or_digest content_id then (from_ni content_id).map to_ni
  else .ok (Text.strip content_id)

def file? (index : LocatorIndex) (key : String) : Option Bytes :=
  (index.files.find? fun file => file.1 = key).map Prod.snd

/-- `path.write_text(…)`: replace the file, or add it to the listing. -/
def write (files : List (String × Bytes)) (key : String) (data : Bytes) :
    List (String × Bytes) :=
  match files with
  | [] => [(key, data)]
  | (name, old) :: rest =>
      if name = key then (key, data) :: rest
      else (name, old) :: write rest key data

/-- `any(loc.get('uri') == uri for loc in locators)`. -/
def hasUri (uri : String) : List Json → Except Raised Bool
  | [] => .ok false
  | loc :: locators => do
      let found ← loc.getKey "uri"
      if found = some (.str uri) then .ok true else hasUri uri locators

/-- The entry `put` inserts. -/
def entry (uri : String) (media_type : Option String) : Json :=
  match media_type with
  | some media => if media = "" then .obj [("uri", .str uri)]
      else .obj [("uri", .str uri), ("media_type", .str media)]
  | none => .obj [("uri", .str uri)]

/-- The document `put` writes back. -/
def registered (document : Json) (canonical uri : String)
    (media_type : Option String) : Except Raised Json :=
  match document with
  | .obj fields => do
      let locators := (Fields.get? fields "locators").getD (.arr [])
      let items ← locators.iterate
      let known ← hasUri uri items
      let updated ←
        if known then Except.ok locators
        else
          match locators with
          | .arr items => .ok (.arr (entry uri media_type :: items))
          | other => .error ⟨.attributeError,
              s!"'{other.typeName}' object has no attribute 'insert'"⟩
      .ok (.obj ((Fields.set fields "locators" updated).set "content_id"
        (.str canonical)))
  | other => .error ⟨.attributeError,
      s!"'{other.typeName}' object has no attribute 'setdefault'"⟩

/-- `LocatorIndex.put(content_id, uri=uri, media_type=media_type)`. -/
def put (index : LocatorIndex) (content_id uri : String)
    (media_type : Option String := none) : Except Raised LocatorIndex := do
  let canonical ← canonical_id content_id
  let key ← content_id_fs_key canonical
  let document ←
    match index.file? key with
    | some data => readJson data
    | none => .ok (.obj [("content_id", .str canonical), ("locators", .arr [])])
  let updated ← registered document canonical uri media_type
  .ok { files := write index.files key (sortedDocument updated) }

/-- `LocatorIndex.put_cas_node_locator(content_id, base_url=base_url)`. -/
def put_cas_node_locator (index : LocatorIndex) (content_id base_url : String)
    (media_type : Option String := none) : Except Raised LocatorIndex := do
  let digest ←
    if is_ni_or_digest content_id then from_ni content_id
    else validate_digest_segment content_id
  index.put content_id (cas_ldp_uri digest base_url) media_type

/-- `doc.get('locators') or []`. -/
def locatorsOf (document : Json) : Except Raised (List Json) := do
  let found ← document.getKey "locators"
  match found with
  | some value => if value.truthy then value.iterate else .ok []
  | none => .ok []

/-- `[str(loc['uri']) for loc in … if loc.get('uri')]`. -/
def urisOf : List Json → Except Raised (List String)
  | [] => .ok []
  | loc :: locators => do
      let found ← loc.getKey "uri"
      let rest ← urisOf locators
      match found with
      | some value => .ok (if value.truthy then value.toStr :: rest else rest)
      | none => .ok rest

/-- `LocatorIndex.lookup_uris(content_id)`. -/
def lookup_uris (index : LocatorIndex) (content_id : String) :
    Except Raised (List String) := do
  let key ← content_id_fs_key content_id
  match index.file? key with
  | none => .ok []
  | some data => do
      let document ← readJson data
      let locators ← locatorsOf document
      urisOf locators

/-- The scan of one document's locators for the target. -/
def scanLocators (target : String) (content_id : Option Json) :
    List Json → Except Raised (Option String)
  | [] => .ok none
  | loc :: locators => do
      let found ← loc.getKey "uri"
      if found = some (.str target) then
        match content_id with
        | some (.str id) =>
            if Text.strip id ≠ "" then (canonical_id id).map some
            else scanLocators target content_id locators
        | _ => scanLocators target content_id locators
      else scanLocators target content_id locators

/-- The scan of the files in listing order; undecodable JSON is skipped. -/
def scanFiles (target : String) :
    List (String × Bytes) → Except Raised (Option String)
  | [] => .ok none
  | (_, data) :: files =>
      match readJson data with
      | .error raised =>
          if raised.isOSError || raised.kind = .jsonDecodeError then
            scanFiles target files
          else .error raised
      | .ok document => do
          let locators ← locatorsOf document
          let content_id ← document.getKey "content_id"
          let found ← scanLocators target content_id locators
          match found with
          | some id => .ok (some id)
          | none => scanFiles target files

/-- `LocatorIndex.find_content_id_for_uri(uri)`. -/
def find_content_id_for_uri (index : LocatorIndex) (uri : String) :
    Except Raised (Option String) :=
  let target := Text.strip uri
  if target = "" then .ok none else scanFiles target index.files

end LocatorIndex

end Cats
