import Cats.Mesh.Enhanced

/-!
# The read path of the projectors

A projector reads a document by the token of its slot.  `fetch_key` first
rewrites an `http(s)` token to the id its path spells or the locator index has
for it; what is left is read by the mesh.
-/

namespace Cats

namespace BomRead

/-- `fetch_key(token, cats_home=cats_home)`. -/
def fetch_key (index : Option LocatorIndex) (token : String) :
    Except Raised String :=
  let raw := Text.strip token
  if raw = "" then .ok raw
  else if is_http_uri raw then do
    let found ← content_id_from_uri index raw
    match found.filter (· ≠ "") with
    | some id => .ok id
    | none => .ok raw
  else .ok raw

/-- `fetch_key` with the `CATS_HOME` of the mesh. -/
def fetchKey (token : String) : Act String := do
  let machine ← get
  Act.lift (fetch_key (machine.home.map Home.index) token)

section

variable (net : Network)

/-- `make_fetch(mesh)`, at a token. -/
def make_fetch (token : String) : Act Json := do
  let key ← fetchKey token
  ContentMesh.catDocument net key

/-- `_fetch_bytes(mesh, token)`. -/
def fetch_bytes (token : String) : Act Bytes := do
  let key ← fetchKey token
  AddressStore.cat_bytes net key

end

/-- `stem_uri(obj, stem)`. -/
def stem_uri (obj : Json) (stem : String) : Option String :=
  match obj with
  | .obj fields => ref_uri fields stem
  | _ => none

/-- `stem_id(obj, stem, cats_home=cats_home)`. -/
def stem_id (obj : Json) (stem : String) : Act (Option String) :=
  match obj with
  | .obj fields => Act.withIndex fun index => ref_id index fields stem
  | _ => pure none

/-- `parent['flat'][stem]`, when both are dicts. -/
def flatDocument? (parent : Fields) (stem : String) : Option Fields :=
  match Fields.get? parent "flat" with
  | some (.obj bag) =>
      match Fields.get? bag stem with
      | some (.obj document) => some document
      | _ => none
  | _ => none

/-- `stem_uri(parent, stem) or stem_id(parent, stem, cats_home=cats_home)`. -/
def stemToken (parent : Json) (stem : String) : Act (Option String) :=
  match stem_uri parent stem with
  | some uri => pure (some uri)
  | none => do
      let id ← stem_id parent stem
      pure (id.filter (· ≠ ""))

/-- `from_flat_or_fetch(parent, stem, fetch, cats_home=cats_home)`; `None` is
the null document. -/
def from_flat_or_fetch (parent : Json) (stem : String)
    (fetch : Option (String → Act Json)) : Act Json :=
  match parent with
  | .obj fields =>
      match flatDocument? fields stem, fetch with
      | some document, _ => pure (.obj document)
      | none, none => pure .null
      | none, some fetch => do
          let token ← stemToken parent stem
          match token with
          | none => pure .null
          | some token => do
              let key ← fetchKey token
              fetch key
  | _ => pure .null

end BomRead

end Cats
