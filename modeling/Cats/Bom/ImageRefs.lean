import Cats.Cas.ContentRef
import Cats.Cas.Manifest

/-!
# Image refs

The runtime images of a Structure are scraped from its compose and Terraform
files by three patterns, tried where the text allows, each match from where the
last one ended.
-/

namespace Cats

namespace Sbom

def isQuote (character : Char) : Bool := character = '\'' || character = '"'

/-- `[^\s\'\"#]`. -/
def isRefChar (character : Char) : Bool :=
  !Text.isSpace character && !isQuote character && character ≠ '#'

/-- `\s*`. -/
def skipSpace (text : List Char) : List Char := text.dropWhile Text.isSpace

/-- `[\'\"]?`. -/
def skipQuote : List Char → List Char
  | [] => []
  | character :: text => if isQuote character then text else character :: text

/-- `_IMAGE_LINE` where a line starts: its group, and the text after it. -/
def imageLine? (text : List Char) : Option (List Char × List Char) := do
  let rest ← Json.after? "image:".toList (skipSpace text)
  let rest := skipQuote (skipSpace rest)
  let ref := rest.takeWhile isRefChar
  if ref = [] then none else some (ref, rest.dropWhile isRefChar)

/-- `default\s*=\s*[\'\"]([^\'\"]+)[\'\"]` at a place: its group, and the text
after it. -/
def quotedDefault? (text : List Char) : Option (List Char × List Char) := do
  let rest ← Json.after? "default".toList text
  let rest ← Json.after? ['='] (skipSpace rest)
  match skipSpace rest with
  | [] => none
  | quoteMark :: tail =>
      let value := tail.takeWhile fun character => !isQuote character
      match tail.dropWhile fun character => !isQuote character with
      | [] => none
      | _ :: after =>
          if isQuote quoteMark && value ≠ [] then some (value, after) else none

/-- `_KIND_NODE` at a place. -/
def kindNode? (text : List Char) : Option (List Char × List Char) :=
  (quotedDefault? text).filter fun found =>
    "kindest/node:".toList.isPrefixOf found.1 &&
      found.1.length > "kindest/node:".toList.length

/-- The groups of `finditer`: a match is tried at each place where one may start,
none inside the last one. -/
def groups (match? : List Char → Option (List Char × List Char))
    (starts : Bool → Bool) : Bool → Nat → List Char → List (List Char)
  | _, _, [] => []
  | _, skip + 1, character :: text =>
      groups match? starts (character = '\n') skip text
  | afterFeed, 0, character :: text =>
      match if starts afterFeed then match? (character :: text) else none with
      | some (group, rest) =>
          group :: groups match? starts (character = '\n')
            (text.length - rest.length) text
      | none => groups match? starts (character = '\n') 0 text

/-- `_IMAGE_LINE.finditer(text)`; a line starts at the start of the text or after
a line feed. -/
def imageLines (text : List Char) : List (List Char) :=
  groups imageLine? id true 0 text

/-- `_KIND_NODE.finditer(text)`. -/
def kindNodes (text : List Char) : List (List Char) :=
  groups kindNode? (fun _ => true) true 0 text

/-- `variable\s+"ray_image_tag"` at a place: the text after it. -/
def rayVariable? (text : List Char) : Option (List Char) := do
  let rest ← Json.after? "variable".toList text
  if skipSpace rest = rest then none
  else Json.after? "\"ray_image_tag\"".toList (skipSpace rest)

/-- The first default that is quoted. -/
def firstDefault : List Char → Option (List Char)
  | [] => none
  | character :: text =>
      match quotedDefault? (character :: text) with
      | some (value, _) => some value
      | none => firstDefault text

/-- `_RAY_TAG.search(text)`. -/
def rayTag : List Char → Option (List Char)
  | [] => none
  | character :: text =>
      match (rayVariable? (character :: text)).bind firstDefault with
      | some tag => some tag
      | none => rayTag text

/-- The refs found in the text of one file. -/
def refsOfText (text : List Char) : List String :=
  ((imageLines text ++ kindNodes text).map String.ofList) ++
    ((rayTag text).map fun tag =>
      "rayproject/ray:" ++ String.ofList tag).toList

/-- `_SCAN_NAMES`. -/
def scanNames : List String :=
  ["variables.tf", "minio_durable_compose.yaml", "minio_scratch_compose.yaml"]

/-- A file that is looked into. -/
def isScanned (rel : String) : Bool :=
  scanNames.contains (String.ofList (rel.toList.rtakeWhile (· ≠ '/'))) ||
    Text.endsWith rel ".yaml" || Text.endsWith rel ".yml" ||
      Text.endsWith rel ".tf"

section

variable (fetch : String → Except Raised Json)
  (fetch_bytes : String → Except Raised Bytes)

/-- The refs of one entry of a manifest; what cannot be read has none. -/
def entryRefs (entry : String × Json) : List String :=
  match entry.2 with
  | .str file_id =>
      if isScanned entry.1 then
        match fetch_bytes file_id with
        | .error _ => []
        | .ok data =>
            match Utf8.decode data with
            | some text => refsOfText text
            | none => []
      else []
  | _ => []

/-- The refs of the tree a token names. -/
def treeRefs (token : String) : List String :=
  match fetch token with
  | .error _ => []
  | .ok manifest =>
      match manifestEntries? manifest with
      | none => []
      | some entries => entries.flatMap (entryRefs fetch_bytes)

/-- `stem_uri(structure, stem) or stem_id(structure, stem, cats_home=home)`. -/
def stemToken (index : Option LocatorIndex) (structureDoc : Fields)
    (stem : String) : Except Raised (Option String) :=
  match ref_uri structureDoc stem with
  | some uri => .ok (some uri)
  | none => (ref_id index structureDoc stem).map Prod.fst

/-- The refs of one tree of the Structure. -/
def stemRefs (index : Option LocatorIndex) (structureDoc : Fields)
    (stem : String) : Except Raised (List String) := do
  let token ← stemToken index structureDoc stem
  match token with
  | none => .ok []
  | some token =>
      .ok (if token = "" then [] else treeRefs fetch fetch_bytes token)

/-- `add(ref)`. -/
def addRef (out : List String) (ref : String) : List String :=
  let token := Text.strip ref
  if token = "" || out.contains token then out else out ++ [token]

/-- `collect_image_refs(mesh, structure, cats_home=…, extra=…)`. -/
def collect_image_refs (index : Option LocatorIndex)
    (structureDoc : Option Json) (extra : List String) :
    Except Raised (List String) :=
  match structureDoc with
  | some (.obj fields) => do
      let plant ← stemRefs fetch fetch_bytes index fields "plant"
      let infrastructure ←
        stemRefs fetch fetch_bytes index fields "infrastructure"
      let root ← stemRefs fetch fetch_bytes index fields "root"
      .ok ((extra ++ plant ++ infrastructure ++ root).foldl addRef [])
  | _ => .ok (extra.foldl addRef [])

end

end Sbom

end Cats
