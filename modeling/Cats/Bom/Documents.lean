import Cats.Bom.RuntimeSbom

/-!
# The BOM documents

SPDX 3, DCAT 3 and data-contract documents of a subject.  The `@id` of a document
is an URN of its subject, so that a document made again is the same document.
-/

namespace Cats

namespace Sbom

/-- `projection_urn(kind, subject_ni)`. -/
def projection_urn (kind subject_ni : String) : String :=
  "urn:cats:projection:" ++ kind ++ ":" ++ subject_ni

/-- `_ni(content_id)`. -/
def ni (content_id : String) : Except Raised String :=
  if is_http_uri content_id || !is_ni_or_digest content_id then
    .error (.valueError s!"expected ni: or hex, got {Text.repr content_id}")
  else equality_id content_id

@[simp] theorem ni_to_ni (digest : Digest) :
    ni (to_ni digest) = .ok (to_ni digest) := by
  unfold ni
  rw [isHttp_to_ni, is_ni_or_digest_to_ni, equality_id_to_ni]
  rfl

/-- `_hash(content_id)`. -/
def hash (content_id : String) : Except Raised Json := do
  let named ← ni content_id
  let digest ← from_ni named
  .ok (.obj [("@type", .str "Hash"), ("algorithm", .str "sha256"),
    ("hashValue", .str digest.hex)])

/-- `_creation_info(created)`. -/
def creation_info (created : String) : Json :=
  .obj [("@type", .str "CreationInfo"), ("created", .str created),
    ("createdBy", .arr [.str "urn:cats:projector:p2"]),
    ("specVersion", .str "3.0.1")]

section Purl

/-- `_cats_ni(content_id)`. -/
def cats_ni (content_id : String) : Except Raised String := do
  let token ← require_token content_id "content_id"
  if is_legacy_cid token then
    .error (.valueError
      s!"legacy CID is not a FRU lot id: {Text.repr content_id}")
  else if is_ni_or_digest token then equality_id token
  else .error (.valueError
    s!"content_id must be ni: or hex sha-256: {Text.repr content_id}")

/-- `fru_purl(role, content_id)` of a function, structure or dataset. -/
def cats_purl (role content_id : String) : Except Raised String := do
  let named ← cats_ni content_id
  .ok s!"pkg:generic/cats/{role}@{named}"

theorem cats_purl_to_ni (role : String) (digest : Digest) :
    cats_purl role (to_ni digest) =
      .ok s!"pkg:generic/cats/{role}@{to_ni digest}" := by
  have token : require_token (to_ni digest) "content_id" =
      .ok (to_ni digest) := by
    unfold require_token
    rw [strip_to_ni, if_neg (to_ni_ne_empty digest)]
  have named : cats_ni (to_ni digest) = .ok (to_ni digest) := by
    unfold cats_ni
    rw [token]
    simp [bind, Except.bind, is_legacy_cid]
  unfold cats_purl
  rw [named]
  rfl

/-- `fru_purl('pypi', name=name, version=version)`. -/
def pypi_purl (name version : String) : Except Raised String := do
  let pkg ← require_token name "name"
  let ver ← require_token version "version"
  if is_ni_or_digest ver || Text.startsWith (lowered ver) "ni:" then
    .error (.valueError "pypi version must not be ni: / hex digest")
  else .ok s!"pkg:pypi/{pkg}@{ver}"

end Purl

/-- `sorted(items, key=key)`. -/
def sortedBy {α : Type} (key : α → String) (items : List α) : List α :=
  items.mergeSort fun left right => decide (key left ≤ key right)

/-- `str(item.get('@id') or '')`. -/
def elementId (element : Json) : String := sortText element "@id"

section Software

/-- The element of a file. -/
def fileElement (urn : String) (file : String × String) :
    Except Raised Json := do
  let file_ni ← ni file.2
  let verified ← hash file_ni
  .ok (.obj [("@id", .str s!"{urn}#file:{file.1}"),
    ("@type", .str "software_File"), ("name", .str file.1),
    ("verifiedUsing", .arr [verified])])

/-- The element of a package. -/
def pypiElement (urn : String) (package : String × String) :
    Except Raised Json := do
  let purl ← pypi_purl package.1 package.2
  .ok (.obj [("@id", .str s!"{urn}#pypi:{package.1}@{package.2}"),
    ("@type", .str "software_Package"), ("name", .str package.1),
    ("software_packageUrl", .str purl)])

/-- `(item[0], item[1])` compared. -/
def pairBefore (left right : String × String) : Bool :=
  decide (left.1 < right.1 ∨ left.1 = right.1 ∧ left.2 ≤ right.2)

/-- `software_spdx(kind=…, subject_id=…, files=…, pypi=…, created=…)`. -/
def software_spdx (kind subject_id : String) (files pypi : List (String × String))
    (created : String) : Except Raised Json := do
  let subject ← ni subject_id
  let role := if kind = "function" then "function" else "structure"
  let root_purl ← cats_purl role subject
  let urn := projection_urn kind subject
  let root_id := urn ++ "#root"
  let verified ← hash subject
  let root := Json.obj [("@id", .str root_id), ("@type", .str "software_Package"),
    ("name", .str role), ("software_packageUrl", .str root_purl),
    ("verifiedUsing", .arr [verified])]
  let fileElements ← (sortedBy Prod.fst files).mapM (fileElement urn)
  let pypiElements ← (pypi.mergeSort pairBefore).mapM (pypiElement urn)
  .ok (.obj [("@context", .str "https://spdx.org/rdf/3.0.1/spdx-context.jsonld"),
    ("@id", .str urn), ("@type", .str "software_Sbom"),
    ("creationInfo", creation_info created),
    ("element", .arr (sortedBy elementId
      (root :: (fileElements ++ pypiElements)))),
    ("profileConformance", .arr [.str "core", .str "software"]),
    ("rootElement", .arr [.str root_id])])

end Software

/-- A dataset: its name, its content id and perhaps a URI. -/
abbrev Lot : Type := String × String × Option String

/-- `uri if (isinstance(uri, str) and uri.strip()) else …`. -/
def lotId (urn : String) (lot : Lot) : String :=
  match lot.2.2 with
  | some uri => if Text.strip uri = "" then urn ++ "#" ++ lot.1 else uri
  | none => urn ++ "#" ++ lot.1

section Dataset

/-- The element of a dataset. -/
def datasetElement (urn : String) (lot : Lot) : Except Raised Json := do
  let named ← ni lot.2.1
  let purl ← cats_purl "dataset" named
  let verified ← hash named
  .ok (.obj [("@id", .str (lotId urn lot)), ("@type", .str "dataset_Dataset"),
    ("name", .str lot.1), ("software_packageUrl", .str purl),
    ("verifiedUsing", .arr [verified])])

/-- `dataset_spdx(subject_id=…, datasets=…, created=…)`. -/
def dataset_spdx (subject_id : String) (datasets : List Lot) (created : String) :
    Except Raised Json := do
  let subject ← ni subject_id
  let urn := projection_urn "dataset" subject
  let ordered := sortedBy Prod.fst datasets
  let elements ← ordered.mapM (datasetElement urn)
  .ok (.obj [("@context", .str "https://spdx.org/rdf/3.0.1/spdx-context.jsonld"),
    ("@id", .str urn), ("@type", .str "software_Sbom"),
    ("creationInfo", creation_info created),
    ("element", .arr (sortedBy elementId elements)),
    ("profileConformance", .arr [.str "core", .str "dataset"]),
    ("rootElement", .arr
      ((sortedBy id (ordered.map (lotId urn))).map .str))])

/-- The entry of a dataset in a catalog. -/
def catalogEntry (urn : String) (lot : Lot) : Except Raised Json := do
  let named ← ni lot.2.1
  let digest ← from_ni named
  let entry : Fields := [("@id", .str (lotId urn lot)),
    ("@type", .str "dcat:Dataset"), ("dct:identifier", .str named),
    ("dct:title", .str lot.1),
    ("spdx:checksum", .obj
      [("spdx:algorithm", .str "checksumAlgorithm_sha256"),
        ("spdx:checksumValue", .str digest.hex)])]
  match lot.2.2 with
  | none => .ok (.obj entry)
  | some uri =>
      if Text.strip uri = "" then .ok (.obj entry)
      else .ok (.obj (entry.set "dcat:distribution" (.arr [.obj
        [("@type", .str "dcat:Distribution"),
          ("dcat:downloadURL", .str (Text.strip uri)),
          ("dcat:mediaType", .str "application/json")]])))

/-- `dcat_catalog(subject_id=…, datasets=…, created=…, conforms_to=…)`. -/
def dcat_catalog (subject_id : String) (datasets : List Lot) (created : String)
    (conforms_to : Option String) : Except Raised Json := do
  let subject ← ni subject_id
  let urn := projection_urn "dcat" subject
  let entries ← (sortedBy Prod.fst datasets).mapM (catalogEntry urn)
  let catalog : Fields := [("@context", .obj
      [("dcat", .str "http://www.w3.org/ns/dcat#"),
        ("dct", .str "http://purl.org/dc/terms/"),
        ("spdx", .str "http://spdx.org/rdf/terms#")]),
    ("@id", .str urn), ("@type", .str "dcat:Catalog"),
    ("dcat:dataset", .arr entries), ("dct:issued", .str created)]
  match conforms_to with
  | none => .ok (.obj catalog)
  | some contract =>
      if Text.strip contract = "" then .ok (.obj catalog)
      else .ok (.obj (catalog.set "dct:conformsTo" (.str (Text.strip contract))))

end Dataset

section Contract

/-- `CONTRACT_CLAUSES`: name, what it allocates to, and kind. -/
def contractClauses : List (String × String × String) :=
  [("egress", "Process.egress", "schema"), ("freshness", "freshness", "sla"),
    ("privacy", "privacy", "risk")]

/-- `data_contract(subject_id=…, created=…)`. -/
def data_contract (subject_id created : String) : Except Raised Fields := do
  let subject ← ni subject_id
  let doc_id := projection_urn "odcs" subject
  let clauses := contractClauses.map fun (name, allocates_to, kind) =>
    Json.obj [("@id", .str s!"{doc_id}#{name}"), ("dct:title", .str name),
      ("cats:allocatesTo", .str allocates_to), ("cats:kind", .str kind),
      ("cats:enforced", .bool false)]
  .ok [("@context", .obj
      [("odcs", .str "https://bitol-io.github.io/open-data-contract-standard#"),
        ("dct", .str "http://purl.org/dc/terms/"),
        ("cats", .str "https://cats.dynamicalsystemsgroup.com/ns#")]),
    ("@id", .str doc_id), ("@type", .str "odcs:DataContract"),
    ("dct:title", .str "cats-data-lot"), ("odcs:version", .str "1.0.0"),
    ("odcs:status", .str "draft"), ("cats:subject", .str subject),
    ("cats:clauses", .arr clauses),
    ("cats:createdBy", .str "urn:cats:projector:p6"),
    ("dct:issued", .str created)]

end Contract

end Sbom

end Cats
