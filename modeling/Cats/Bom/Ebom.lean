import Cats.Bom.Documents
import Cats.Bom.Read
import Cats.Ldp.Resources

/-!
# The documents an Order cites

With `CATS_SBOM` on, minting an Order also mints the SPDX documents of its
Function and its Structure, and the DCAT and SPDX documents of its input lot
with the contract they conform to.  The Order cites all of them.
-/

namespace Cats

namespace Ebom

open Sbom

/-- `MEDIA_SPDX`, and `MEDIA_DCAT`. -/
def mediaLinked : String := "application/ld+json"

/-- What the projectors run on: the base URL of the Node, the network, and the
TOML reader; `none` when it raises `TOMLDecodeError`. -/
structure Projector where
  net : Network
  base_url : String
  toml : List Char → Option Fields

variable (mesh : Projector)

/-- `put_projection(mesh, obj, media_type=media_type)`. -/
def put_projection (obj : Json) (media_type : String) : Act String :=
  ContentMesh.put_bytes mesh.base_url (mintedBytes obj.sortKeys) (some media_type)

section Lock

/-- The text of a field, when it is not blank. -/
def nonblank? (fields : Fields) (key : String) : Option String :=
  match Fields.get? fields key with
  | some (.str text) =>
      if Text.strip text = "" then none else some (Text.strip text)
  | _ => none

/-- The name and version of one `[[package]]`. -/
def lockedPackage? : Json → Option (String × String)
  | .obj pkg => do
      let name ← nonblank? pkg "name"
      let version ← nonblank? pkg "version"
      some (name, version)
  | _ => none

/-- `parse_uv_lock(data)`. -/
def parse_uv_lock (data : Bytes) : Except Raised (List (String × String)) := do
  let text ← readText data
  match mesh.toml text with
  | none => .ok []
  | some doc =>
      match Fields.get? doc "package" with
      | some (.arr packages) =>
          .ok ((packages.filterMap lockedPackage?).mergeSort pairBefore)
      | _ => .ok []

/-- `_fetch_bytes(mesh, lock_id)` and its parse, inside
`try … except Exception`. -/
def lockedPackages (lock_id : String) : Act (List (String × String)) :=
  tryCatch (do
      let data ← BomRead.fetch_bytes mesh.net lock_id
      Act.lift (parse_uv_lock mesh data))
    fun _ => pure []

/-- `_uv_lock_from_manifests(mesh, manifests, uv_lock=None)`. -/
def uv_lock_from_manifests : List Json → Act (List (String × String))
  | [] => pure []
  | manifest :: manifests =>
      match manifestEntries? manifest with
      | none => uv_lock_from_manifests manifests
      | some entries =>
          match Fields.get? entries "uv.lock" with
          | some (.str lock_id) =>
              if Text.strip lock_id = "" then uv_lock_from_manifests manifests
              else lockedPackages mesh lock_id
          | _ => uv_lock_from_manifests manifests

end Lock

section Sources

/-- `_manifest_files(manifest, prefix=prefix)`; no prefix is empty. -/
def manifest_files (manifest : Json) (below : String) :
    List (String × String) :=
  match manifestEntries? manifest with
  | none => []
  | some entries => entries.filterMap fun (rel, content_id) =>
      match content_id with
      | .str id =>
          if is_ni_or_digest id then some (s!"{below}/{rel}", id) else none
      | _ => none

/-- The trees that the slots of a document cite, each with the directory its
files are listed under. -/
def sourceTrees (doc : Fields) :
    List (String × String) → Act (List (Json × String))
  | [] => pure []
  | (stem, below) :: stems => do
      let token ← BomRead.stemToken (.obj doc) stem
      match token with
      | none => sourceTrees doc stems
      | some token => do
          let payload ← BomRead.make_fetch mesh.net token
          let rest ← sourceTrees doc stems
          match payload with
          | .obj _ => pure ((payload, below) :: rest)
          | _ => pure rest

/-- The files of trees. -/
def filesOf (trees : List (Json × String)) : List (String × String) :=
  trees.flatMap fun tree => manifest_files tree.1 tree.2

/-- `project_function_source(function, mesh, function_id=function_id)`. -/
def project_function_source (function : Fields) (function_id : String) :
    Act String := do
  let subject ← Act.lift (require_ni function_id "function_id")
  let trees ← sourceTrees mesh function
    [("process_source", "process"), ("infrafunction_source", "infrafunction")]
  let pypi ← uv_lock_from_manifests mesh (trees.map Prod.fst)
  let doc ← Act.lift
    (software_spdx "function" subject (filesOf trees) pypi fixedCreated)
  put_projection mesh doc mediaLinked

/-- `project_structure_source(structure, mesh, structure_id=structure_id)`. -/
def project_structure_source (pairing : Fields) (structure_id : String) :
    Act String := do
  let subject ← Act.lift (require_ni structure_id "structure_id")
  let trees ← sourceTrees mesh pairing
    [("root", "root"), ("plant", "plant"), ("infrastructure", "infrastructure")]
  let doc ← Act.lift
    (software_spdx "structure" subject (filesOf trees) [] fixedCreated)
  put_projection mesh doc mediaLinked

end Sources

section Lot

/-- `project_input_data(mesh, data_id=data_id, conforms_to=conforms_to)`. -/
def project_input_data (data_id : String) (conforms_to : Option String) :
    Act (String × String) := do
  let subject ← Act.lift (require_ni data_id "data_id")
  let lots : List Lot := [("input_data", subject, none)]
  let dcat ← Act.lift (dcat_catalog subject lots fixedCreated conforms_to)
  let spdx ← Act.lift (dataset_spdx subject lots fixedCreated)
  let data_dcat ← put_projection mesh dcat mediaLinked
  let data_spdx ← put_projection mesh spdx mediaLinked
  pure (data_dcat, data_spdx)

/-- `put_input_data_sbom_nest(mesh, lots)`. -/
def put_input_data_sbom_nest (data_dcat data_spdx : String) : Act String :=
  if Text.strip data_dcat = "" then
    throw (.valueError "data_dcat is required for input_data_sbom nest")
  else if Text.strip data_spdx = "" then
    throw (.valueError "data_spdx is required for input_data_sbom nest")
  else do
    let (_, nest) ← Act.lift (set_ref [] "dcat" data_dcat mesh.base_url)
    let (_, nest) ← Act.lift (set_ref nest "spdx" data_spdx mesh.base_url)
    ContentMesh.put_json mesh.base_url (.obj nest)

/-- The contract of the input lot, when the lot is named by a digest: its
`@id`. -/
def promised (data_id : String) : Act (Option String) :=
  if is_ni_or_digest data_id then do
    let subject ← Act.lift (require_ni data_id "data_id")
    let contract ← Act.lift (data_contract subject fixedCreated)
    let _ ← put_projection mesh (.obj contract) mediaLinked
    pure (match Fields.get? contract "@id" with
      | some (.str doc_id) => some doc_id
      | _ => none)
  else pure none

end Lot

/-- `EBOM_STEMS`. -/
def ebomStems : List String :=
  ["function_sbom", "structure_sbom", "input_data_sbom"]

/-- `strip_ebom_stems(order)`. -/
def strip_ebom_stems (order : Fields) : Fields :=
  ebomStems.foldl
    (fun order stem => (order.erase (stem ++ "_uri")).erase (stem ++ "_cid"))
    order

/-- What an Order is made for. -/
structure Sources where
  function : Fields
  function_id : String
  pairing : Fields
  structure_id : String
  data_id : String

/-- `attach_ebom_stems(order, mesh, …)`: the Order that cites the documents. -/
def attach_ebom_stems (cats_sbom : Option String) (order : Fields)
    (sources : Sources) : Act Fields :=
  if cats_sbom_enabled cats_sbom then do
    let function_spdx ←
      project_function_source mesh sources.function sources.function_id
    let structure_spdx ←
      project_structure_source mesh sources.pairing sources.structure_id
    let conforms_to ← promised mesh sources.data_id
    let (data_dcat, data_spdx) ←
      project_input_data mesh sources.data_id conforms_to
    let nest_id ← put_input_data_sbom_nest mesh data_dcat data_spdx
    let (_, order) ← Act.lift
      (set_ref order "function_sbom" function_spdx mesh.base_url)
    let (_, order) ← Act.lift
      (set_ref order "structure_sbom" structure_spdx mesh.base_url)
    let (_, order) ← Act.lift
      (set_ref order "input_data_sbom" nest_id mesh.base_url)
    pure order
  else pure order

end Ebom

end Cats
