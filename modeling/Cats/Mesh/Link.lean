import Cats.Bom.Ebom
import Cats.Function.NamedBinds
import Cats.Registry.Handoff
import Cats.Structure.Transport

/-!
# Linking Orders

A link operation takes the Order an execution ran, binds other callables to
slots of its Function or pairs other trees with its Structure, and mints the
next Order, whose input is the data of the execution.  What is not replaced is
carried over by its id.
-/

namespace Cats

namespace Link

open Handoff (slotValue orEmpty)

/-- A callable of the process: whether it is a plain function, how it is
called, and its pickle. -/
structure Callable where
  isFunction : Bool
  module_name : String
  qualname : String
  pickled : Bytes

/-- `STOCK_PROCESS_SLOT_QUALNAMES`. -/
def stockProcessNames : List String :=
  ["ingress", "egress", "integration_cache", "process_0", "process_1"]

/-- `STOCK_INFRAFUNCTION_SLOT_QUALNAMES`. -/
def stockInfrafunctionNames : List String := ["infrafunction_subproc"]

/-- The package itself, or a module below it. -/
def isBelowPackage (module_name package : String) : Bool :=
  module_name = package || Text.startsWith module_name (package ++ ".")

/-- `is_stock_function_callable(obj)`. -/
def is_stock_function_callable (obj : Callable) : Bool :=
  obj.isFunction &&
    if stockProcessNames.contains obj.qualname then
      isBelowPackage obj.module_name "data.input.function.process"
    else stockInfrafunctionNames.contains obj.qualname &&
      isBelowPackage obj.module_name "data.input.function.infrafunction"

/-- A mesh that mints Orders: besides what the projectors need, `CATS_SBOM`,
the endpoint of the Node, how the host lists directories, and the temporary
directory it is given. -/
structure Mesh extends Ebom.Projector where
  cats_sbom : Option String
  endpoint : String
  walk : Transport.Walk
  temporary : String

variable (mesh : Mesh)

section Trees

/-- `put_tree(directory, ignore=ignore)` of the mesh. -/
def put_tree (directory : String) (ignore : String → Bool) : Act String := do
  let home ← Transport.localHome
  let machine ← (MonadState.get : Act Machine)
  if machine.inode? (Posix.resolve directory) ≠ some .dir then
    throw ⟨.notADirectoryError, directory⟩
  else do
    let put ← Act.lift (Cats.put_tree home.cas
      (mesh.walk machine (Posix.resolve directory)) ignore)
    let index ← Act.lift (home.index.put_cas_node_locator put.1 mesh.base_url
      (some "application/json"))
    modify fun machine =>
      { machine with home := some { home with cas := put.2, index := index } }
    pure put.1

/-- Copy the root files and name those that are not there. -/
def stageRootFiles (structure_filepath staging_dir : String) :
    List String → Act (List String)
  | [] => pure []
  | name :: names => do
      let machine ← (MonadState.get : Act Machine)
      if Disk.isFile machine (Posix.join structure_filepath name) then do
        Packaging.copy2 (Posix.join structure_filepath name)
          (Posix.join staging_dir name)
        stageRootFiles structure_filepath staging_dir names
      else do
        let missing ← stageRootFiles structure_filepath staging_dir names
        pure (name :: missing)

/-- `stage_structure_root(structure_filepath, staging_parent=parent)`. -/
def stage_structure_root (structure_filepath parent : String) :
    Act String := do
  let staging_dir := Posix.join parent Packaging.structureRootDirname
  Disk.makedirs staging_dir
  let missing ← stageRootFiles structure_filepath staging_dir
    Packaging.structureRootFiles
  if missing = [] then pure staging_dir
  else do
    Disk.rmtree parent
    throw ⟨.fileNotFoundError, "Structure root allowlist incomplete under " ++
      s!"{Text.repr structure_filepath}; missing: " ++
      Json.repr (.arr (missing.map .str))⟩

/-- The root of a Structure, staged in a temporary directory and put. -/
def putRoot (structure_filepath : String) : Act String := do
  Disk.mkdtemp mesh.temporary
  let root_id ← tryCatch (do
      let root_staging ←
        stage_structure_root structure_filepath mesh.temporary
      put_tree mesh root_staging fun _ => false)
    fun raised => do
      Disk.rmtree mesh.temporary
      throw raised
  Disk.rmtree mesh.temporary
  pure root_id

/-- Set refs one after the other. -/
def setRefs (base_url : String) :
    List (String × String) → Fields → Except Raised Fields
  | [], obj => .ok obj
  | (stem, content_id) :: refs, obj => do
      let (_, obj) ← set_ref obj stem content_id base_url
      setRefs base_url refs obj

/-- `structure_pairing(structure_filepath)`. -/
def structure_pairing (structure_filepath : String) : Act Fields := do
  let filepath := Text.rstripSlash structure_filepath
  let root_id ← putRoot mesh filepath
  let plant_id ← put_tree mesh (Posix.join filepath "plant")
    Packaging.is_structure_apply_residue
  let infrastructure_id ← put_tree mesh (Posix.join filepath "infrastructure")
    Packaging.is_structure_apply_residue
  Act.lift (setRefs mesh.base_url [("root", root_id), ("plant", plant_id),
    ("infrastructure", infrastructure_id)] [])

end Trees

section Function

/-- `bind_subproc(obj, source_id)`. -/
def bind_subproc (obj : Callable) (source_id : String) : Act String :=
  if is_stock_function_callable obj then do
    let payload ← Act.lift (named_bind_payload source_id obj.module_name
      obj.qualname mesh.base_url)
    ContentMesh.put_json mesh.base_url (.obj payload)
  else ContentMesh.put_bytes mesh.base_url obj.pickled

/-- `_cat_stem(obj, stem)`. -/
def cat_stem (obj : Json) (stem : String) : Act Json := do
  let locator ← ContentMesh.slotLocator obj stem
    s!"missing {stem}_uri / {stem}_cid on object"
  ContentMesh.catDocument mesh.net locator

/-- The callables that replace those of a Function. -/
structure Slots where
  ingress_subproc : Option Callable := none
  integrated_subproc : Option Callable := none
  egress_subproc : Option Callable := none
  integration_cache_subproc : Option Callable := none
  infrafunction_subproc : Option Callable := none

namespace Slots

/-- `slot_specs`, without the source id they share. -/
def process (slots : Slots) : List (String × Option Callable) :=
  [("ingress_subproc", slots.ingress_subproc),
    ("integrated_subproc", slots.integrated_subproc),
    ("egress_subproc", slots.egress_subproc),
    ("integration_cache_subproc", slots.integration_cache_subproc)]

def infrafunction (slots : Slots) : List (String × Option Callable) :=
  [("infrafunction_subproc", slots.infrafunction_subproc)]

/-- `any(v is not None for v in function_kwargs.values())`. -/
def requested (slots : Slots) : Bool :=
  (slots.process ++ slots.infrafunction).any fun slot => slot.2.isSome

end Slots

/-- What a slot is set to: the bind of the callable given for it, else what
the prior object has there. -/
def slotContent (owner source_id : String) (prior : Json) (stem : String) :
    Option Callable → Act String
  | some replacement => bind_subproc mesh replacement source_id
  | none => do
      let carried ← ContentMesh.slotId prior stem
      ContentMesh.required
        s!"prior {owner} pairing is missing {stem}_uri / {stem}_cid" carried

/-- Slots set one after the other. -/
def rebuildSlots (owner source_id : String) (prior : Json) :
    List (String × Option Callable) → Fields → Act Fields
  | [], obj => pure obj
  | (stem, replacement) :: slots, obj => do
      let content_id ← slotContent mesh owner source_id prior stem replacement
      let (_, obj) ← Act.lift (set_ref obj stem content_id mesh.base_url)
      rebuildSlots owner source_id prior slots obj

/-- The source ids of a Function. -/
def sourceIds (prev_function : Json) : Act (String × String) := do
  let process_source ← ContentMesh.slotId prev_function "process_source"
  let infrafunction_source ←
    ContentMesh.slotId prev_function "infrafunction_source"
  let missing := "function pairing is missing process_source_cid / " ++
    "infrafunction_source_cid (or *_uri); recreate the Order with " ++
    "create_order_request after hybrid Function source CIDs."
  let process_source_id ← ContentMesh.required missing process_source
  let infrafunction_source_id ←
    ContentMesh.required missing infrafunction_source
  pure (process_source_id, infrafunction_source_id)

/-- `_rebuild_function(prev_function, …)`. -/
def rebuild_function (prev_function : Json) (slots : Slots) : Act String := do
  let (process_source_id, infrafunction_source_id) ← sourceIds prev_function
  let prev_process ← cat_stem mesh prev_function "process"
  let prev_infrafunction ← cat_stem mesh prev_function "infrafunction"
  let process ← rebuildSlots mesh "process" process_source_id prev_process
    slots.process []
  let infrafunction ← rebuildSlots mesh "infrafunction"
    infrafunction_source_id prev_infrafunction slots.infrafunction []
  let process_id ← ContentMesh.put_json mesh.base_url (.obj process)
  let (_, function) ← Act.lift
    (set_ref [] "process" process_id mesh.base_url)
  let infrafunction_id ← ContentMesh.put_json mesh.base_url (.obj infrafunction)
  let function ← Act.lift (setRefs mesh.base_url
    [("infrafunction", infrafunction_id), ("process_source", process_source_id),
      ("infrafunction_source", infrafunction_source_id)] function)
  ContentMesh.put_json mesh.base_url (.obj function)

end Function

section Pairing

/-- What changes a Structure: another directory, other ids, and the name the
Order has for the directory. -/
structure Change where
  structure_filepath : Option String := none
  root_id : Option String := none
  plant_id : Option String := none
  infrastructure_id : Option String := none
  structure_filepath_name : Option String := none

namespace Change

/-- The id given for each component. -/
def overrides (change : Change) : List (String × Option String) :=
  [("root", change.root_id), ("plant", change.plant_id),
    ("infrastructure", change.infrastructure_id)]

/-- `structure_requested`. -/
def requested (change : Change) : Bool :=
  change.structure_filepath.isSome ||
    change.overrides.any fun given => given.2.isSome

end Change

/-- The components of a Structure pairing. -/
def pairingStems : List String := ["root", "plant", "infrastructure"]

/-- `ref_id` of each of the stems. -/
def stemIds (pairing : Json) : List String → Act (List (Option String))
  | [] => pure []
  | stem :: stems => do
      let id ← ContentMesh.slotId pairing stem
      let ids ← stemIds pairing stems
      pure (id :: ids)

/-- The ids of the prior Structure, all of which must be there. -/
def priorIds (prev_structure : Json) : List String → Act (List String)
  | [] => pure []
  | stem :: stems => do
      let found ← ContentMesh.slotId prev_structure stem
      let id ← ContentMesh.required
        (s!"prior structure_cid is missing {stem}_cid / {stem}_uri; " ++
          "recreate the Order with create_order_request after " ++
          "apply-complete Structure pairing " ++
          "(\x7broot_uri, plant_uri, infrastructure_uri\x7d).") found
      let ids ← priorIds prev_structure stems
      pure (id :: ids)

/-- The pairing that is changed: that of a directory, or the prior one. -/
def startPairing (prev_ids : List String) :
    Option String → Act Fields
  | some structure_filepath => structure_pairing mesh structure_filepath
  | none => Act.lift (setRefs mesh.base_url (pairingStems.zip prev_ids) [])

/-- Refs that are there, written again as URIs. -/
def respell : List String → Fields → Act Fields
  | [], pairing => pure pairing
  | stem :: stems, pairing => do
      let current ← ContentMesh.slotId (.obj pairing) stem
      match current.filter (· ≠ "") with
      | none => respell stems pairing
      | some id => do
          let (_, pairing) ← Act.lift (set_ref pairing stem id mesh.base_url)
          respell stems pairing

/-- The overrides that were given. -/
def given (overrides : List (String × Option String)) :
    List (String × String) :=
  overrides.filterMap fun (stem, id) => id.map fun id => (stem, id)

/-- `_resolve_structure_pairing(prev_structure, …, require_change_request=True)`. -/
def resolve_structure_pairing (prev_structure : Json) (change : Change) :
    Act Fields := do
  let prev_ids ← priorIds prev_structure pairingStems
  if change.requested then do
    let pairing ← startPairing mesh prev_ids change.structure_filepath
    let pairing ← respell mesh pairingStems pairing
    let pairing ← Act.lift
      (setRefs mesh.base_url (given change.overrides) pairing)
    let new_ids ← stemIds (.obj pairing) pairingStems
    if new_ids = prev_ids.map some then
      throw (.runtimeError ("structure mutation produced an unchanged " ++
        "structure pairing; pass a different structure_filepath or nested " ++
        "CID override"))
    else pure pairing
  else throw (.runtimeError ("structure mutation requires " ++
    "structure_filepath and/or at least one of root_id, plant_id, " ++
    "infrastructure_id"))

end Pairing

section Requests

/-- `json.loads(self.cat(content_id))` when that is a dict, else the empty
one. -/
def catFields (content_id : String) : Act Fields := do
  let obj ← tryCatch (ContentMesh.catDocument mesh.net content_id)
    fun _ => pure (.obj [])
  match obj with
  | .obj fields => pure fields
  | _ => pure []

/-- `InvoiceLdpStore(…).put`, `OrderLdpStore(…).put` and their locators. -/
def publish (invoice_id : String) (invoice : Fields) (order_id : String)
    (order : Fields) : Act OrderRequest := do
  putResource .invoices invoice_id (.obj invoice)
  putResource .orders order_id (.obj order)
  let invoice_uri ← Act.lift
    (resource_ldp_uri .invoices invoice_id mesh.base_url)
  let order_uri ← Act.lift (resource_ldp_uri .orders order_id mesh.base_url)
  registerLocator invoice_id invoice_uri (some "application/json")
  registerLocator order_id order_uri (some "application/json")
  pure ⟨order_id, order_uri, invoice_uri⟩

/-- The Order that cites a Function, a Structure and an Invoice, before its
documents are attached. -/
def relinked (order : Fields) (function_id structure_id invoice_id : String)
    (structure_filepath : Json) : Except Raised Fields := do
  let order := Ebom.strip_ebom_stems (order.erase "flat")
  let order ← setRefs mesh.base_url [("function", function_id),
    ("structure", structure_id), ("invoice", invoice_id)] order
  let order := match structure_filepath with
    | .null => order
    | filepath => order.set "structure_filepath" filepath
  .ok (order.set "endpoint" (.str mesh.endpoint))

/-- `_order_request_from_prior(order, …)`; `None` is the null filepath. -/
def order_request_from_prior (order : Fields)
    (function_id structure_id data_id : String) (structure_filepath : Json) :
    Act OrderRequest := do
  let (_, invoice) ← Act.lift (set_ref [] "data" data_id mesh.base_url)
  let invoice_id ← ContentMesh.put_json mesh.base_url (.obj invoice)
  let order ← Act.lift (relinked mesh order function_id structure_id invoice_id
    structure_filepath)
  let function ← catFields mesh function_id
  let pairing ← catFields mesh structure_id
  let order ← Ebom.attach_ebom_stems mesh.toProjector mesh.cats_sbom order
    ⟨function, function_id, pairing, structure_id, data_id⟩
  let order_id ← ContentMesh.put_json mesh.base_url (.obj order)
  publish mesh invoice_id invoice order_id order

/-- `_invoice_order_from_flat_bom(flat_bom)`. -/
def invoice_order_from_flat_bom (flat_bom : Json) :
    Except Raised (Fields × Fields) := do
  let tree ← flat_bom.mapping
  match slotValue tree "invoice" with
  | .obj invoice => do
      let bag ← orEmpty (slotValue invoice "flat")
      match slotValue bag "order" with
      | .obj order => .ok (invoice, order)
      | _ => .error (.runtimeError
          "flatten_bom invoice.flat.order missing; increase max_depth")
  | _ => .error (.runtimeError "flatten_bom missing invoice")

/-- `(order.get('flat') or {}).get(stem)`, which must be there. -/
def flatSlot (order : Fields) (stem : String) : Except Raised Json := do
  let bag ← orEmpty (slotValue order "flat")
  match slotValue bag stem with
  | .null => .error (.runtimeError
      s!"flatten_bom order.flat.{stem} missing; increase max_depth")
  | value => .ok value

/-- The name that the next Order has for its Structure. -/
def structureName (order : Fields) (change : Change) : Except Raised Json :=
  match change.structure_filepath_name, change.structure_filepath with
  | some name, _ => .ok (.str name)
  | none, some filepath =>
      .ok (.str (Posix.basename (Text.rstripSlash filepath)))
  | none, none => (Json.obj order).item "structure_filepath"

/-- `_stem_id(obj, stem)`. -/
def stem_id (obj : Fields) (stem : String) : Act (Option String) :=
  ContentMesh.slotId (.obj obj) stem

variable (flat_bom : Act Json)

/-- `linkProcess(…)`, with `flat_bom` the response it loads and flattens. -/
def linkProcess (slots : Slots) : Act OrderRequest := do
  let flat ← flat_bom
  let (invoice, order) ← Act.lift (invoice_order_from_flat_bom flat)
  let prev_function ← Act.lift (flatSlot order "function")
  let new_function_id ← rebuild_function mesh prev_function slots
  let data_id ← stem_id invoice "data"
  let structure_id ← stem_id order "structure"
  let missing := "prior Invoice/Order missing data or structure ref " ++
    "(data_uri/data_cid, structure_uri/structure_cid)"
  let data_id ← ContentMesh.required missing data_id
  let structure_id ← ContentMesh.required missing structure_id
  order_request_from_prior mesh order new_function_id structure_id data_id .null

/-- `linkStructure(…)`. -/
def linkStructure (change : Change) : Act OrderRequest := do
  let flat ← flat_bom
  let (invoice, order) ← Act.lift (invoice_order_from_flat_bom flat)
  let prev_structure ← Act.lift (flatSlot order "structure")
  let pairing ← resolve_structure_pairing mesh prev_structure change
  let new_structure_id ← ContentMesh.put_json mesh.base_url (.obj pairing)
  let structure_name ← Act.lift (structureName order change)
  let data_id ← stem_id invoice "data"
  let function_id ← stem_id order "function"
  let missing := "prior Invoice/Order missing data or function ref " ++
    "(data_uri/data_cid, function_uri/function_cid)"
  let data_id ← ContentMesh.required missing data_id
  let function_id ← ContentMesh.required missing function_id
  order_request_from_prior mesh order function_id new_structure_id data_id
    structure_name

/-- The Function of the next Order. -/
def nextFunction (order : Fields) (slots : Slots) (function_id : String) :
    Act String :=
  if slots.requested then do
    let prev_function ← Act.lift (flatSlot order "function")
    rebuild_function mesh prev_function slots
  else pure function_id

/-- The Structure of the next Order, and its name. -/
def nextStructure (order : Fields) (change : Change) (structure_id : String) :
    Act (String × Json) :=
  if change.requested then do
    let prev_structure ← Act.lift (flatSlot order "structure")
    let pairing ← resolve_structure_pairing mesh prev_structure change
    let structure_id ← ContentMesh.put_json mesh.base_url (.obj pairing)
    let structure_name ← Act.lift (structureName order change)
    pure (structure_id, structure_name)
  else pure (structure_id, .null)

/-- `linkOrder(…)`. -/
def linkOrder (slots : Slots) (change : Change) : Act OrderRequest :=
  if slots.requested || change.requested then do
    let flat ← flat_bom
    let (invoice, order) ← Act.lift (invoice_order_from_flat_bom flat)
    let found ← stem_id order "function"
    let carried_function ← ContentMesh.required
      "prior Order missing function_uri / function_cid" found
    let function_id ← nextFunction mesh order slots carried_function
    let found ← stem_id order "structure"
    let carried_structure ← ContentMesh.required
      "prior Order missing structure_uri / structure_cid" found
    let (structure_id, structure_name) ←
      nextStructure mesh order change carried_structure
    let found ← stem_id invoice "data"
    let data_id ← ContentMesh.required
      "prior Invoice missing data_uri / data_cid" found
    order_request_from_prior mesh order function_id structure_id data_id
      structure_name
  else throw (.runtimeError ("linkOrder requires a Function slot change " ++
    "and/or a Structure mutation (structure_filepath or nested CID override)"))

end Requests

end Link

end Cats
