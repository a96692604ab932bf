import Cats.Mesh.Packaging

/-!
# Materialising an Order

`getEnhancedBom` follows a BOM to its Invoice and Order, writes the three
documents under the homes, and lays out the trees the Order's Structure and
Function cite: the root files by way of a temporary directory, `plant/` and
`infrastructure/` where the Order's `structure_filepath` leads from the input
home, the Function sources under `function/`.
-/

namespace Cats

namespace ContentMesh

variable (net : Network)

/-- `get(content_id, filepath, output=output)`. -/
def get (content_id filepath output : String) : Act String := do
  AddressStore.get net content_id (Posix.join output filepath)
  pure filepath

/-- `json.loads(open(path, 'r').read())`. -/
def readDocument (path : String) : Act Json := do
  let raw ← Disk.readFile path
  Act.lift (readJson raw)

/-- `json.loads(self.cat(content_id))`. -/
def catDocument (content_id : String) : Act Json := do
  let raw ← AddressStore.cat_bytes net content_id
  Act.lift (readJson raw)

/-- A document fetched to a file of a home and read back from there. -/
def fetchDocument (content_id home filename : String) : Act Json := do
  let written ← get net content_id filename home
  readDocument (home ++ "/" ++ written)

/-- `ref_id(doc, stem, cats_home=self.CATS_HOME)`. -/
def slotId (doc : Json) (stem : String) : Act (Option String) := do
  let fields ← Act.lift doc.mapping
  Act.withIndex fun index => ref_id index fields stem

/-- An id that is there and not empty. -/
def required (missing : String) (id : Option String) : Act String :=
  match id.filter (· ≠ "") with
  | some id => pure id
  | none => throw (.runtimeError missing)

/-- `ref_uri(doc, stem) or ref_id(doc, stem, cats_home=self.CATS_HOME)`. -/
def slotLocator (doc : Json) (stem missing : String) : Act String := do
  let fields ← Act.lift doc.mapping
  match ref_uri fields stem with
  | some uri => pure uri
  | none => do
      let id ← slotId doc stem
      required missing id

/-- `ref_uri(doc, stem) or id`. -/
def locatorOr (doc : Json) (stem id : String) : String :=
  match doc with
  | .obj fields => (ref_uri fields stem).getD id
  | _ => id

structure Documents where
  bom : Json
  enhanced_bom : Json
  order : Json

/-- The part of `getEnhancedBom` that reads the BOM, its Invoice and its
Order. -/
def fetchDocuments (bom_json_id INPUT_HOME OUTPUT_HOME : String) :
    Act Documents := do
  let bom ← fetchDocument net bom_json_id OUTPUT_HOME "bom.json"
  let named ← Act.lift (bom.setItem "bom_json_id" (.str bom_json_id))
  let invoice_locator ← slotLocator bom "invoice"
    "BOM missing invoice_uri / invoice_cid"
  let invoice ← fetchDocument net invoice_locator OUTPUT_HOME "invoice.json"
  let invoiced ← Act.lift (named.setItem "invoice" invoice)
  let order_locator ← slotLocator invoice "order"
    "Invoice missing order_uri / order_cid"
  let order ← fetchDocument net order_locator INPUT_HOME "order.json"
  let enhanced_bom ← Act.lift (invoiced.setItem "order" order)
  pure
    { bom := bom
      enhanced_bom := enhanced_bom
      order := order }

/-- What an Order says of its Structure. -/
structure Pairing where
  structure_filepath : Json
  root_locator : String
  plant_locator : String
  infra_locator : String

/-- The part of `getEnhancedBom` that reads the Structure pairing. -/
def readPairing (order : Json) : Act Pairing := do
  let structure_locator ← slotLocator order "structure"
    "Order missing structure_uri / structure_cid"
  let paired ← catDocument net structure_locator
  let structure_filepath ← Act.lift (order.item "structure_filepath")
  let root ← slotId paired "root"
  let plant ← slotId paired "plant"
  let infrastructure ← slotId paired "infrastructure"
  let root_id ← required ("structure is missing root_uri / root_cid; " ++
    "recreate the Order with create_order_request after apply-complete " ++
    "Structure pairing (\x7broot_uri, plant_uri, infrastructure_uri\x7d).") root
  let plant_id ← required ("structure is missing plant / infrastructure " ++
    "refs; recreate the Order.") plant
  let infrastructure_id ← required ("structure is missing plant / " ++
    "infrastructure refs; recreate the Order.") infrastructure
  pure
    { structure_filepath := structure_filepath
      root_locator := locatorOr paired "root" root_id
      plant_locator := locatorOr paired "plant" plant_id
      infra_locator := locatorOr paired "infrastructure" infrastructure_id }

/-- `with tempfile.TemporaryDirectory(…) as tmp`, which removes `tmp` however
the body ends. -/
def withTemporaryDirectory (tmp : String) (body : Act Unit) : Act Unit := do
  Disk.mkdtemp tmp
  tryCatch body fun raised => do
    Disk.rmtree tmp
    throw raised
  Disk.rmtree tmp

/-- Fetch the root tree and copy its files into the Structure home. -/
def materializeRoot (root_locator structure_home tmp : String) : Act Unit := do
  let _ ← get net root_locator Packaging.structureRootDirname tmp
  Packaging.materialize_structure_root_files
    (Posix.join tmp Packaging.structureRootDirname) structure_home

/-- The part of `getEnhancedBom` that lays the Structure out. -/
def materializeStructure (pairing : Pairing) (INPUT_HOME tmp : String) :
    Act Unit := do
  let filepath ← Act.lift pairing.structure_filepath.pathText
  withTemporaryDirectory tmp
    (materializeRoot net pairing.root_locator (Posix.join INPUT_HOME filepath)
      tmp)
  let _ ← get net pairing.plant_locator (Posix.join filepath "plant")
    INPUT_HOME
  let _ ← get net pairing.infra_locator (Posix.join filepath "infrastructure")
    INPUT_HOME
  pure ()

/-- The part of `getEnhancedBom` that lays the Function sources out. -/
def materializeFunction (order : Json) (INPUT_HOME : String) : Act Unit := do
  let function_locator ← slotLocator order "function"
    "Order missing function_uri / function_cid"
  let function ← catDocument net function_locator
  let process_source ← slotId function "process_source"
  let infrafunction_source ← slotId function "infrafunction_source"
  let missing := "function is missing process_source / infrafunction_source " ++
    "refs; recreate the Order with create_order_request after hybrid " ++
    "Function source ids."
  let process_source_id ← required missing process_source
  let infrafunction_source_id ← required missing infrafunction_source
  let _ ← get net (locatorOr function "process_source" process_source_id)
    (Posix.join "function" "process") INPUT_HOME
  let _ ← get net
    (locatorOr function "infrafunction_source" infrafunction_source_id)
    (Posix.join "function" "infrafunction") INPUT_HOME
  pure ()

/-- `getEnhancedBom(bom_json_id, INPUT_HOME, OUTPUT_HOME)`, with `tmp` the
temporary directory it is given. -/
def getEnhancedBom (bom_json_id INPUT_HOME OUTPUT_HOME tmp : String) :
    Act (Json × Json) := do
  let documents ← fetchDocuments net bom_json_id INPUT_HOME OUTPUT_HOME
  let pairing ← readPairing net documents.order
  materializeStructure net pairing INPUT_HOME tmp
  materializeFunction net documents.order INPUT_HOME
  pure (documents.enhanced_bom, documents.bom)

end ContentMesh

end Cats
