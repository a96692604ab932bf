import Cats.Feedback.Envelope
import Cats.Mesh.InvoiceStages
import Cats.Registry.Store

/-!
# The record of a BOM

`build_record` verifies a BOM, follows it to its Invoice and as far as it can
to its Order, and lists what it cites.
-/

namespace Cats

namespace BomRegistry

/-- The value of a key that may be missing. -/
def orNone (value : Option Json) : Json := value.getD .null

def ofText (text : Option String) : Json :=
  match text with
  | some text => .str text
  | none => .null

/-- `first or second`. -/
def valueOr (first second : Json) : Json := if first.truthy then first else second

/-- What was read of the Order before something failed. -/
structure OrderGraph where
  order : Option Json := none
  function_id : Option String := none
  structure_id : Option String := none
  input_data_id : Option String := none

section Reading

variable (net : Network)

/-- The id of the input data, from the Order's input Invoice. -/
def inputDataId (order : Fields) : Act (Option String) := do
  let input_invoice_locator ←
    match ref_uri order "invoice" with
    | some uri => pure (some uri)
    | none => ContentMesh.refId order "invoice"
  match idOr input_invoice_locator none with
  | some locator => do
      let input_invoice ← ContentMesh.catDocument net locator
      ContentMesh.slotId input_invoice "data"
  | none => pure none

/-- The ids the Order cites; the first read that raises ends them. -/
def readOrderIds (order : Fields) : Act OrderGraph := do
  let start : OrderGraph := { order := some (.obj order) }
  let function ← ContentMesh.attempt (ContentMesh.refId order "function")
  if let some function_id := function then
    let started := { start with function_id := function_id }
    let paired ← ContentMesh.attempt (ContentMesh.refId order "structure")
    if let some structure_id := paired then
      let input ← ContentMesh.attempt (inputDataId net order)
      pure { started with
        structure_id := structure_id
        input_data_id := input.getD none }
    else pure started
  else pure start

/-- The reads of the Order, which need not succeed. -/
def readOrder (invoice : Fields) (order_id : String) : Act OrderGraph := do
  let order ← ContentMesh.attempt (ContentMesh.catDocument net
    ((ref_uri invoice "order").getD order_id))
  match order with
  | some (.obj order) => readOrderIds net order
  | other => pure { order := other }

/-- The ids `build_record` insists on. -/
structure RecordIds where
  bom_id : String
  invoice : Fields
  order_id : String
  data_id : String

def registryError (text : String) : Raised := ⟨.registryError, text⟩

/-- The part of `build_record` that must succeed: the BOM is verified, its
Invoice is fetched and names an Order and data. -/
def readInvoice (scheme : Ed25519) (jcs : Canonicalization) (bom : Fields)
    (content_id : String) : Act RecordIds := do
  let bom_id ← Act.lift (normalize_content_id content_id "content_id")
  match verify_execution_bom scheme jcs bom with
  | .ok _ => pure ()
  | .error raised => throw (registryError
      ("unsigned or invalid ExecutionBom: " ++ raised.text))
  let invoice_id ← ContentMesh.refId bom "invoice"
  let invoice_locator ←
    match idOr (idOr (ref_uri bom "invoice") invoice_id) none with
    | some locator => pure locator
    | none => throw (registryError
        "ExecutionBom missing invoice_uri / invoice_cid")
  let invoice ← tryCatch (ContentMesh.catDocument net invoice_locator)
    fun raised => throw (registryError
      s!"failed to load invoice {Text.repr invoice_locator}: {raised.text}")
  let invoice ← Act.lift invoice.mapping
  let order_id ← ContentMesh.refId invoice "order"
  let data_id ← ContentMesh.refId invoice "data"
  let order_id ←
    match idOr order_id none with
    | some id => pure id
    | none => throw (registryError "Invoice missing order_uri / order_cid")
  let data_id ←
    match idOr data_id none with
    | some id => pure id
    | none => throw (registryError "Invoice missing data_uri / data_cid")
  let order_id ← Act.lift (normalize_content_id order_id "order")
  let data_id ← Act.lift (normalize_content_id data_id "data")
  match idOr invoice_id none with
  | some id => do
      let _ ← Act.lift (normalize_content_id id "invoice")
      pure ()
  | none => pure ()
  pure
    { bom_id := bom_id
      invoice := invoice
      order_id := order_id
      data_id := data_id }

/-- The SBOM slots of a record: an id and a locator. -/
structure SbomIds where
  seed : Option String
  runtime_sbom : Option String
  function_sbom : Option String
  structure_sbom : Option String
  input_data_sbom : Option String

def orderFields (graph : OrderGraph) : Fields :=
  match graph.order with
  | some (.obj order) => order
  | _ => []

def readSboms (invoice : Fields) (graph : OrderGraph) : Act SbomIds := do
  let seed ← ContentMesh.refId invoice "seed"
  let runtime_sbom ← ContentMesh.refId invoice "runtime_sbom"
  let function_sbom ← ContentMesh.refId (orderFields graph) "function_sbom"
  let structure_sbom ← ContentMesh.refId (orderFields graph) "structure_sbom"
  let input_data_sbom ← ContentMesh.refId (orderFields graph) "input_data_sbom"
  pure ⟨seed, runtime_sbom, function_sbom, structure_sbom, input_data_sbom⟩

end Reading

/-- `{key: value} if value else {}`. -/
def whenGiven (key : String) (value : Option String) : Fields :=
  match idOr value none with
  | some text => [(key, .str text)]
  | none => []

/-- The locators of a record. -/
def recordLocators (loc invoice : Fields) (graph : OrderGraph)
    (stages : DataStages) (invoice_uri order_uri : Json) : Fields :=
  [("bom_ldp_uri", orNone (loc.get? "bom_ldp_uri")),
    ("bom_solid_uri", orNone (loc.get? "bom_solid_uri")),
    ("invoice_uri", valueOr (orNone (loc.get? "invoice_uri")) invoice_uri),
    ("order_uri", valueOr (orNone (loc.get? "order_uri")) order_uri)] ++
  whenGiven "data_stages_uri" stages.data_stages_uri ++
  whenGiven "runtime_sbom_uri" (ref_uri invoice "runtime_sbom") ++
  whenGiven "function_sbom_uri" (ref_uri (orderFields graph) "function_sbom") ++
  whenGiven "structure_sbom_uri"
    (ref_uri (orderFields graph) "structure_sbom") ++
  whenGiven "input_data_sbom_uri"
    (ref_uri (orderFields graph) "input_data_sbom")

/-- The record of what was read. -/
def recordOf (bom loc : Fields) (ids : RecordIds) (graph : OrderGraph)
    (stages : DataStages) (sboms : SbomIds) : Fields :=
  let invoice := ids.invoice
  let order := orderFields graph
  let invoice_uri := valueOr (orNone (loc.get? "invoice_uri"))
    (valueOr (ofText (ref_uri bom "invoice"))
      (valueOr (orNone (invoice.get? "invoice_uri"))
        (orNone (bom.get? "invoice_uri"))))
  let order_uri := valueOr (orNone (loc.get? "order_uri"))
    (ofText (ref_uri invoice "order"))
  [("content_id", .str ids.bom_id),
    ("invoice_uri", invoice_uri),
    ("order", .str ids.order_id),
    ("order_uri", order_uri),
    ("data", .str ids.data_id),
    ("data_uri", ofText (ref_uri invoice "data")),
    ("input_data", ofText graph.input_data_id),
    ("node_did", orNone (bom.get? "node_did")),
    ("function", ofText graph.function_id),
    ("structure", ofText graph.structure_id),
    ("locators", .obj
      (recordLocators loc invoice graph stages invoice_uri order_uri)),
    ("ingress_data", ofText stages.ingress_data_id),
    ("ingress_data_uri", ofText stages.ingress_data_uri),
    ("integration_data", ofText stages.integration_data_id),
    ("integration_data_uri", ofText stages.integration_data_uri),
    ("data_stages", ofText stages.data_stages_id),
    ("data_stages_uri", ofText stages.data_stages_uri),
    ("seed", ofText sboms.seed),
    ("seed_uri", ofText (ref_uri invoice "seed")),
    ("runtime_sbom", ofText sboms.runtime_sbom),
    ("runtime_sbom_uri", ofText (ref_uri invoice "runtime_sbom")),
    ("function_sbom", ofText sboms.function_sbom),
    ("function_sbom_uri", ofText (ref_uri order "function_sbom")),
    ("structure_sbom", ofText sboms.structure_sbom),
    ("structure_sbom_uri", ofText (ref_uri order "structure_sbom")),
    ("input_data_sbom", ofText sboms.input_data_sbom),
    ("input_data_sbom_uri", ofText (ref_uri order "input_data_sbom"))]

/-- `build_record(bom, content_id, content_mesh=…, locators=locators)`. -/
def build_record (scheme : Ed25519) (jcs : Canonicalization) (net : Network)
    (bom : Fields) (content_id : String) (locators : Option Fields) :
    Act Fields := do
  let ids ← readInvoice net scheme jcs bom content_id
  let graph ← readOrder net ids.invoice ids.order_id
  let stages ← ContentMesh.resolve_invoice_data_stages net ids.invoice
  let sboms ← readSboms ids.invoice graph
  pure (recordOf bom (locators.getD []) ids graph stages sboms)

/-- A record is made of a verified BOM and copies its `node_did`. -/
theorem build_record_ok {scheme : Ed25519} {jcs : Canonicalization}
    {net : Network} {bom record : Fields} {content_id : String}
    {locators : Option Fields} {machine after : Machine}
    (built : build_record scheme jcs net bom content_id locators machine =
      .ok record after) :
    record.get? "node_did" = some (orNone (bom.get? "node_did")) := by
  obtain ⟨ids, _, _, rest⟩ := Effect.bind_ok built
  obtain ⟨graph, _, _, rest⟩ := Effect.bind_ok rest
  obtain ⟨stages, _, _, rest⟩ := Effect.bind_ok rest
  obtain ⟨sboms, _, _, rest⟩ := Effect.bind_ok rest
  obtain ⟨rfl, _⟩ := EStateM.Result.ok.inj rest
  simp [recordOf]

end BomRegistry

end Cats
