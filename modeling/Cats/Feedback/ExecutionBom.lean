import Cats.Cas.ContentRef
import Cats.Feedback.Envelope

/-!
# The BOM of an execution

`build_execution_bom` writes what an execution used and the stages it went
through, as PROV entities of content ids and locators.  An entity has a web
locator as its `@id` when there is one, with the id beside it, and otherwise an
`ipfs://` name of the id.
-/

namespace Cats

namespace ExecutionBom

/-- `EXECUTOR_RUN_ID`. -/
def executorRunId : String := "#executorRun"

/-- The entity of an id that has no web locator. -/
def bareEntity (content_id : String) : Fields :=
  if is_http_uri content_id then [("@id", .str content_id)]
  else [("@id", .str ("ipfs://" ++ content_id))]

/-- The locator of an entity: the one given, or else that of the id. -/
def locator (base_url content_id : String) (uri : Option String) :
    Except Raised (Option String) :=
  match uri with
  | some uri => .ok (some uri)
  | none => content_uri content_id base_url

/-- The entity of an id at a locator. -/
def entityAt (content_id : String) (resolved : Option String) : Fields :=
  match resolved.filter (· ≠ "") with
  | some resolved =>
      if is_http_uri resolved then
        [("@id", .str resolved), ("contentId", .str content_id)]
      else bareEntity content_id
  | none => bareEntity content_id

/-- `_entity_id(content_id, uri=uri)`. -/
def entity_id (base_url content_id : String) (uri : Option String) :
    Except Raised Fields :=
  (locator base_url content_id uri).map (entityAt content_id)

/-- An id that may be missing, with its locator. -/
structure Ref where
  id : Option String := none
  uri : Option String := none

/-- The id, when it is not empty. -/
def Ref.given (ref : Ref) : Option String := ref.id.filter (· ≠ "")

/-- `_stage_entity(content_id, uri=uri, derived_from=derived.id,
derived_from_uri=derived.uri)`. -/
def stage_entity (base_url content_id : String) (uri : Option String)
    (derived : Ref) : Except Raised Fields := do
  let entity ← entity_id base_url content_id uri
  let started := entity ++ [("@type", .str "prov:Entity"),
    ("prov:wasGeneratedBy", .obj [("@id", .str executorRunId)])]
  match derived.given with
  | some source => do
      let from_entity ← entity_id base_url source derived.uri
      .ok (started ++ [("prov:wasDerivedFrom", .obj from_entity)])
  | none => .ok started

/-- The arguments of `build_execution_bom`. -/
structure Args where
  log_id : String
  log_uri : Option String := none
  invoice_id : String
  invoice_uri : Option String := none
  node_did : Option String := none
  order : Ref := {}
  input_data : Ref := {}
  ingress_data : Ref := {}
  integration_data : Ref := {}
  data : Ref := {}
  structure_as_executed : Ref := {}

/-- `uri or content_uri(content_id)`. -/
def resolvedUri (base_url content_id : String) (uri : Option String) :
    Except Raised (Option String) :=
  match uri.filter (· ≠ "") with
  | some uri => .ok (some uri)
  | none => content_uri content_id base_url

/-- The entity of a stage whose id is given. -/
def stageOf (base_url : String) (stage derived : Ref) :
    Except Raised (List Fields) :=
  match stage.given with
  | some content_id => do
      let entity ← stage_entity base_url content_id stage.uri derived
      .ok [entity]
  | none => .ok []

/-- The items of `prov:used`. -/
def usedEntities (base_url : String) (args : Args) (invoice_uri : Option String) :
    Except Raised (List Fields) := do
  let order ←
    match args.order.given with
    | some order_id => do
        let entity ← entity_id base_url order_id args.order.uri
        Except.ok [entity]
    | none => .ok []
  let invoice ← entity_id base_url args.invoice_id invoice_uri
  .ok (order ++ [invoice])

/-- The entities of `stageLineage`. -/
def lineageEntities (base_url : String) (args : Args) :
    Except Raised (List Fields) := do
  let ingress ← stageOf base_url args.ingress_data args.input_data
  let integration ← stageOf base_url args.integration_data args.ingress_data
  let data ← stageOf base_url args.data args.integration_data
  let observed ← stageOf base_url args.structure_as_executed {}
  .ok (ingress ++ integration ++ data ++ observed)

/-- `used[0] if len(used) == 1 else used`. -/
def usedValue : List Fields → Json
  | [entity] => .obj entity
  | used => .arr (used.map .obj)

/-- The activity that used the entities. -/
def activityOf (used : List Fields) : Fields :=
  [("@id", .str executorRunId), ("@type", .str "prov:Activity"),
    ("prov:used", usedValue used)]

/-- The BOM of an activity before its attribution and its stages. -/
def startedBom (args : Args) (invoice_uri log_uri : Option String)
    (used : List Fields) : Fields :=
  [("@context", .arr EXECUTION_BOM_CONTEXT),
    ("@type", .arr [.str "prov:Entity", .str "cats:ExecutionBom"]),
    ("prov:wasGeneratedBy", .obj (activityOf used)),
    ("invoice_uri", .str (invoice_uri.getD args.invoice_id)),
    ("log_uri", .str (log_uri.getD args.log_id))]

/-- Attribution to the Node whose DID is given. -/
def attributedTo (node_did : Option String) (bom : Fields) : Fields :=
  match node_did with
  | some did => (attach_node_did bom did).set "prov:wasAttributedTo"
      (.obj [("@id", .str did)])
  | none => bom

/-- The stages, when there are any. -/
def withLineage (lineage : List Fields) (bom : Fields) : Fields :=
  if lineage.isEmpty then bom
  else bom.set "stageLineage" (.arr (lineage.map .obj))

/-- `build_execution_bom(…)` on a Node at the base URL. -/
def build_execution_bom (base_url : String) (args : Args) :
    Except Raised Fields := do
  let invoice_uri ← resolvedUri base_url args.invoice_id args.invoice_uri
  let log_uri ← resolvedUri base_url args.log_id args.log_uri
  let used ← usedEntities base_url args invoice_uri
  let lineage ← lineageEntities base_url args
  .ok (withLineage lineage
    (attributedTo args.node_did (startedBom args invoice_uri log_uri used)))

end ExecutionBom

end Cats
