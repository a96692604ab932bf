import Cats.Bom.AllocateView
import Cats.Mesh.StagePairs

/-!
# The SysML view of a quantum

`quantum_sysml` compiles an Order, its Function and its Structure into a
package with a usage for each role, and `validate_sysml_quantum` checks such a
package against an Order.  Both read the ids of the roles from the slots of the
three objects, each at its own time.
-/

namespace Cats

namespace Sysml

open Sbom ContentMesh
open Rtm (ownedElements hashable nonblank?)
open BomRegistry (orNone)

/-- The roles of an Architectural Quantum. -/
inductive Role where
  | quantum
  | function
  | process
  | infrafunction
  | struct
  | plant
  | infrastructure
  deriving DecidableEq

def Role.name : Role → String
  | quantum => "ArchitecturalQuantum"
  | function => "Function"
  | process => "Process"
  | infrafunction => "InfraFunction"
  | struct => "Structure"
  | plant => "Plant"
  | infrastructure => "InfraStructure"

/-- `USAGE_ROLES`. -/
def usageRoles : List Role :=
  [.quantum, .function, .process, .infrafunction, .struct, .plant,
    .infrastructure]

/-- `PART_DEFS`. -/
def partDefs : List Role :=
  [.function, .process, .infrafunction, .struct, .plant, .infrastructure]

/-- The ports of `PORT_DEFS` and `PORT_ADAPTERS`. -/
inductive Port where
  | transport
  | io
  | compute
  | plant
  | jobHandle
  deriving DecidableEq

namespace Port

def name : Port → String
  | transport => "TransportPort"
  | io => "IoPort"
  | compute => "ComputePort"
  | plant => "PlantPort"
  | jobHandle => "JobHandle"

def owner : Port → Role
  | transport | io | compute => .process
  | plant | jobHandle => .infrafunction

def side : String := "function"

def adapter : Port → Role
  | transport => .infrastructure
  | io | compute | plant | jobHandle => .plant

def adapterSide : String := "structure"

end Port

def ports : List Port := [.transport, .io, .compute, .plant, .jobHandle]

section Compile

/-- `_optional_ni(token, label=label)`; `require_ni` raises ValueErrors only. -/
def optional_ni (token : Option String) (label : String) : Option String :=
  match token with
  | some token => (require_ni token label).toOption
  | none => none

/-- The ids `quantum_sysml` is called with. -/
structure SlotIds where
  function_id : Option String
  process_id : Option String
  infrafunction_id : Option String
  structure_id : Option String
  plant_id : Option String
  infrastructure_id : Option String

/-- The canonical id of each role. -/
def SlotIds.usageIds (order_id : Option String) (ids : SlotIds) :
    Role → Option String
  | .quantum => order_id
  | .function => optional_ni ids.function_id "function_id"
  | .process => optional_ni ids.process_id "process_id"
  | .infrafunction => optional_ni ids.infrafunction_id "infrafunction_id"
  | .struct => optional_ni ids.structure_id "structure_id"
  | .plant => optional_ni ids.plant_id "plant_id"
  | .infrastructure => optional_ni ids.infrastructure_id "infrastructure_id"

/-- The definition of a part. -/
def partElement (base : String) (role : Role) : Fields :=
  [("@id", .str (base ++ "#def:" ++ role.name)),
    ("@type", .str "sysml:PartDefinition"), ("name", .str role.name)]

/-- The definition of a port. -/
def portElement (base : String) (port : Port) : Fields :=
  [("@id", .str (base ++ "#def:" ++ port.name)),
    ("@type", .str "sysml:PortDefinition"),
    ("adapterOn", .str port.adapter.name),
    ("adapterSide", .str Port.adapterSide), ("name", .str port.name),
    ("ownedBy", .str port.owner.name), ("ownedSide", .str Port.side)]

/-- A usage before its id. -/
def usageHead (base : String) (role : Role) : Fields :=
  [("@id", .str (base ++ "#usage:" ++ role.name)),
    ("@type", .str "sysml:PartUsage"),
    ("definition", .str
      (if role ∈ partDefs then base ++ "#def:" ++ role.name
        else base ++ "#usage:" ++ role.name)),
    ("name", .str role.name)]

/-- The catalog number of the two roles that have one. -/
def usagePurl (role : Role) (content_id : String) : Except Raised Fields :=
  match role with
  | .function => do
      let purl ← cats_purl "function" content_id
      .ok [("purl", .str purl)]
  | .struct => do
      let purl ← cats_purl "structure" content_id
      .ok [("purl", .str purl)]
  | _ => .ok []

/-- The usage of a role. -/
def usageElement (base : String) (role : Role) (content_id : Option String) :
    Except Raised Fields :=
  match content_id.filter (· ≠ "") with
  | some id => do
      let purl ← usagePurl role id
      .ok (usageHead base role ++ ("contentId", .str id) :: purl)
  | none => .ok (usageHead base role)

/-- `_SYSML_CONTEXT`. -/
def sysmlContext : Fields :=
  [("sysml", .str "https://www.omg.org/spec/SysML/20250201#"),
    ("cats", .str "https://cats.dynamicalsystemsgroup.com/ns#"),
    ("contentId", .str "cats:contentId"), ("ownedBy", .str "cats:ownedBy"),
    ("ownedSide", .str "cats:ownedSide"),
    ("adapterOn", .str "cats:adapterOn"),
    ("adapterSide", .str "cats:adapterSide"),
    ("purl", .str "https://github.com/package-url/purl-spec#purl")]

/-- `quantum_sysml(order_id=order_id, …, created=created)`. -/
def quantum_sysml (order_id : String) (ids : SlotIds) (created : String) :
    Except Raised Fields := do
  let order_ni ← require_ni order_id "order_id"
  let base := projection_urn "sysml" order_ni
  let usageIds := ids.usageIds (some order_ni)
  let usages ← usageRoles.mapM fun role =>
    usageElement base role (usageIds role)
  let elements := partDefs.map (partElement base) ++
    ports.map (portElement base) ++ usages
  .ok [("@context", .obj sysmlContext), ("@id", .str base),
    ("@type", .str "sysml:Package"), ("created", .str created),
    ("name", .str "ArchitecturalQuantum"),
    ("ownedElement", .arr (sortedBy elementId (elements.map .obj)))]

/-- An Order with its Function and its Structure. -/
structure OrderGraph where
  order_id : String
  order : Fields
  function : Fields
  struct : Fields

/-- The slots of the roles, in the order in which both sides read them. -/
def slotIds (graph : OrderGraph) : Act SlotIds := do
  let function_id ← refId graph.order "function"
  let process_id ← refId graph.function "process"
  let infrafunction_id ← refId graph.function "infrafunction"
  let structure_id ← refId graph.order "structure"
  let plant_id ← refId graph.struct "plant"
  let infrastructure_id ← refId graph.struct "infrastructure"
  pure ⟨function_id, process_id, infrafunction_id, structure_id, plant_id,
    infrastructure_id⟩

/-- The document `project_sysml_quantum(order, mesh, order_id=order_id,
function=function, structure=structure, created=created)` puts. -/
def project_sysml_quantum (graph : OrderGraph) (created : String) :
    Act Fields := do
  let ids ← slotIds graph
  Act.lift (quantum_sysml graph.order_id ids created)

end Compile

section Validate

/-- `expected_usage_ids(order, order_id=order_id, function=function,
structure=structure, cats_home=cats_home)`. -/
def expected_usage_ids (graph : OrderGraph) : Act (Role → Option String) := do
  let ids ← slotIds graph
  pure (ids.usageIds (optional_ni (some graph.order_id) "order_id"))

/-- The element of a type and a name; the last one of a name stands. -/
def lastNamed (type name : String) (elements : List Fields) : Option Fields :=
  (elements.filter fun item =>
    item.get? "@type" = some (.str type) &&
      item.get? "name" = some (.str name)).getLast?

/-- `str(item.get(key))`. -/
def shown (item : Fields) (key : String) : String :=
  Json.toStr (orNone (item.get? key))

def checkParts (elements : List Fields) : Except Raised Unit := do
  let part_names ← (elements.filter fun item =>
      item.get? "@type" = some (.str "sysml:PartDefinition")).mapM
    fun item => hashable (orNone (item.get? "name"))
  let missing := partDefs.filter fun role =>
    !part_names.contains (.str role.name)
  if missing ≠ [] then
    .error (.valueError ("SysML missing part defs: " ++
      Json.repr (.arr (missing.map fun role => .str role.name))))
  else .ok ()

def checkPort (elements : List Fields) (port : Port) : Except Raised Unit :=
  match lastNamed "sysml:PortDefinition" port.name elements with
  | none => .error (.valueError ("SysML missing port def: " ++ port.name))
  | some item =>
      if item.get? "ownedBy" ≠ some (.str port.owner.name) ||
          item.get? "ownedSide" ≠ some (.str Port.side) then
        .error (.valueError ("SysML port " ++ port.name ++
          " owner mismatch: expected " ++ port.owner.name ++ "/" ++ Port.side ++
          ", got " ++ shown item "ownedBy" ++ "/" ++ shown item "ownedSide"))
      else if item.get? "adapterOn" ≠ some (.str port.adapter.name) ||
          item.get? "adapterSide" ≠ some (.str Port.adapterSide) then
        .error (.valueError ("SysML port " ++ port.name ++
          " adapter mismatch: expected " ++ port.adapter.name ++ "/" ++
          Port.adapterSide))
      else .ok ()

/-- The check of a usage, which gives the id it compared. -/
def checkUsage (elements : List Fields) (expected : Role → Option String)
    (role : Role) : Except Raised String :=
  match lastNamed "sysml:PartUsage" role.name elements with
  | none => .error (.valueError ("SysML missing usage: " ++ role.name))
  | some usage =>
      let missing : Except Raised String :=
        .error (.valueError ("SysML missing contentId for " ++ role.name))
      match (expected role).filter (· ≠ ""), usage.get? "contentId" with
      | some want, some (.str got) =>
          if Text.strip got = "" then missing
          else if !is_ni_or_digest got then
            .error (.valueError ("SysML " ++ role.name ++
              " contentId is not ni:/digest: " ++ Text.repr got))
          else do
            let got_ni ← equality_id got
            if got_ni ≠ want then
              .error (.valueError ("SysML stale " ++ role.name ++
                " contentId: compiled " ++ got_ni ++ " != order " ++ want))
            else .ok got_ni
      | _, _ => missing

/-- The loop over the roles. -/
def checkUsages (elements : List Fields) (expected : Role → Option String)
    (fetch : Option (String → Act Unit)) : List Role → Act Unit
  | [] => pure ()
  | role :: roles => do
      let got_ni ← Act.lift (checkUsage elements expected role)
      match fetch with
      | some fetch => fetch got_ni
      | none => pure ()
      checkUsages elements expected fetch roles

/-- `validate_sysml_quantum(doc, order, order_id=order_id, function=function,
structure=structure, fetch=fetch, cats_home=cats_home)`. -/
def validate_sysml_quantum (doc : Json) (graph : OrderGraph)
    (fetch : Option (String → Act Unit) := none) : Act Unit :=
  match doc with
  | .obj doc => do
      if Fields.get? doc "@type" ≠ some (.str "sysml:Package") then
        throw (.valueError "SysML document @type must be sysml:Package")
      let elements := ownedElements doc
      Act.lift (checkParts elements)
      Act.lift (ports.forM (checkPort elements))
      let expected ← expected_usage_ids graph
      checkUsages elements expected fetch usageRoles
  | other => throw (.valueError
      ("SysML document is not a JSON object: " ++ other.typeName))

end Validate

end Sysml

end Cats
