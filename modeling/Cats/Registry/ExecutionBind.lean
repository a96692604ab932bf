import Cats.Feedback.ExecutionBom
import Cats.Python.Equality
import Cats.Registry.Record
import Cats.Registry.SameContent

/-!
# The bind checkers

`assert_execution_bind` wants an execution to have used the Order and then its
Invoice, `assert_structure_as_executed_bind` an observation of the Structure
among the stages.  Both recognise an entity by the token of its `@id` or of its
`contentId`.
-/

namespace Cats

namespace ExecutionBind

open BomRegistry (orNone)

/-- An HTTP GET of a JSON value. -/
abbrev HttpGetJson : Type := String → Except Raised Json

/-- `_require_uri(value, label=label)`. -/
def require_uri (value label : String) : Except Raised String :=
  if Text.strip value = "" then
    .error (.assertionError ("missing " ++ label ++ ": " ++ Text.repr value))
  else .ok (Text.strip value)

/-- The items of `prov:used`. -/
def usedItems (used : Json) : Except Raised (List Json) :=
  match used with
  | .obj _ => .ok [used]
  | .arr items => .ok items
  | other => .error (.assertionError
      ("prov:used is not a list or object: " ++ other.typeName))

/-- The `@id` of an item of `prov:used`, which must be there. -/
def usedEntity (index : Nat) (item : Json) : Except Raised Fields :=
  match item with
  | .obj entity =>
      match Fields.get? entity "@id" with
      | some (.str id) =>
          if Text.strip id = "" then
            .error (.assertionError ("prov:used[" ++ toString index ++
              "] missing @id: " ++ item.repr))
          else .ok entity
      | _ => .error (.assertionError ("prov:used[" ++ toString index ++
          "] missing @id: " ++ item.repr))
  | other => .error (.assertionError ("prov:used[" ++ toString index ++
      "] is not an object: " ++ other.repr))

/-- The loop over the items, from an index on. -/
def usedFrom (index : Nat) : List Json → Except Raised (List Fields)
  | [] => .ok []
  | item :: items => do
      let entity ← usedEntity index item
      let entities ← usedFrom (index + 1) items
      .ok (entity :: entities)

/-- `_used_entities(bom)`. -/
def used_entities (bom : Json) : Except Raised (List Fields) :=
  match bom with
  | .obj fields =>
      match Fields.get? fields "prov:wasGeneratedBy" with
      | some (.obj activity) => do
          let items ← usedItems (orNone (Fields.get? activity "prov:used"))
          usedFrom 0 items
      | _ => .error (.assertionError
          ("BOM missing prov:wasGeneratedBy object: " ++ bom.repr))
  | other => .error (.assertionError
      ("BOM is not a JSON object: " ++ other.typeName))

/-- The tokens of the texts an entity has under the keys. -/
def candidates (entity : Fields) : List String → Except Raised (List String)
  | [] => .ok []
  | key :: keys =>
      match Fields.get? entity key with
      | some (.str raw) =>
          if Text.strip raw = "" then candidates entity keys
          else do
            let token ← ref_token raw
            let tokens ← candidates entity keys
            .ok (token :: tokens)
      | _ => candidates entity keys

/-- `_entity_agrees(entity, uri, label=label)`. -/
def entity_agrees (entity : Fields) (uri label : String) :
    Except Raised Unit := do
  let expected ← ref_token uri
  let tokens ← candidates entity ["@id", "contentId"]
  if tokens.contains expected then .ok ()
  else .error (.assertionError (label ++ " token " ++ Text.repr expected ++
    " does not match @id/contentId " ++
    Json.repr (.arr (tokens.map .str)) ++ " (" ++ Json.repr (.obj entity) ++
    ")"))

/-- `_fetch_payload(entity, http_get_json=http_get_json, expected=expected,
label=label)`, on an entity that has a text for its `@id`. -/
def fetch_payload (entity : Fields) (http_get_json : HttpGetJson)
    (expected : Option Fields) (label : String) : Except Raised Unit :=
  match Fields.get? entity "@id" with
  | some (.str id) =>
      let entity_uri := Text.strip id
      if !is_http_uri entity_uri then
        .error (.assertionError (label ++
          " @id is not http(s), cannot GET payload: " ++ Text.repr entity_uri))
      else do
        let body ← http_get_json entity_uri
        match body with
        | .obj _ =>
            if expected.any fun fields => !Json.pyEq body (.obj fields) then
              .error (.assertionError (label ++ " GET " ++
                Text.repr entity_uri ++ " payload != expected envelope"))
            else .ok ()
        | other => .error (.assertionError (label ++ " GET " ++
            Text.repr entity_uri ++ " is not a JSON object: " ++
            other.typeName))
  | some other => .error ⟨.attributeError,
      "'" ++ other.typeName ++ "' object has no attribute 'strip'"⟩
  | none => .error ⟨.keyError, Text.repr "@id"⟩

/-- The optional arguments of a checker. -/
structure Payloads where
  http_get_json : Option HttpGetJson := none
  expected_order : Option Fields := none
  expected_invoice : Option Fields := none

/-- The GETs of the payloads, when there is a way to make them. -/
def fetchPayload (http_get_json : Option HttpGetJson) (entity : Fields)
    (expected : Option Fields) (label : String) : Except Raised Unit :=
  match http_get_json with
  | some get => fetch_payload entity get expected label
  | none => .ok ()

/-- `assert_execution_bind(bom, order_uri=order_uri, invoice_uri=invoice_uri,
…)`. -/
def assert_execution_bind (bom : Json) (order_uri invoice_uri : String)
    (payloads : Payloads := {}) : Except Raised (List Fields) := do
  let order_uri ← require_uri order_uri "order_uri"
  let invoice_uri ← require_uri invoice_uri "invoice_uri"
  if (payloads.expected_order.isSome || payloads.expected_invoice.isSome) &&
      payloads.http_get_json.isNone then
    .error (.assertionError
      "expected_order/expected_invoice require http_get_json")
  else do
    let bind ← used_entities bom
    match bind with
    | order :: invoice :: _ => do
        entity_agrees order order_uri "Order"
        entity_agrees invoice invoice_uri "output Invoice"
        fetchPayload payloads.http_get_json order payloads.expected_order
          "Order"
        fetchPayload payloads.http_get_json invoice payloads.expected_invoice
          "output Invoice"
        .ok bind
    | _ => .error (.assertionError
        ("prov:used must cite Order then Invoice; got " ++
          toString bind.length ++ " entit" ++
          (if bind.length = 1 then "y" else "ies") ++ ": " ++
          Json.repr (.arr (bind.map .obj))))

/-- `_entity_agrees` inside `try … except AssertionError`. -/
def agreement (checked : Except Raised Unit) : Except Raised Bool :=
  match checked with
  | .ok () => .ok true
  | .error raised =>
      if raised.kind = .assertionError then .ok false else .error raised

/-- The entities of the lineage that agree with the URI. -/
def matching (uri : String) : List Json → Except Raised (List Fields)
  | [] => .ok []
  | .obj entity :: lineage => do
      let taken ← agreement
        (entity_agrees entity uri "structure_as_executed")
      let others ← matching uri lineage
      .ok (if taken then entity :: others else others)
  | _ :: lineage => matching uri lineage

/-- Whether an entity is derived from another. -/
def isDerived (entity : Fields) : Bool :=
  match Fields.get? entity "prov:wasDerivedFrom" with
  | some (.obj _) => true
  | _ => false

/-- `bom.get('stageLineage') or []`. -/
def lineageOf (bom : Fields) : Except Raised (List Json) :=
  match Fields.get? bom "stageLineage" with
  | some (.arr items) => .ok items
  | some other =>
      if other.truthy then
        .error (.assertionError
          ("stageLineage is not a list: " ++ other.typeName))
      else .ok []
  | none => .ok []

/-- `_sae_lineage_entity(bom, structure_as_executed_uri)`. -/
def sae_lineage_entity (bom : Json) (uri : String) : Except Raised Fields :=
  match bom with
  | .obj fields => do
      let lineage ← lineageOf fields
      let found ← matching uri lineage
      if found.isEmpty then
        .error (.assertionError
          ("no stageLineage entity agrees with structure_as_executed_uri " ++
            Text.repr uri))
      else
        match (found.filter fun entity => !isDerived entity).getLast? with
        | some entity => .ok entity
        | none => .error (.assertionError
            ("structure_as_executed lineage match still has wasDerivedFrom: "
              ++ Json.repr (.arr (found.map .obj))))
  | other => .error (.assertionError
      ("BOM is not a JSON object: " ++ other.typeName))

/-- `assert_structure_as_executed_bind(bom, structure_as_executed_uri=…, …)`. -/
def assert_structure_as_executed_bind (bom : Json)
    (structure_as_executed_uri : String)
    (http_get_json : Option HttpGetJson := none)
    (expected : Option Fields := none) : Except Raised Fields := do
  let sae_uri ← require_uri structure_as_executed_uri
    "structure_as_executed_uri"
  if expected.isSome && http_get_json.isNone then
    .error (.assertionError
      "expected_structure_as_executed requires http_get_json")
  else do
    let entity ← sae_lineage_entity bom sae_uri
    fetchPayload http_get_json entity expected "structure_as_executed"
    .ok entity

end ExecutionBind

end Cats
