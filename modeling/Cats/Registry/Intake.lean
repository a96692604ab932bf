import Cats.Cas.ContentRef
import Cats.Effect
import Cats.Registry.Store

/-!
# Taking in a BOM by name

A client names the BOM it wants by a BOM locator, by the id of its data or by
a locator of its data.  The node resolves the request to an Order, the mesh to
a registry record; both register the hints of the hashlinks they read.
-/

namespace Cats

/-- The keys of a request, as a JSON body or as keyword arguments. -/
structure IntakeRequest where
  order_uri : Option String := none
  content_id : Option String := none
  hl : Option String := none
  data_uri : Option String := none
  bom_uri : Option String := none
  bom_ldp_uri : Option String := none
  bom_solid_uri : Option String := none
  order_cid : Option String := none
  bom_cid : Option String := none
  data_cid : Option String := none
  deriving DecidableEq

/-- `first or second`. -/
def textOr (first second : Option String) : Option String :=
  match first with
  | some text => if text = "" then second else some text
  | none => second

/-- The names of the keys that hold something. -/
def namesGiven (keys : List (String × Option String)) : List String :=
  (keys.filter fun key => key.2.isSome).map Prod.fst

/-- `is_hl(value) or is_http_uri(value) or is_ni_or_digest(value)`. -/
def isIntakeValue (value : String) : Bool :=
  is_hl value || is_http_uri value || is_ni_or_digest value

namespace Node

structure OrderIntakeError where
  payload : Fields
  status : Nat

/-- What `resolve_order_id` raises. -/
inductive Failure where
  | intake (error : OrderIntakeError)
  | other (raised : Raised)

def refusal (status : Nat) (payload : Fields) : Failure :=
  .intake ⟨payload, status⟩

abbrev Intake (α : Type) : Type := Effect Failure LocatorIndex α

/-- A step inside `try … except ValueError`. -/
def orInvalid {α : Type} (label : String) (result : Except Raised α) :
    Intake α :=
  match result with
  | .ok value => pure value
  | .error raised =>
      if raised.isValueError then
        throw (refusal 400 [("error", .str s!"invalid {label}")])
      else throw (.other raised)

/-- `_id_from_value(value, label=label)`. -/
def id_from_value (value label : String) : Intake String := do
  if isIntakeValue value then
    let index ← get
    let (found, after) ← orInvalid label (resolve_intake_ref (some index) value)
    set (after.getD index)
    match found with
    | some id => pure id
    | none => throw (refusal 404
        [("error", .str "not found"), (label, .str value)])
  else throw (refusal 400 [("error", .str s!"invalid {label}")])

/-- `registry.lookup_order(bom_id)`, the Order it must give. -/
def orderOrNotFound (found : Option String) (label named : String) :
    Intake String :=
  match found with
  | some order => pure order
  | none => throw (refusal 404
      [("error", .str "not found"), (label, .str named)])

/-- The Order of the BOM that alone has the data id. -/
def order_of_data (registry : BomRegistry) (data_id : String) :
    Intake String := do
  let bom_id ←
    match registry.resolve_unique_bom data_id with
    | .ok bom_id => pure bom_id
    | .error (.ambiguous _ bom_ids) => throw (refusal 409
        [("error", .str "ambiguous content_id"), ("content_id", .str data_id),
          ("bom_ids", .arr (bom_ids.map .str))])
    | .error (.missing _) => throw (refusal 404
        [("error", .str "not found"), ("content_id", .str data_id)])
    | .error (.other raised) => orInvalid "content_id" (.error raised)
  match registry.lookup_order bom_id with
  | .ok found => orderOrNotFound found "content_id" bom_id
  | .error raised => throw (.other raised)

/-- The id of `content_id`, `hl` or a resolved `data_uri` that is itself a
locator. -/
def id_of_locator (data_id : String) : Intake String :=
  if is_hl data_id || is_http_uri data_id then
    id_from_value data_id "content_id"
  else pure data_id

/-- `resolve_order_id(body, cats_home=cats_home)`. -/
def resolve_order_id (registry : BomRegistry) (body : IntakeRequest) :
    Intake String := do
  let bad := namesGiven [("order_cid", body.order_cid),
    ("bom_cid", body.bom_cid), ("data_cid", body.data_cid)]
  if bad ≠ [] then
    throw (refusal 400 [("error", .str
      (String.intercalate ", " bad ++ " no longer accepted; use order_uri, " ++
        "data_uri, bom_ldp_uri / bom_solid_uri, content_id, or hl"))])
  else
    match textOr body.order_uri none with
    | some order_uri => id_from_value order_uri "order_uri"
    | none =>
        match textOr body.bom_uri
          (textOr body.bom_ldp_uri (textOr body.bom_solid_uri none)) with
        | some bom_locator => do
            let bom_id ← id_from_value bom_locator "bom_uri"
            let resolved ← orInvalid "bom_uri" (registry.lookup_order bom_id)
            orderOrNotFound resolved "bom_uri" bom_locator
        | none =>
            match textOr body.content_id (textOr body.hl none),
              textOr body.data_uri none with
            | some content_id, _ => do
                let data_id ← id_of_locator content_id
                order_of_data registry data_id
            | none, some data_uri => do
                let found ← id_from_value data_uri "data_uri"
                let data_id ← id_of_locator found
                order_of_data registry data_id
            | none, none => throw (refusal 400 [("error", .str
                ("order_uri, data_uri, bom_ldp_uri / bom_solid_uri, " ++
                  "content_id, or hl required"))])

end Node

namespace OrderOps

abbrev Intake (α : Type) : Type := Effect RegistryError LocatorIndex α

def raise {α : Type} (text : String) : Intake α :=
  throw (.other (.runtimeError text))

/-- `_resolve(value, label=label)` of `_response_from_registry`. -/
def resolve (value label : String) : Intake String := do
  if isIntakeValue value then
    let index ← get
    match resolve_intake_ref (some index) value with
    | .error raised =>
        if raised.isValueError then
          raise s!"invalid {label}={Text.repr value}"
        else throw (.other raised)
    | .ok (found, after) => do
        set (after.getD index)
        match found with
        | some id => pure id
        | none => raise s!"no content id for {label}={Text.repr value}"
  else raise s!"invalid {label}={Text.repr value}"

/-- `registry.resolve_unique_bom(data_id)`, `RegistryError` made a
`RuntimeError`. -/
def uniqueBom (registry : BomRegistry) (data_id : String) : Intake String :=
  match registry.resolve_unique_bom data_id with
  | .ok bom_id => pure bom_id
  | .error (.missing text) => raise text
  | .error other => throw other

/-- `registry.get(bom_id)`, which must be there. -/
def recordOf (registry : BomRegistry) (bom_id : String) :
    Intake (String × Json) :=
  match registry.get bom_id with
  | .ok (some record) => pure (bom_id, record)
  | .ok none => raise
      s!"no registry record for content_id={Text.repr bom_id}"
  | .error raised => throw (.other raised)

/-- `data_id`, or the id of `data_uri` when there is none. -/
def id_of_data_uri (data_id data_uri : Option String) :
    Intake (Option String) :=
  match textOr data_id none, textOr data_uri none with
  | none, some uri => do
      let found ← resolve uri "data_uri"
      pure (some found)
  | _, _ => pure data_id

/-- The id of a `data_id` that is itself a locator. -/
def id_of_locator (data_id : Option String) : Intake (Option String) :=
  match textOr data_id none with
  | some id =>
      if is_hl id || is_http_uri id then do
        let found ← resolve id "content_id"
        pure (some found)
      else pure data_id
  | none => pure data_id

/-- The registry part of `_response_from_registry(**request)`: the BOM id and
its record. -/
def record_from_registry (registry : BomRegistry) (request : IntakeRequest) :
    Intake (String × Json) := do
  let bad := namesGiven
    [("bom_cid", request.bom_cid), ("data_cid", request.data_cid)]
  if bad ≠ [] then
    raise (String.intercalate ", " bad ++ " no longer accepted; use " ++
      "content_id, data_uri, or bom_uri / bom_ldp_uri / bom_solid_uri")
  else
    let bom_locator := textOr request.bom_uri
      (textOr request.bom_ldp_uri request.bom_solid_uri)
    if request.content_id = none ∧ request.hl = none ∧
        request.data_uri = none ∧ bom_locator = none then
      raise ("content_id, hl, data_uri, or bom_uri required when " ++
        "cat_response is omitted")
    else
      match bom_locator with
      | some locator => do
          let bom_id ← resolve locator "bom_uri"
          recordOf registry bom_id
      | none => do
          let found ← id_of_data_uri (textOr request.content_id request.hl)
            request.data_uri
          let data_id ← id_of_locator found
          let bom_id ← uniqueBom registry (data_id.getD "")
          recordOf registry bom_id

end OrderOps

end Cats
