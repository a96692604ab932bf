import Cats.Cas.FlattenRefs
import Cats.Ldp.Resources
import Cats.Python.Equality
import Cats.Registry.Record

/-!
# Handoff coherence

A handoff is the answer of an execution, the record of its BOM, and the
envelopes they lead to.  Once they cohere, a fetch for the slots of the
envelopes is handed out: it reads a slot of one of the stems below at the id the
record has for the stem, and compares it with what the slot's URI answers.
-/

namespace Cats

namespace Handoff

/-- `_REG_STEM`, which maps each stem to itself. -/
def regStem : List String :=
  ["order", "data", "seed", "data_stages", "function", "structure"]

/-- `value.get(key)` of a dict, where a missing key is `None`. -/
def slotValue (fields : Fields) (key : String) : Json :=
  BomRegistry.orNone (Fields.get? fields key)

/-- `_uri_digest(uri)`. -/
def uri_digest : Json → Except Raised String
  | .str uri => .ok (Text.lower (String.ofList
      ((uri.toList.rdropWhile (· = '/')).rtakeWhile (· ≠ '/'))))
  | other => .error ⟨.attributeError,
      s!"'{other.typeName}' object has no attribute 'rstrip'"⟩

/-- `(value or {})`, where the program goes on to call `get`. -/
def orEmpty (value : Json) : Except Raised Fields :=
  if value.truthy then value.mapping else .ok []

/-- A text that is not blank, stripped. -/
def givenText : Json → Option String
  | .str text => if Text.strip text = "" then none else some (Text.strip text)
  | _ => none

/-- `resolve_handoff_invoice_uri(cat_response, record)`. -/
def resolve_handoff_invoice_uri (cat_response record : Fields) :
    Except Raised (Option String) := do
  let bom ← orEmpty (slotValue cat_response "bom")
  let locs ← orEmpty (slotValue record "locators")
  .ok ([slotValue bom "invoice_uri", slotValue record "invoice_uri",
    slotValue locs "invoice_uri"].findSome? givenText)

/-- What `content_mesh.cat` returns. -/
inductive Fetched where
  | bytes (data : Bytes)
  | text (text : List Char)
  | value (value : Json)

/-- `json.loads` of what was fetched; anything but bytes or text stays. -/
def Fetched.load : Fetched → Except Raised Json
  | .bytes data => do
      let text ← readText data
      loadText text
  | .text found => loadText found
  | .value whole => .ok whole

section

variable (record : Fields) (cat : Json → Except Raised Fetched)
  (http_get_json : Json → Except Raised Json)

/-- `record.get(reg_key) or uri`, where the stem has a key. -/
def locatorOf (stem uri : String) : Json :=
  if regStem.contains stem then
    BomRegistry.valueOr (slotValue record stem) (.str uri)
  else .str uri

/-- `fetch_ref` of `make_content_fetch_ref(record=…, content_mesh=…, …)`. -/
def make_content_fetch_ref (stem uri : String) : Except Raised Json := do
  let locator := locatorOf record stem uri
  let raw ← cat locator
  let via_mesh ← raw.load
  if Text.startsWith uri "http" then do
    let via_http ← http_get_json (.str uri)
    if via_http.pyEq via_mesh then .ok via_mesh
    else .error (.assertionError (s!"HTTP GET {Text.repr uri} must match " ++
      s!"AddressStore/registry cat of {locator.repr}"))
  else .ok via_mesh

/-- The envelopes of a coherent handoff. -/
structure Envelopes where
  bom_ldp_uri : String
  invoice_uri : String
  bom : Fields
  invoice : Fields
  order : Fields
  locators : Fields
  fetch_ref : Option (String → String → Except Raised Json)

/-- `if not condition: raise AssertionError(text)`. -/
def require (condition : Bool) (text : String) : Except Raised Unit :=
  if condition then .ok () else .error (.assertionError text)

/-- A document that has to be a JSON object. -/
def requireObject (value : Json) (text : String) : Except Raised Fields :=
  match value with
  | .obj fields => .ok fields
  | _ => .error (.assertionError text)

/-- A text that has to be there, stripped. -/
def requireText (value : Json) (text : String) : Except Raised String :=
  match givenText value with
  | some found => .ok found
  | none => .error (.assertionError text)

/-- Truthy, and something else. -/
def conflicts (value other : Json) : Bool :=
  value.truthy && !other.pyEq value

/-- Locator presence and response–registry locator agreement. -/
def assertLocators (cat_response locs : Fields) (invoice : Option String) :
    Except Raised (String × String) := do
  let bom_ldp_uri ← requireText (slotValue cat_response "bom_ldp_uri")
    ("missing bom_ldp_uri on cat_response: " ++ (Json.obj cat_response).repr)
  let invoice_uri ← requireText (BomRegistry.ofText invoice)
    ("missing invoice_uri (response/record/locators): response=" ++
      (Json.obj cat_response).repr ++ " record=" ++ (Json.obj record).repr)
  require ((slotValue locs "bom_ldp_uri").pyEq (.str bom_ldp_uri))
    ("record locators.bom_ldp_uri " ++ (slotValue locs "bom_ldp_uri").repr ++
      s!" != response bom_ldp_uri {Text.repr bom_ldp_uri}")
  require (!conflicts (slotValue locs "invoice_uri") (.str invoice_uri))
    ("record locators.invoice_uri " ++ (slotValue locs "invoice_uri").repr ++
      s!" != resolved invoice_uri {Text.repr invoice_uri}")
  require (!conflicts (slotValue record "invoice_uri") (.str invoice_uri))
    ("record.invoice_uri " ++ (slotValue record "invoice_uri").repr ++
      s!" != resolved invoice_uri {Text.repr invoice_uri}")
  .ok (bom_ldp_uri, invoice_uri)

/-- Invoice slot completeness and registry–payload ref agreement. -/
def assertInvoice (locs invoice : Fields) : Except Raised Unit := do
  let order_uri := slotValue invoice "order_uri"
  let data_uri := slotValue invoice "data_uri"
  let seed_uri := slotValue invoice "seed_uri"
  require (order_uri.truthy && data_uri.truthy && seed_uri.truthy)
    ("Invoice missing order_uri/data_uri/seed_uri: " ++
      (Json.obj invoice).repr)
  require (!conflicts (slotValue record "data_uri") data_uri)
    (s!"Invoice data_uri {data_uri.repr} != record data_uri " ++
      (slotValue record "data_uri").repr)
  let reg_order_uri := BomRegistry.valueOr (slotValue locs "order_uri")
    (slotValue record "order_uri")
  if reg_order_uri.truthy then do
    let registered ← uri_digest reg_order_uri
    let cited ← uri_digest order_uri
    require (registered = cited)
      (s!"registry order URI digest {Text.repr registered} != " ++
        s!"Invoice order_uri digest {Text.repr cited}")
  else .ok ()

/-- Order slot completeness. -/
def assertOrder (order : Fields) : Except Raised Unit :=
  require ((slotValue order "function_uri").truthy &&
      (slotValue order "structure_uri").truthy &&
      (slotValue order "invoice_uri").truthy)
    ("Order missing function_uri/structure_uri/invoice_uri: " ++
      (Json.obj order).repr)

/-- `assert_control_plane_handoff_coherence(…)`. -/
def assert_control_plane_handoff_coherence (cat_response : Fields)
    (content_mesh : Option (Json → Except Raised Fetched)) :
    Except Raised Envelopes := do
  let resolved ← resolve_handoff_invoice_uri cat_response record
  let locs ← orEmpty (slotValue record "locators")
  let (bom_ldp_uri, invoice_uri) ←
    assertLocators record cat_response locs resolved
  let bom ← http_get_json (.str bom_ldp_uri)
  let bom ← requireObject bom
    s!"BOM at {Text.repr bom_ldp_uri} is not a JSON object"
  require (!conflicts (slotValue bom "invoice_uri") (.str invoice_uri))
    ("ExecutionBom invoice_uri " ++ (slotValue bom "invoice_uri").repr ++
      s!" != resolved invoice_uri {Text.repr invoice_uri}")
  let invoice ← http_get_json (.str invoice_uri)
  let invoice ← requireObject invoice
    s!"Invoice at {Text.repr invoice_uri} is not a JSON object"
  assertInvoice record locs invoice
  let order_uri := slotValue invoice "order_uri"
  let order ← http_get_json order_uri
  let order ← requireObject order
    s!"Order at {order_uri.repr} is not a JSON object"
  assertOrder order
  .ok
    { bom_ldp_uri := bom_ldp_uri
      invoice_uri := invoice_uri
      bom := bom
      invoice := invoice
      order := order
      locators := locs
      fetch_ref := content_mesh.map fun cat =>
        make_content_fetch_ref record cat http_get_json }

end

end Handoff

end Cats
