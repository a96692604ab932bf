import Cats.AddressStore.Read
import Cats.Cas.LocatorRuns
import Cats.Python.Float

/-!
# Order and Invoice resources

Asking for an Order publishes its Invoice and the Order as they were minted,
and an execution publishes the Invoice it mints.  The Order that was executed
is published from its blob, read as JSON and written again.
-/

namespace Cats

namespace Json

mutual

/-- The value with its floats as they are written. -/
def withFloats : Json → Json
  | .float text => .float (reprFloat text)
  | .arr items => .arr (withFloatsItems items)
  | .obj fields => .obj (withFloatsFields fields)
  | .null => .null
  | .bool value => .bool value
  | .int value => .int value
  | .str value => .str value

def withFloatsItems : List Json → List Json
  | [] => []
  | item :: items => item.withFloats :: withFloatsItems items

def withFloatsFields : List (String × Json) → List (String × Json)
  | [] => []
  | (name, value) :: fields => (name, value.withFloats) :: withFloatsFields fields

end

end Json

namespace JsonResourceStore

/-- `JsonResourceStore.put(content_id, obj)`. -/
def put (store : JsonResourceStore) (content_id : String) (obj : Json) :
    Except Raised JsonResourceStore :=
  store.put_bytes content_id (mintedBytes obj)

end JsonResourceStore

/-- A computation on the stores under `CATS_HOME`. -/
def Act.withHome {α : Type} (step : Home → Except Raised (α × Home)) :
    Act α := do
  let machine ← get
  match machine.home with
  | none => throw (.runtimeError "ContentMesh.CATS_HOME required")
  | some home => do
      let (value, after) ← Act.lift (step home)
      modify fun machine => { machine with home := some after }
      pure value

/-- `LocatorIndex(CATS_HOME).put(content_id, uri=uri, …)`. -/
def registerLocator (content_id uri : String) (media_type : Option String) :
    Act Unit :=
  Act.withHome fun home => do
    let index ← home.index.put content_id uri media_type
    .ok ((), { home with index := index })

/-- `JsonResourceStore(CATS_HOME, kind).put(content_id, obj)`. -/
def putResource (kind : ResourceKind) (content_id : String) (obj : Json) :
    Act Unit :=
  Act.withHome fun home => do
    let store ← (home.resourceStore kind).put content_id obj
    .ok ((), { home with
      resources := Function.update home.resources kind store.files })

section Node

variable (base_url : String) (net : Network)

namespace ContentMesh

/-- `put_bytes(data, media_type=media_type)`. -/
def put_bytes (data : Bytes) (media_type : Option String := none) :
    Act String := do
  let content_id ← Act.withHome fun home => do
    let (content_id, cas) ← home.cas.put data
    .ok (content_id, { home with cas := cas })
  Act.withHome fun home => do
    let index ← home.index.put_cas_node_locator content_id base_url media_type
    .ok ((), { home with index := index })
  pure content_id

/-- `put_json(obj)`. -/
def put_json (obj : Json) : Act String :=
  put_bytes base_url (mintedBytes obj) (some "application/json")

end ContentMesh

/-- What an operation does to the stores besides publishing: it mints blobs
and takes in values, whose hashlinks register their hints. -/
inductive Aside where
  | mint (data : Bytes) (media_type : Option String)
  | intake (value : String)

def Aside.act : Aside → Act Unit
  | .mint data media_type => do
      let _ ← ContentMesh.put_bytes base_url data media_type
      pure ()
  | .intake value => do
      let _ ← Act.withIndex fun index => resolve_intake_ref index value
      pure ()

def Aside.acts : List Aside → Act Unit
  | [] => pure ()
  | aside :: asides => do
      aside.act base_url
      acts asides

/-- What an Order request answers. -/
structure OrderRequest where
  content_id : String
  order_uri : String
  invoice_uri : String

/-- The end of `create_order_request` and `_order_request_from_prior`: the
Invoice is minted, then the Order around it and what the Order lists. -/
def orderRequest (invoice : Fields) (asides : List Aside)
    (order : String → Fields) : Act OrderRequest := do
  let invoice_id ← ContentMesh.put_json base_url (.obj invoice)
  Aside.acts base_url asides
  let order_id ← ContentMesh.put_json base_url (.obj (order invoice_id))
  putResource .invoices invoice_id (.obj invoice)
  putResource .orders order_id (.obj (order invoice_id))
  let invoice_uri ← Act.lift (resource_ldp_uri .invoices invoice_id base_url)
  let order_uri ← Act.lift (resource_ldp_uri .orders order_id base_url)
  registerLocator invoice_id invoice_uri (some "application/json")
  registerLocator order_id order_uri (some "application/json")
  pure ⟨order_id, order_uri, invoice_uri⟩

/-- `Executor.execute` from the mint of the Invoice on. -/
def publishInvoice (invoice : Json) : Act String := do
  let invoice_id ← ContentMesh.put_json base_url invoice
  putResource .invoices invoice_id invoice
  let invoice_uri ← Act.lift (resource_ldp_uri .invoices invoice_id base_url)
  registerLocator invoice_id invoice_uri (some "application/json")
  pure invoice_id

/-- `json.loads(text)`. -/
def loadText (text : List Char) : Except Raised Json :=
  match Json.loads text with
  | some value => .ok value.withFloats
  | none => .error ⟨.jsonDecodeError, "Expecting value"⟩

/-- The body of the `try` in `Runtime.execute`. -/
def republish (order_id : String) : Act String := do
  let text ← AddressStore.cat net order_id
  let order ← Act.lift (loadText text)
  putResource .orders order_id order
  let order_uri ← Act.lift (resource_ldp_uri .orders order_id base_url)
  registerLocator order_id order_uri (some "application/json")
  pure order_uri

/-- The Order publish of `Runtime.execute`; a publish that raises is skipped. -/
def publishOrder (order_id : Option String) : Act (Option String) :=
  match order_id.filter (· ≠ "") with
  | none => pure none
  | some id =>
      tryCatch (do let uri ← republish base_url net id; pure (some uri))
        fun _ => pure none

end Node

end Cats
