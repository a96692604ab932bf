import Cats.Ldp.Resources

/-!
# The Job result

A one-shot run leaves its Invoice, its BOM and the blobs they cite in a
directory outside `CATS_HOME`.  The ids are gathered first, from the slots of
the two documents and from the stage lineage; then the blobs are copied; the
documents are written last.
-/

namespace Cats

namespace JobResult

/-- Where the process runs, the home directories of users, and
`CAT_RESULT_DIR`. -/
structure Host where
  cwd : String
  expanduser : String → String
  result_dir : Option String

/-- `Path(text).resolve()`. -/
def Host.resolve (host : Host) (text : String) : Path :=
  Posix.resolve (Posix.join host.cwd text)

/-- `str(path)`. -/
def pathString (path : Path) : String :=
  String.ofList ('/' :: List.intercalate ['/'] path)

/-- `resolve_result_dir(cats_home, result_dir)`. -/
def resolve_result_dir (host : Host) (cats_home : String)
    (result_dir : Option String) : Except Raised Path :=
  let raw := Text.strip
    ((result_dir.filter (· ≠ "") <|> host.result_dir).getD "")
  let home := host.resolve cats_home
  let path :=
    if raw = "" then home.dropLast ++ ["cat-result".toList]
    else host.resolve (host.expanduser raw)
  if home <+: path then
    .error (.runtimeError (s!"CAT_RESULT_DIR {pathString path} must not be " ++
      s!"under CATS_HOME {pathString home}"))
  else .ok path

/-- `_equality_id(value, cats_home=cats_home)`. -/
def equality_id (index : Option LocatorIndex) (value : Option String) :
    Except Raised (Option String) :=
  match value with
  | none => .ok none
  | some value =>
      let raw := Text.strip value
      if raw = "" then .ok none
      else if is_ni_or_digest raw then
        (from_ni raw).map fun digest => some (to_ni digest)
      else content_id_from_uri index raw

/-- `_ref_content_id(obj, stem, cats_home=cats_home)`. -/
def ref_content_id (index : Option LocatorIndex) (obj : Fields)
    (stem : String) : Except Raised (Option String × Option LocatorIndex) := do
  let found ← equality_id index (ref_uri obj stem)
  match found.filter (· ≠ "") with
  | some id => .ok (some id, index)
  | none => ref_id index obj stem

/-- `_note(found, content_id)`. -/
def note (found : List String) (content_id : Option String) : List String :=
  match content_id.filter (· ≠ "") with
  | some id => if found.contains id then found else found ++ [id]
  | none => found

/-- What a blob that is not there raises. -/
def missing (content_id : String) : Raised :=
  .runtimeError s!"CAS content not found: {content_id}"

/-- The id of an entity of the lineage: its `contentId`, which must resolve,
else its `@id`. -/
def entityId (index : Option LocatorIndex) (entity : Fields) :
    Except Raised (Option String) :=
  let atId : Except Raised (Option String) :=
    match Fields.get? entity "@id" with
    | some (.str at_id) => equality_id index (some at_id)
    | _ => .ok none
  match Fields.get? entity "contentId" with
  | some (.str content_id) =>
      if Text.strip content_id = "" then atId
      else do
        let resolved ← equality_id index (some content_id)
        match resolved.filter (· ≠ "") with
        | some id => .ok (some id)
        | none => .error (missing content_id)
  | _ => atId

mutual

/-- `_note_entity(found, entity, cats_home=cats_home)`. -/
def note_entity (index : Option LocatorIndex) (found : List String) :
    Json → Except Raised (List String)
  | .obj entity => do
      let content_id ← entityId index entity
      noteDerived index (note found content_id) entity
  | _ => .ok found

/-- What `entity.get('prov:wasDerivedFrom')` adds. -/
def noteDerived (index : Option LocatorIndex) (found : List String) :
    List (String × Json) → Except Raised (List String)
  | [] => .ok found
  | (name, derived) :: entity =>
      if name = "prov:wasDerivedFrom" then
        match derived with
        | .arr items => noteEntities index found items
        | derived => note_entity index found derived
      else noteDerived index found entity

/-- The entities of a list, one after the other. -/
def noteEntities (index : Option LocatorIndex) (found : List String) :
    List Json → Except Raised (List String)
  | [] => .ok found
  | item :: items => do
      let noted ← note_entity index found item
      noteEntities index noted items

end

/-- The stems of the BOM, and of the Invoice, that cite blobs. -/
def bomStems : List String := ["data", "order", "log"]

def invoiceStems : List String :=
  ["data", "data_stages", "order", "structure_as_executed"]

/-- Note the slots of an object in turn. -/
def noteSlots (obj : Fields) : List String → List String → Act (List String)
  | [], found => pure found
  | stem :: stems, found => do
      let content_id ← Act.withIndex fun index => ref_content_id index obj stem
      noteSlots obj stems (note found content_id)

/-- A computation of the locator index that leaves it alone. -/
def reading {α : Type} (read : Option LocatorIndex → Except Raised α) :
    Act α := do
  let machine ← get
  Act.lift (read (machine.home.map Home.index))

/-- The entities of `bom.get('stageLineage')`, when it is a list. -/
def lineage (bom : Fields) : List Json :=
  match Fields.get? bom "stageLineage" with
  | some (.arr entities) => entities
  | _ => []

/-- The ids cited, the Invoice and the BOM first. -/
def citedFrom (bom invoice : Fields) (invoice_id bom_id : String) :
    Act (List String) := do
  let named ← reading fun index => equality_id index (some bom_id)
  let bom_id := (named.filter (· ≠ "")).getD (Text.strip bom_id)
  let found ← noteSlots bom bomStems (note [invoice_id] (some bom_id))
  let found ← noteSlots invoice invoiceStems found
  reading fun index => noteEntities index found (lineage bom)

/-- `_cited_content_ids(bom_response, bom, invoice, invoice_id, …)`. -/
def cited_content_ids (bom_response bom invoice : Fields)
    (invoice_id : String) : Act (List String) :=
  match Fields.get? bom_response "content_id" with
  | some (.str bom_id) =>
      if Text.strip bom_id = "" then
        throw (.runtimeError "bom_response is missing content_id")
      else citedFrom bom invoice invoice_id bom_id
  | _ => throw (.runtimeError "bom_response is missing content_id")

/-- `CasHttpStore(cats_home)`. -/
def store (machine : Machine) : CasHttpStore :=
  match machine.home with
  | some home => home.cas
  | none => .empty

/-- `store.get(content_id)`, of a blob that must be there. -/
def blobOf (content_id : String) : Act Bytes := do
  let machine ← get
  let blob ← Act.lift ((store machine).get content_id)
  match blob with
  | some blob => pure blob
  | none => throw (missing content_id)

/-- `_copy_blob(store, dest_cas, content_id)`. -/
def copy_blob (dest_cas : Path) (content_id : String) : Act Unit := do
  let blob ← blobOf content_id
  let key ← Act.lift (content_id_fs_key content_id)
  Disk.mkdirParents dest_cas
  Disk.writeAt (dest_cas ++ [key.toList]) blob

def copyBlobs (dest_cas : Path) : List String → Act Unit
  | [] => pure ()
  | content_id :: content_ids => do
      copy_blob dest_cas content_id
      copyBlobs dest_cas content_ids

/-- `json.dumps(value, indent=2) + '\n'`, as it is written. -/
def document (value : Fields) : Bytes :=
  Utf8.encodeAscii (Json.dumps .indented (.obj value) ++ ['\n'])

def optionText : Option String → Json
  | some text => .str text
  | none => .null

/-- The document `result.json`. -/
def result (bom_response bom invoice : Fields) (invoice_id : String) :
    Fields :=
  [("content_id", (Fields.get? bom_response "content_id").getD .null),
    ("invoice_content_id", .str invoice_id),
    ("invoice_uri", optionText (ref_uri bom "invoice")),
    ("data_uri", optionText (ref_uri bom "data" <|> ref_uri invoice "data")),
    ("order_uri", optionText (ref_uri bom "order" <|> ref_uri invoice "order"))]

/-- A file of the result directory. -/
def fileOf (dest : Path) (name : String) : Path := dest ++ [name.toList]

/-- `invoice.json`, `bom.json` and `result.json`. -/
def writeDocuments (dest : Path) (bom_response bom invoice : Fields)
    (invoice_id : String) : Act Unit := do
  Disk.writeAt (fileOf dest "invoice.json") (document invoice)
  Disk.writeAt (fileOf dest "bom.json") (document bom)
  Disk.writeAt (fileOf dest "result.json")
    (document (result bom_response bom invoice invoice_id))

/-- `bom_response.get('bom')`. -/
def signedBom (bom_response : Fields) : Except Raised Fields :=
  match Fields.get? bom_response "bom" with
  | some (.obj bom) => .ok bom
  | _ => .error (.runtimeError "bom_response is missing signed bom")

/-- The Invoice the BOM cites: its id and the object in its blob. -/
def citedInvoice (bom : Fields) : Act (String × Fields) := do
  let named ← Act.withIndex fun index => ref_content_id index bom "invoice"
  match named.filter (· ≠ "") with
  | none => throw (.runtimeError "signed BOM missing invoice_uri")
  | some invoice_id => do
      let invoice_blob ← blobOf invoice_id
      let text ← Act.lift (readText invoice_blob)
      let invoice ← Act.lift (loadText text)
      match invoice with
      | .obj invoice => pure (invoice_id, invoice)
      | _ => throw (.runtimeError
          s!"Invoice {invoice_id} is not a JSON object")

/-- `write_job_result(bom_response, cats_home=cats_home,
result_dir=result_dir)`. -/
def write_job_result (host : Host) (cats_home : String)
    (bom_response : Fields) (result_dir : Option String) : Act Path := do
  let bom ← Act.lift (signedBom bom_response)
  let dest ← Act.lift (resolve_result_dir host cats_home result_dir)
  Disk.mkdirParents dest
  let (invoice_id, invoice) ← citedInvoice bom
  let found ← cited_content_ids bom_response bom invoice invoice_id
  copyBlobs (fileOf dest "cas") found
  writeDocuments dest bom_response bom invoice invoice_id
  pure dest

end JobResult

end Cats
