import Cats.Cas.ContentId
import Cats.Cas.Locators
import Cats.Codec.JsonSort

/-!
# The BOM registry

Three families of files: one record per BOM, and for each data id and each
Order id the list of the BOMs that name it, newest first.  A put writes the
three one after the other; a lookup reads one of them.
-/

namespace Cats

/-- What a registry lookup raises. -/
inductive RegistryError where
  | missing (text : String)
  | ambiguous (key : String) (bom_ids : List String)
  | other (raised : Raised)
  deriving DecidableEq

/-- A file of `boms/`. -/
structure BomFile where
  stem : String
  mtime : Int
  data : Bytes
  deriving DecidableEq

/-- The two directories of reverse indexes. -/
inductive IndexDir where
  | by_data
  | by_order
  deriving DecidableEq

/-- The files under `.cats/registry/`; `boms/` in listing order. -/
structure BomRegistry where
  boms : List BomFile
  lists : IndexDir → String → Option Bytes

namespace BomRegistry

def empty : BomRegistry := { boms := [], lists := fun _ _ => none }

/-- `record.get(name) or record.get(legacy)`, stripped, when it is text. -/
def recordId (record : Fields) (name legacy : String) : Option String :=
  let first := record.get? name
  let value := if (first.map Json.truthy).getD false then first
    else record.get? legacy
  match value with
  | some (.str id) => if Text.strip id = "" then none else some (Text.strip id)
  | _ => none

/-- `_record_bom_id(record)`. -/
def record_bom_id (record : Fields) : Option String :=
  recordId record "content_id" "bom_cid"

/-- `_record_order_id(record)`. -/
def record_order_id (record : Fields) : Option String :=
  recordId record "order" "order_cid"

/-- `_record_data_id(record)`. -/
def record_data_id (record : Fields) : Option String :=
  recordId record "data" "data_cid"

/-- The keys a stored record does not keep. -/
def legacyKeys : List String :=
  ["bom_cid", "invoice_cid", "order_cid", "data_cid", "input_data_cid",
    "function_cid", "structure_cid", "ingress_data_cid",
    "integration_data_cid", "seed_cid", "runtime_sbom_cid"]

/-- `_read_list(path)`, of the file's bytes. -/
def read_list (file : Option Bytes) : Except Raised (List String) :=
  match file with
  | none => .ok []
  | some data => do
      let value ← readJson data
      match value with
      | .arr items => .ok (items.map Json.toStr)
      | _ => .ok []

/-- `(json.dumps(ids, indent=2) + '\n').encode('utf-8')`. -/
def listDocument (ids : List String) : Bytes :=
  Utf8.encodeAscii (Json.dumps .indented (.arr (ids.map .str)) ++ ['\n'])

/-- `path.write_text(…)` in an index directory. -/
def writeList (registry : BomRegistry) (dir : IndexDir) (key : String)
    (data : Bytes) : BomRegistry :=
  { registry with lists := fun other name =>
      if other = dir ∧ name = key then some data
      else registry.lists other name }

/-- `path.write_text(…)` in `boms/`: replace the file, or add it to the
listing. -/
def writeBom (file : BomFile) : List BomFile → List BomFile
  | [] => [file]
  | other :: rest =>
      if other.stem = file.stem then file :: rest
      else other :: writeBom file rest

def file? (boms : List BomFile) (stem : String) : Option Bytes :=
  (boms.find? fun file => file.stem = stem).map BomFile.data

section Writing

/-- A step that only raises or returns. -/
def lift {α : Type} (result : Except Raised α) :
    Effect Raised BomRegistry α :=
  match result with
  | .ok value => pure value
  | .error raised => throw raised

@[simp] theorem lift_ok {α : Type} (value : α) : lift (.ok value) = pure value :=
  rfl

/-- `_append_index(path, bom_id)`. -/
def append_index (dir : IndexDir) (key bom_id : String) :
    Effect Raised BomRegistry Unit := do
  let registry ← get
  let existing ← lift (read_list (registry.lists dir key))
  if existing.contains bom_id then pure ()
  else modify fun registry =>
    registry.writeList dir key (listDocument (bom_id :: existing))

/-- The record `put` writes. -/
def storedRecord (record : Fields) (bom_id order_id data_id : String) :
    Fields :=
  (((legacyKeys.foldl Fields.erase record).set "content_id" (.str bom_id)).set
    "order" (.str order_id)).set "data" (.str data_id)

/-- `put(record)` at a time of the clock; the stem of the file written. -/
def put (record : Fields) (now : Int) : Effect Raised BomRegistry String := do
  let bom_id ← lift
    (normalize_content_id ((record_bom_id record).getD "") "content_id")
  let order_id ← lift
    (normalize_content_id ((record_order_id record).getD "") "order")
  let data_id ← lift
    (normalize_content_id ((record_data_id record).getD "") "data")
  let stem ← lift (content_id_fs_key bom_id "content_id")
  modify fun registry => { registry with
    boms := writeBom
      { stem := stem
        mtime := now
        data := sortedDocument
          (.obj (storedRecord record bom_id order_id data_id)) }
      registry.boms }
  let dataKey ← lift (content_id_fs_key data_id "data")
  append_index .by_data dataKey bom_id
  let orderKey ← lift (content_id_fs_key order_id "order")
  append_index .by_order orderKey bom_id
  pure stem

end Writing

section Reading

variable (registry : BomRegistry)

/-- `get(content_id)`. -/
def get (content_id : String) : Except Raised (Option Json) := do
  let key ← content_id_fs_key content_id "content_id"
  match file? registry.boms key with
  | none => .ok none
  | some data => (readJson data).map some

/-- `lookup_order(content_id)`. -/
def lookup_order (content_id : String) : Except Raised (Option String) := do
  let found ← registry.get content_id
  match found with
  | none => .ok none
  | some record => (record.mapping).map record_order_id

/-- `lookup_bom(data_id)`. -/
def lookup_bom (data_id : String) : Except Raised (List String) := do
  let key ← content_id_fs_key data_id "data"
  read_list (registry.lists .by_data key)

/-- `lookup_by_order(order_id)`. -/
def lookup_by_order (order_id : String) : Except Raised (List String) := do
  let key ← content_id_fs_key order_id "order"
  read_list (registry.lists .by_order key)

/-- The BOM id of one listed file: `_record_bom_id(record) or stem`. -/
def listedId (file : BomFile) : Except Raised String := do
  let record ← readJson file.data
  let fields ← record.mapping
  .ok ((record_bom_id fields).getD file.stem)

/-- `list_boms()`. -/
def list_boms : Except Raised (List String) :=
  (registry.boms.mergeSort fun left right =>
    decide (right.mtime ≤ left.mtime)).mapM listedId

/-- `resolve_unique_bom(data_id)`. -/
def resolve_unique_bom (data_id : String) : Except RegistryError String :=
  match registry.lookup_bom data_id with
  | .error raised => .error (.other raised)
  | .ok [] => .error (.missing s!"no BOM for data={Text.repr data_id}")
  | .ok [bom_id] => .ok bom_id
  | .ok bom_ids => .error (.ambiguous data_id bom_ids)

end Reading

end BomRegistry

end Cats
