import Cats.Interleaving
import Cats.Plant.JobResult

/-!
# Entity relationships

The durable bucket keeps the objects of a relationship below
`structures/<id>/er/<name>` and for each name a pointer to the structure that is
current.  Objects are put one at a time, a pointer is put at once, and garbage
collection lists the pointers, lists the structures, and deletes what no pointer
named, in steps that other calls may come between.
-/

namespace Cats

namespace ObjStore

/-- The objects of the durable bucket by key, in the order they are listed. -/
structure Durable where
  objects : List (String × Bytes)

namespace Durable

def empty : Durable := { objects := [] }

def object? (bucket : Durable) (key : String) : Option Bytes :=
  (bucket.objects.find? fun object => object.1 = key).map Prod.snd

/-- `open_output_stream(key)`, written and closed. -/
def put (bucket : Durable) (key : String) (data : Bytes) : Durable :=
  { objects := LocatorIndex.write bucket.objects key data }

/-- The keys of the files below a path. -/
def below (bucket : Durable) (base : String) : List String :=
  (bucket.objects.map Prod.fst).filter fun key =>
    Text.startsWith key (base ++ "/")

/-- A key from a path above it. -/
def relative (base key : String) : List Char :=
  key.toList.drop (base ++ "/").toList.length

/-- The names of what lies directly below a path. -/
def children (bucket : Durable) (base : String) : List String :=
  (bucket.below base).map fun key =>
    String.ofList ((relative base key).takeWhile (· ≠ '/'))

/-- The directories between a path and a file below it. -/
def directories (base key : String) : List String :=
  let text := relative base key
  ((List.range text.length).filter fun place => text[place]? = some '/').map
    fun place => base ++ "/" ++ String.ofList (text.take place)

def delete_file (bucket : Durable) (key : String) : Durable :=
  { objects := bucket.objects.filter fun object => object.1 ≠ key }

/-- `delete_dir(path)`: a directory is deleted with its contents. -/
def delete_dir (bucket : Durable) (path : String) : Durable :=
  { objects := bucket.objects.filter fun object =>
      !Text.startsWith object.1 (path ++ "/") }

end Durable

/-- `ER_STRUCTURES_PREFIX`. -/
def erStructuresPrefix : String := "structures"

/-- `ER_CURRENT_PREFIX`. -/
def erCurrentPrefix : String := "er/current"

/-- `_validate_structure_id(structure_id)`; `_SAFE_CID_RE` accepts what
`_SAFE_NAME_RE` does. -/
def validate_structure_id (structure_id : String) : Except Raised Unit :=
  if isSafeName structure_id then .ok ()
  else .error (.valueError "invalid structure_id")

/-- `_validate_er_name(name)`. -/
def validate_er_name (name : String) : Except Raised Unit :=
  if isSafeName name then .ok () else .error (.valueError "invalid er name")

/-- `f'{ER_STRUCTURES_PREFIX}/{structure_id}'`. -/
def structurePath (structure_id : String) : String :=
  erStructuresPrefix ++ "/" ++ structure_id

/-- `_er_prefix(structure_id, name)`. -/
def er_prefix (structure_id name : String) : Except Raised String := do
  validate_structure_id structure_id
  validate_er_name name
  .ok (structurePath structure_id ++ "/er/" ++ name)

/-- `_er_uri(config, structure_id, name)`. -/
def er_uri (bucket structure_id name : String) : Except Raised String := do
  let path ← er_prefix structure_id name
  .ok ("s3://" ++ bucket ++ "/" ++ path)

/-- `_pointer_key(name)`. -/
def pointer_key (name : String) : Except Raised String := do
  validate_er_name name
  .ok (erCurrentPrefix ++ "/" ++ name)

/-- The pointer `promote_er_pointer` writes. -/
def pointer (uri structure_id name : String) : Json :=
  .obj [("uri", .str uri), ("structure_id", .str structure_id),
    ("name", .str name)]

/-- `json.dumps(pointer, separators=(',', ':')).encode('utf-8')`. -/
def pointerPayload (uri structure_id name : String) : Bytes :=
  Utf8.encodeAscii (Json.dumps .compact (pointer uri structure_id name))

/-- `_pointer_structure_id(ptr)`. -/
def pointer_structure_id (ptr : Json) : Except Raised (Option Json) := do
  let value ← ptr.getKey "structure_id"
  if (value.map Json.truthy).getD false then .ok value
  else ptr.getKey "structure_cid"

/-- `resolve_er_pointer(config, name)`. -/
def resolve_er_pointer (store : Durable) (name : String) :
    Except Raised (Option Json) := do
  let key ← pointer_key name
  match store.object? key with
  | none => .ok none
  | some data => (readJson data).map some

/-- `list_er_current_pointers(config)`. -/
def list_er_current_pointers (store : Durable) : Except Raised Fields :=
  ((store.objects.filter fun object =>
      Text.startsWith object.1 (erCurrentPrefix ++ "/")).filter fun object =>
        !(Durable.relative erCurrentPrefix object.1).contains '/' &&
          isSafeName (String.ofList
            (Durable.relative erCurrentPrefix object.1))).mapM fun object => do
    let ptr ← readJson object.2
    .ok (String.ofList (Durable.relative erCurrentPrefix object.1), ptr)

/-- `list_structure_ids(config)`. -/
def list_structure_ids (store : Durable) : List String :=
  RayCompute.sortedNames
    ((store.children erStructuresPrefix).filter isSafeName).dedup

/-- The ids the pointers name, those that are falsy left out. -/
def referencedIds (pointers : Fields) : Except Raised (List Json) := do
  let ids ← pointers.mapM fun field => pointer_structure_id field.2
  .ok ((ids.filterMap id).filter Json.truthy)

/-- The names of the pointers to a structure. -/
def pointingNames (structure_id : String) :
    Fields → Except Raised (List String)
  | [] => .ok []
  | (name, ptr) :: pointers => do
      let id ← pointer_structure_id ptr
      let names ← pointingNames structure_id pointers
      .ok (if id = some (.str structure_id) then name :: names else names)

/-- What is left to do of the deletions of a collection. -/
inductive Deletion where
  | prefix_list (structure_id : String)
  | file (key : String)
  | dir (path : String)
  | pointer (name : String)
  deriving DecidableEq

/-- The deletions `_delete_prefix` makes once it has listed the prefix. -/
def prefixDeletions (store : Durable) (structure_id : String) : List Deletion :=
  let base := Text.rstripSlash (structurePath structure_id)
  let files := store.below base
  if files = [] then []
  else files.map .file ++
    (((files.flatMap (Durable.directories base)).dedup.mergeSort
      fun left right => decide (right.length ≤ left.length)).map .dir ++
        [.dir base])

/-- A call on the durable bucket. -/
inductive ErCall where
  | write (structure_id name : String) (files : List (String × Bytes))
  | promote (structure_id name : String)
  | gc (delete : Bool) (structure_id : Option String) (force : Bool)

/-- How far a call has come. -/
inductive ErThread where
  | writing (objects : List (String × Bytes))
  | promoting (uri structure_id name : String)
  | starting (delete : Bool) (structure_id : Option String) (force : Bool)
  | sweeping (delete : Bool) (referenced : List Json)
  | deleting (candidates : List String) (deletions : List Deletion)
  | finished

/-- What a step does that others can tell. -/
inductive ErEvent where
  | put (key : String)
  | promoted (structure_id name : String)
  | collecting

namespace ErThread

/-- A call before its first step; one that raises on its arguments has none. -/
def start (bucket : String) : ErCall → ErThread
  | .write structure_id name files =>
      match er_prefix structure_id name with
      | .error _ => .finished
      | .ok path => .writing (files.map fun file =>
          (path ++ "/" ++ file.1, file.2))
  | .promote structure_id name =>
      match er_uri bucket structure_id name with
      | .error _ => .finished
      | .ok uri => .promoting uri structure_id name
  | .gc delete structure_id force => .starting delete structure_id force

/-- `gc_er_prefixes` from its listing of the pointers on. -/
def listed (pointers : Fields) (delete : Bool) (structure_id : Option String)
    (force : Bool) : Except Raised ErThread := do
  let referenced ← referencedIds pointers
  match structure_id with
  | none => .ok (.sweeping delete referenced)
  | some structure_id => do
      validate_structure_id structure_id
      let pointing ← pointingNames structure_id pointers
      if pointing ≠ [] ∧ force = false then
        .error ⟨.runtimeError, "structure_id " ++ Text.repr structure_id ++
          " is referenced by er/current pointers: " ++
          Json.repr (.arr ((RayCompute.sortedNames pointing).map .str)) ++
          "; pass force=True to clear pointers and delete"⟩
      else if delete then
        .ok (.deleting [structure_id]
          ((if force then pointing.map .pointer else []) ++
            [.prefix_list structure_id]))
      else .ok (.deleting [structure_id] [])

/-- One deletion; `delete_file` raises on a file that is gone. -/
def delete (store : Durable) (candidates : List String)
    (deletions : List Deletion) : Deletion → ErThread × Durable
  | .prefix_list structure_id =>
      (.deleting candidates (prefixDeletions store structure_id ++ deletions),
        store)
  | .file key =>
      if (store.object? key).isSome then
        (.deleting candidates deletions, store.delete_file key)
      else (.finished, store)
  | .dir path => (.deleting candidates deletions, store.delete_dir path)
  | .pointer name =>
      (.deleting candidates deletions,
        store.delete_file (erCurrentPrefix ++ "/" ++ name))

/-- One step of a call. -/
def step (thread : ErThread) (store : Durable) :
    Option (ErEvent × ErThread × Durable) :=
  match thread with
  | .writing [] => none
  | .writing ((key, data) :: objects) =>
      some (.put key, .writing objects, store.put key data)
  | .promoting uri structure_id name =>
      match pointer_key name with
      | .error _ => none
      | .ok key => some (.promoted structure_id name, .finished,
          store.put key (pointerPayload uri structure_id name))
  | .starting delete structure_id force =>
      match list_er_current_pointers store with
      | .error _ => some (.collecting, .finished, store)
      | .ok pointers =>
          match listed pointers delete structure_id force with
          | .error _ => some (.collecting, .finished, store)
          | .ok thread => some (.collecting, thread, store)
  | .sweeping delete referenced =>
      let candidates := (list_structure_ids store).filter fun id =>
        !referenced.contains (.str id)
      some (.collecting, .deleting candidates
        (if delete then candidates.map .prefix_list else []), store)
  | .deleting _ [] => none
  | .deleting candidates (deletion :: deletions) =>
      let (thread, after) := ErThread.delete store candidates deletions deletion
      some (.collecting, thread, after)
  | .finished => none

end ErThread

abbrev ErCalls : Type := Pool ErThread Durable ErEvent

/-- The calls on a bucket that was empty, their steps in the order of the
schedule. -/
def erRun (bucket : String) (calls : List ErCall) (schedule : List Nat) :
    ErCalls :=
  (Pool.start (calls.map (ErThread.start bucket)) .empty).run ErThread.step
    schedule

end ObjStore

end Cats
