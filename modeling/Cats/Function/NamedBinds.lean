import Cats.Cas.ContentRef
import Cats.Effect
import Cats.Ldp.Routes

/-!
# Named binds

A slot of a Function holds a named bind, which says in which module of which
source package the callable stands, or a pickle.  A named bind is resolved by
importing the module into the one interpreter of the Node.
-/

namespace Cats

/-- `named_bind_payload(source_content_id, module, qualname)`. -/
def named_bind_payload (source_content_id module_name qualname base_url :
    String) : Except Raised Fields := do
  let eid ←
    if is_ni_or_digest source_content_id then equality_id source_content_id
    else .ok (Text.strip source_content_id)
  let payload : Fields := [("contentId", .str eid), ("module", .str module_name),
    ("qualname", .str qualname)]
  let uri ← content_uri eid base_url
  match uri.filter (· ≠ "") with
  | some uri => .ok (payload.set "source_uri" (.str uri))
  | none => .ok payload

/-- A text field that is not blank, stripped. -/
def givenField (spec : Fields) (key : String) : Option String :=
  match Fields.get? spec key with
  | some (.str value) =>
      if Text.strip value = "" then none else some (Text.strip value)
  | _ => none

/-- `named_bind_source_id(spec)`. -/
def named_bind_source_id (spec : Fields) : Except Raised (Option String) :=
  match givenField spec "contentId" with
  | some value => (equalityOr value).map some
  | none =>
      match givenField spec "source_cid" with
      | some value => (equalityOr value).map some
      | none =>
          match givenField spec "source_uri" with
          | some uri => content_id_from_uri none uri
          | none => .ok none

/-- A text field that is not empty. -/
def filledField (spec : Fields) (key : String) : Option String :=
  match Fields.get? spec key with
  | some (.str value) => if value = "" then none else some value
  | _ => none

/-- A named bind: the id of its source package, the module and the name. -/
structure NamedBind where
  source_id : String
  module_name : String
  qualname : String
  deriving DecidableEq

/-- The refusal of a bind that names another package. -/
def NamedBind.mismatch (bind : NamedBind) (expected_id : String) : Raised :=
  .runtimeError (s!"named bind source {Text.repr bind.source_id} does not " ++
    s!"match Order package id {Text.repr expected_id} " ++
    s!"(module={Text.repr bind.module_name}, " ++
    s!"qualname={Text.repr bind.qualname})")

/-- `parse_named_bind_leaf(raw)`, with the id of the source package. -/
def parse_named_bind_leaf (raw : Bytes) : Except Raised (Option NamedBind) :=
  match readText raw >>= loadText with
  | .error _ => .ok none
  | .ok (.obj spec) =>
      match filledField spec "module", filledField spec "qualname" with
      | some module_name, some qualname => do
          let source ← named_bind_source_id spec
          .ok (source.map fun source_id => ⟨source_id, module_name, qualname⟩)
      | _, _ => .ok none
  | .ok _ => .ok none

/-- The modules an interpreter has imported, where it looks for others, and
what it would find there. -/
structure Interpreter (Obj : Type) where
  modules : String → Option Obj
  path : List String
  files : String → String → Option Obj

namespace Interpreter

variable {Obj : Type}

/-- What the first entry that has the module holds. -/
def look (path : List String) (files : String → String → Option Obj)
    (name : String) : Option Obj :=
  path.findSome? fun entry => files entry name

/-- `sys.path.insert(0, entry)`, unless the entry is there. -/
def inserted (entry : String) (path : List String) : List String :=
  if path.contains entry then path else entry :: path

/-- The search path once `CATS_HOME`, when there is one, is on it. -/
def withHome (cats_home : Option String) (path : List String) : List String :=
  match cats_home.filter (· ≠ "") with
  | some home => inserted home path
  | none => path

end Interpreter

/-- What `resolve_subproc` returns. -/
inductive Resolved (Obj : Type) where
  | pickled (raw : Bytes)
  | bound (target : Obj)

section Resolving

variable {Obj : Type} (getattr : Obj → String → Option Obj)

/-- `for part in qualname.split('.'): target = getattr(target, part)`. -/
def namedAttribute (module_object : Obj) (qualname : String) : Option Obj :=
  ((Text.splitOn '.' qualname.toList).map String.ofList).foldlM getattr
    module_object

/-- `importlib.import_module(name)`; `none` is an `ImportError`. -/
def import_module (name : String) :
    Effect Raised (Interpreter Obj) (Option Obj) := do
  let interpreter ← get
  match interpreter.modules name with
  | some found => pure (some found)
  | none =>
      match Interpreter.look interpreter.path interpreter.files name with
      | some found => do
          modify fun interpreter =>
            { interpreter with
              modules := Function.update interpreter.modules name (some found) }
          pure (some found)
      | none => pure none

/-- The part of `resolve_subproc` that imports the module and reads the name
off it. -/
def bindTarget (cats_home : Option String) (bind : NamedBind) :
    Effect Raised (Interpreter Obj) Obj := do
  modify fun interpreter =>
    { interpreter with
      path := Interpreter.withHome cats_home interpreter.path }
  let imported ← import_module bind.module_name
  match imported with
  | none => throw (.runtimeError ("named bind failed to import module " ++
      Text.repr bind.module_name))
  | some module_object =>
      match namedAttribute getattr module_object bind.qualname with
      | some target => pure target
      | none => throw (.runtimeError (s!"named bind qualname " ++
          s!"{Text.repr bind.qualname} not found on module " ++
          s!"{Text.repr bind.module_name}"))

/-- A computation that only raises or returns. -/
def returning {α : Type} (result : Except Raised α) :
    Effect Raised (Interpreter Obj) α :=
  match result with
  | .ok value => pure value
  | .error raised => throw raised

/-- `resolve_subproc(slot_id, expected_source_id=…)`, of the leaf the slot
holds. -/
def resolve_subproc (cats_home : Option String) (raw : Bytes)
    (expected_source_id : String) :
    Effect Raised (Interpreter Obj) (Resolved Obj) := do
  let spec ← returning (parse_named_bind_leaf raw)
  match spec with
  | none => pure (.pickled raw)
  | some bind => do
      let expected_id ← returning (equality_id expected_source_id)
      if bind.source_id ≠ expected_id then
        throw (bind.mismatch expected_id)
      else do
        let target ← bindTarget getattr cats_home bind
        pure (.bound target)

end Resolving

end Cats
