import Cats.Mesh.Enhanced

/-!
# The data stages of an Invoice

An Invoice cites its stages through a `data_stages` document, or, when that
cannot be read, in fields of its own.  The `data` slot of the Invoice is the
egress of record.
-/

namespace Cats

/-- What `resolve_invoice_data_stages` returns. -/
structure DataStages where
  ingress_data_id : Option String := none
  integration_data_id : Option String := none
  egress_data_id : Option String := none
  ingress_data_uri : Option String := none
  integration_data_uri : Option String := none
  egress_data_uri : Option String := none
  data_stages_id : Option String := none
  data_stages_uri : Option String := none
  deriving DecidableEq

/-- `first or second`, of a locator or id that may be missing. -/
def idOr (first second : Option String) : Option String :=
  match first with
  | some text => if text = "" then second else some text
  | none => second

namespace ContentMesh

variable (net : Network)

/-- A step inside `try … except Exception`. -/
def attempt {α : Type} (action : Act α) : Act (Option α) :=
  tryCatch (do let value ← action; pure (some value)) fun _ => pure none

/-- `ref_id(fields, stem, cats_home=cats_home)`. -/
def refId (fields : Fields) (stem : String) : Act (Option String) :=
  Act.withIndex fun index => ref_id index fields stem

/-- The stages a `data_stages` document cites. -/
def nestedStages (nest : Fields) (stages : DataStages) : Act DataStages := do
  let ingress_data_id ← refId nest "ingressed_data"
  let integration_data_id ← refId nest "integrated_data"
  let egress_data_id ← refId nest "egressed_data"
  pure { stages with
    ingress_data_uri := ref_uri nest "ingressed_data"
    integration_data_uri := ref_uri nest "integrated_data"
    egress_data_uri := ref_uri nest "egressed_data"
    ingress_data_id := ingress_data_id
    integration_data_id := integration_data_id
    egress_data_id := egress_data_id }

/-- The stages the Invoice's own fields cite. -/
def flatStages (invoice : Fields) (stages : DataStages) : Act DataStages := do
  let ingress_data_id ← refId invoice "ingress_data"
  let integration_data_id ← refId invoice "integration_data"
  pure { stages with
    ingress_data_uri := ref_uri invoice "ingress_data"
    integration_data_uri := ref_uri invoice "integration_data"
    ingress_data_id := ingress_data_id
    integration_data_id := integration_data_id }

/-- `resolve_invoice_data_stages(invoice, content_mesh=self)`. -/
def resolve_invoice_data_stages (invoice : Fields) : Act DataStages := do
  let data_stages_uri := ref_uri invoice "data_stages"
  let data_stages_id ← refId invoice "data_stages"
  let nest ←
    match idOr data_stages_uri data_stages_id with
    | some locator =>
        if locator = "" then pure none
        else attempt (catDocument net locator)
    | none => pure none
  let start : DataStages :=
    { data_stages_id := data_stages_id
      data_stages_uri := data_stages_uri }
  let stages ←
    match nest with
    | some (.obj fields) => nestedStages fields start
    | _ => flatStages invoice start
  let egress_id ← refId invoice "data"
  pure { stages with
    egress_data_uri := (ref_uri invoice "data").or stages.egress_data_uri
    egress_data_id := idOr egress_id stages.egress_data_id }

end ContentMesh

end Cats
