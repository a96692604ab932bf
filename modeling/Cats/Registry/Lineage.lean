import Cats.Cas.CodecLaws
import Cats.Registry.RefFrame

/-!
# Lineage checks

Two Orders are checked for a Function and a Structure that are carried over or
mutated, and two Invoices for the same data.
-/

namespace Cats

namespace Lineage

/-- `PairingMode`. -/
inductive PairingMode where
  | mutated
  | carried
  deriving DecidableEq

/-- `_require_stem_id(obj, stem, label=label)`. -/
def require_stem_id (obj : Json) (stem label : String) :
    Except Raised String :=
  match obj with
  | .obj fields => do
      let (value, _) ← ref_id none fields stem
      match value.filter (· ≠ "") with
      | none => .error (.assertionError s!"{label} missing {stem} ref")
      | some value => equality_id value
  | other => .error (.assertionError
      s!"{label} is not a JSON object: {other.typeName}")

/-- `_assert_pairing(prior_id, next_id, mode=mode, label=label)`. -/
def assert_pairing (prior_id next_id : String) (mode : PairingMode)
    (label : String) : Except Raised Unit :=
  match mode with
  | .mutated =>
      if prior_id = next_id then
        .error (.assertionError
          s!"{label} should be mutated; both {Text.repr prior_id}")
      else .ok ()
  | .carried =>
      if prior_id ≠ next_id then
        .error (.assertionError (s!"{label} should be carried; " ++
          s!"{Text.repr prior_id} != {Text.repr next_id}"))
      else .ok ()

/-- What `assert_order_pairing_lineage` returns. -/
structure PairingIds where
  function_0 : String
  function_1 : String
  structure_0 : String
  structure_1 : String

/-- `assert_order_pairing_lineage(prior_order, next_order, …)`. -/
def assert_order_pairing_lineage (prior_order next_order : Json)
    (function pairing : PairingMode) : Except Raised PairingIds := do
  let fn0 ← require_stem_id prior_order "function" "prior Order"
  let fn1 ← require_stem_id next_order "function" "next Order"
  let st0 ← require_stem_id prior_order "structure" "prior Order"
  let st1 ← require_stem_id next_order "structure" "next Order"
  assert_pairing fn0 fn1 function "Function"
  assert_pairing st0 st1 pairing "Structure"
  .ok ⟨fn0, fn1, st0, st1⟩

/-- `assert_invoice_data_chain(prior_output_invoice, next_input_invoice)`. -/
def assert_invoice_data_chain (prior_output_invoice next_input_invoice : Json) :
    Except Raised (String × String) := do
  let prior ← require_stem_id prior_output_invoice "data" "prior output Invoice"
  let nxt ← require_stem_id next_input_invoice "data" "next input Invoice"
  if prior ≠ nxt then
    .error (.assertionError (s!"next input Invoice data {Text.repr nxt} != " ++
      s!"prior output data {Text.repr prior}"))
  else .ok (prior, nxt)

section Checks

variable {fields : Fields} {stem label : String} {id : ContentId}

theorem require_stem_id_names (names : Names fields stem id) :
    require_stem_id (.obj fields) stem label = .ok id.text := by
  have given : (some id.text).filter (· ≠ "") = some id.text := by
    simp [id.text_ne_empty]
  simp only [require_stem_id, names none, bind, Except.bind, given]
  exact equality_id_of_spells (ContentId.spells_text id)

/-- A mode is that of two ids when they agree exactly if it is to carry. -/
def PairingMode.Fits (mode : PairingMode) (prior next : ContentId) : Prop :=
  mode = .carried ↔ prior = next

theorem assert_pairing_ok_iff {prior next : ContentId} {mode : PairingMode} :
    assert_pairing prior.text next.text mode label = .ok () ↔
      mode.Fits prior next := by
  unfold assert_pairing PairingMode.Fits
  by_cases same : prior = next
  · subst same
    cases mode with
    | mutated => simp
    | carried => simp
  · have differ : prior.text ≠ next.text := fun texts =>
      same (ContentId.text_injective texts)
    cases mode with
    | mutated => simp [same, differ]
    | carried => simp [same, differ]

theorem assert_order_pairing_lineage_ok_iff {prior next : Fields}
    {function function' paired paired' : ContentId}
    (names : Names prior "function" function)
    (names' : Names next "function" function')
    (pairs : Names prior "structure" paired)
    (pairs' : Names next "structure" paired') {mode pairing : PairingMode} :
    assert_order_pairing_lineage (.obj prior) (.obj next) mode pairing =
        .ok ⟨function.text, function'.text, paired.text, paired'.text⟩ ↔
      mode.Fits function function' ∧ pairing.Fits paired paired' := by
  rw [← @assert_pairing_ok_iff "Function", ← @assert_pairing_ok_iff "Structure"]
  simp only [assert_order_pairing_lineage, require_stem_id_names names,
    require_stem_id_names names', require_stem_id_names pairs,
    require_stem_id_names pairs', bind, Except.bind]
  cases assert_pairing function.text function'.text mode "Function" with
  | error raised => simp
  | ok _ =>
      cases assert_pairing paired.text paired'.text pairing "Structure" with
      | error raised => simp
      | ok _ => simp

theorem assert_invoice_data_chain_names {prior next : Fields} {data : ContentId}
    (names : Names prior "data" data) (names' : Names next "data" data) :
    assert_invoice_data_chain (.obj prior) (.obj next) =
      .ok (data.text, data.text) := by
  simp [assert_invoice_data_chain, require_stem_id_names names,
    require_stem_id_names names', bind, Except.bind]

end Checks

end Lineage

end Cats
