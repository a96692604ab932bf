import Cats.Feedback.DataIntegrity

/-!
# The signed envelope of an execution

The envelope names the Node that signs it and carries the Data Integrity
context, and is then signed as any document is.
-/

namespace Cats

/-- The JSON-LD context of an envelope built here. -/
def EXECUTION_BOM_CONTEXT : List Json :=
  [.str "https://www.w3.org/ns/prov#",
   .obj [("cats", .str "https://dynamicalsystemsgroup.github.io/cats/ns#"),
     ("invoice_uri", .str "cats:invoice_uri"),
     ("log_uri", .str "cats:log_uri"),
     ("node_did", .str "cats:node_did"),
     ("stageLineage", .str "cats:stageLineage"),
     ("contentId", .str "cats:contentId")]]

def attach_node_did (package : Fields) (node_did : String) : Fields :=
  package.set "node_did" (.str node_did)

/-- The envelope with its Node named, unless it already names another. -/
def attributed (bom : Fields) (did : String) : Except Raised Fields :=
  match bom.get? "node_did" with
  | none | some .null =>
      .ok ((attach_node_did bom did).set "prov:wasAttributedTo"
        (.obj [("@id", .str did)]))
  | some node =>
      if node = .str did then .ok bom
      else .error (.valueError
        s!"bom.node_did ({node.repr}) does not match signing DID ({Text.repr did})")

/-- The envelope under a context that has the Data Integrity terms. -/
def withIntegrityContext (bom : Fields) : Fields :=
  match bom.get? "@context" with
  | some (.arr items) =>
      if items.contains (.str DATA_INTEGRITY_CONTEXT) then bom
      else bom.set "@context" (.arr (items ++ [.str DATA_INTEGRITY_CONTEXT]))
  | none | some .null =>
      bom.set "@context"
        (.arr (EXECUTION_BOM_CONTEXT ++ [.str DATA_INTEGRITY_CONTEXT]))
  | some other =>
      bom.set "@context" (.arr [other, .str DATA_INTEGRITY_CONTEXT])

/-- `sign_execution_bom`; `material` is what `load_node_signing_material`
returns. -/
def sign_execution_bom (scheme : Ed25519) (jcs : Canonicalization)
    (bom : Fields) (material : Except Raised (String × scheme.PrivateKey))
    (now : String) : Except Raised Fields := do
  let (did, private_key) ← material
  let named ← attributed bom did
  let method ← did_key_verification_method did
  sign_document scheme jcs (withIntegrityContext named) private_key method
    none now

def verify_execution_bom (scheme : Ed25519) (jcs : Canonicalization)
    (bom : Fields) : Except Raised Unit :=
  verify_document scheme jcs bom

end Cats
