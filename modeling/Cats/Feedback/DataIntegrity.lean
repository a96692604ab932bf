import Cats.Codec.Sha256
import Cats.Identity.NodeDid
import Cats.Python.Equality
import Cats.Python.Value

/-!
# Data Integrity proofs

A document is signed by hashing its canonical text and that of the proof's own
options, and signing the two digests.  Verification rebuilds both from the
signed document: the options are the proof without its value, and the document
is the rest of the object under the proof's `@context`.

The signature scheme and the canonical text of a value are parameters.
-/

namespace Cats

/-- What the program uses of Ed25519. -/
structure Ed25519 where
  PrivateKey : Type
  /-- The raw bytes of the public key that belongs to a private key. -/
  public_bytes : PrivateKey → Bytes
  sign : PrivateKey → Bytes → Bytes
  /-- Whether a raw public key accepts a signature of a message. -/
  verify : Bytes → Bytes → Bytes → Bool

/-- A signature verifies under the public key of the key that made it. -/
def Ed25519.Correct (scheme : Ed25519) : Prop :=
  ∀ (key : scheme.PrivateKey) (message : Bytes),
    scheme.verify (scheme.public_bytes key) (scheme.sign key message) message =
      true

/-- A signature verifies under one key and for one message only. -/
def Ed25519.Binding (scheme : Ed25519) : Prop :=
  ∀ key other signature message otherMessage,
    scheme.verify key signature message = true →
      scheme.verify other signature otherMessage = true →
        key = other ∧ message = otherMessage

/-- `rfc8785.dumps`: the canonical text of a value, where it has one. -/
abbrev Canonicalization := Json → Except Raised Bytes

def CRYPTOSUITE : String := "eddsa-jcs-2022"

def PROOF_TYPE : String := "DataIntegrityProof"

def DATA_INTEGRITY_CONTEXT : String :=
  "https://w3id.org/security/data-integrity/v2"

/-- `_context_list`, of a value that may be missing. -/
def context_list : Option Json → List Json
  | none => []
  | some .null => []
  | some (.arr items) => items
  | some other => [other]

def context_starts_with (document_ctx proof_ctx : Option Json) : Bool :=
  let doc := context_list document_ctx
  let proof := context_list proof_ctx
  if doc.length < proof.length then false
  else Json.pyEq (.arr (doc.take proof.length)) (.arr proof)

/-- The raw public key a did:key verification method spells. -/
def public_key_from_did_key_vm (verification_method : String) :
    Except Raised Bytes := do
  let (did_part, fragment) :=
    (Text.partition? '#' verification_method.toList).getD
      (verification_method.toList, [])
  if ¬ "did:key:".toList.isPrefixOf did_part then
    throw (.valueError ("Unsupported verificationMethod (need did:key): " ++
      Text.repr verification_method))
  let multibase := String.ofList
    (if fragment ≠ [] then fragment else did_part.drop "did:key:".length)
  if ¬ Text.startsWith multibase "z" then
    throw (.valueError ("verificationMethod fragment must be multibase z-…: " ++
      Text.repr verification_method))
  let raw ← multibase_z_decode multibase
  if ¬ ED25519_PUB_PREFIX.isPrefixOf raw then
    throw (.valueError ("verificationMethod is not ed25519-pub multicodec: " ++
      Text.repr verification_method))
  let pub := raw.drop ED25519_PUB_PREFIX.length
  if pub.length ≠ 32 then
    throw (.valueError
      s!"Ed25519 public key must be 32 bytes, got {pub.length}")
  return pub

def hash_data (jcs : Canonicalization) (proof_config unsecured_document : Fields) :
    Except Raised Bytes := do
  let canonical_proof ← jcs (.obj proof_config)
  let canonical_doc ← jcs (.obj unsecured_document)
  return sha256 canonical_proof ++ sha256 canonical_doc

/-- The proof's own fields while it is being signed. -/
def proofOptions (verification_method created : String)
    (context : Option Json) : Fields :=
  [("type", .str PROOF_TYPE), ("cryptosuite", .str CRYPTOSUITE),
    ("created", .str created), ("verificationMethod", .str verification_method),
    ("proofPurpose", .str "assertionMethod")] ++
    (context.map fun value => ("@context", value)).toList

/-- `sign_document`; `now` is the clock, read when no time is given. -/
def sign_document (scheme : Ed25519) (jcs : Canonicalization)
    (document : Fields) (private_key : scheme.PrivateKey)
    (verification_method : String) (created : Option String) (now : String) :
    Except Raised Fields := do
  let unsecured := document.erase "proof"
  let proof_options := proofOptions verification_method
    (match created with
      | some given => if given ≠ "" then given else now
      | none => now)
    (unsecured.get? "@context")
  let hashed ← hash_data jcs proof_options unsecured
  let signature := scheme.sign private_key hashed
  let proof := proof_options ++
    [("proofValue", Json.str (multibase_z_encode signature))]
  return unsecured.set "proof" (.obj proof)

/-- The document a proof was made over: without the proof, under the proof's
`@context` where it has one. -/
def unsecuredUnder (proof_options document : Fields) : Fields :=
  match proof_options.get? "@context" with
  | some context => (document.erase "proof").set "@context" context
  | none => document.erase "proof"

/-- `repr(proof.get(key))`. -/
def reprOption : Option Json → String
  | some value => value.repr
  | none => "None"

def checkContext (proof_options document : Fields) : Except Raised Unit :=
  match proof_options.get? "@context" with
  | some context =>
      if context_starts_with ((document.erase "proof").get? "@context")
        (some context) then .ok ()
      else .error (.valueError
        "Document @context does not start with proof @context")
  | none => .ok ()

/-- `proof['verificationMethod'].partition`, up to the text it is asked of. -/
def verificationMethod (proof : Fields) : Except Raised String :=
  match proof.get? "verificationMethod" with
  | some (.str method) => .ok method
  | some other => .error ⟨.attributeError,
      s!"'{other.typeName}' object has no attribute 'partition'"⟩
  | none => .error ⟨.keyError, "'verificationMethod'"⟩

/-- A proof object of the one kind that is accepted, with its value. -/
def checkProof (proof : Fields) : Except Raised (Fields × String) :=
  if proof.get? "type" ≠ some (.str PROOF_TYPE) then
    .error (.valueError
      ("Unsupported proof type: " ++ reprOption (proof.get? "type")))
  else if proof.get? "cryptosuite" ≠ some (.str CRYPTOSUITE) then
    .error (.valueError
      ("Unsupported cryptosuite: " ++ reprOption (proof.get? "cryptosuite")))
  else
    match proof.get? "proofValue" with
    | some (.str value) =>
        if value = "" then .error (.valueError "proof.proofValue missing")
        else .ok (proof, value)
    | _ => .error (.valueError "proof.proofValue missing")

/-- The proof of a document, once its shape is checked, with its value. -/
def readProof (document : Fields) : Except Raised (Fields × String) :=
  match document.get? "proof" with
  | none => .error (.valueError "Document has no proof")
  | some (.obj proof) => checkProof proof
  | some _ => .error (.valueError "proof must be an object")

def verify_document (scheme : Ed25519) (jcs : Canonicalization)
    (document : Fields) : Except Raised Unit := do
  let (proof, proof_value) ← readProof document
  let proof_options := proof.erase "proofValue"
  checkContext proof_options document
  let hashed ← hash_data jcs proof_options
    (unsecuredUnder proof_options document)
  let signature ← multibase_z_decode proof_value
  let public_key ← public_key_from_did_key_vm (← verificationMethod proof)
  if scheme.verify public_key signature hashed then return ()
  else throw (.valueError "Data Integrity proof verification failed")

end Cats
