import Cats.Feedback.Signed

/-!
# What a proof pins down

Two accepted documents under one proof value were hashed to the same message,
so the texts hashed were the same, and so were the values behind them: the
options of the two proofs, and the two documents under the proofs' contexts.
Only a context of a document is replaced before it is hashed; it is compared
with the proof's by the host language's equality, which takes a boolean for a
number.
-/

namespace Cats

/-- Distinct values have distinct canonical texts. -/
def Canonicalization.Injective (jcs : Canonicalization) : Prop :=
  ∀ left right text, jcs left = .ok text → jcs right = .ok text →
    left.same right = true

/-- The two documents hold the same JSON value, or none, under a key. -/
def AgreeAt (first second : Option Json) : Prop :=
  Option.Rel (fun left right => left.same right = true) first second

/-- The texts a document's verification hashes: the proof's options, then the
document under the proof's context. -/
def signedTexts (jcs : Canonicalization) (document : Fields) : List Bytes :=
  match document.get? "proof" with
  | some (.obj proof) =>
      [jcs (.obj (Fields.erase proof "proofValue")),
        jcs (.obj (unsecuredUnder (Fields.erase proof "proofValue")
          document))].filterMap Except.toOption
  | _ => []

/-- No two different texts that are hashed at the same place collide. -/
def CollisionFree (jcs : Canonicalization) (first second : Fields) : Prop :=
  ∀ texts ∈ (signedTexts jcs first).zip (signedTexts jcs second),
    sha256 texts.1 = sha256 texts.2 → texts.1 = texts.2

/-- A document's context, as a list, is the proof's followed by more. -/
def ContextExtends (document_ctx proof_ctx : Option Json) : Prop :=
  ∃ front rest, context_list document_ctx = front ++ rest ∧
    Json.same (.arr front) (.arr (context_list proof_ctx)) = true

/-- At each place of the proof's context, the document's holds a boolean
exactly when the proof's does. -/
def BooleansKept (document_ctx proof_ctx : Option Json) : Prop :=
  Json.alike Json.sameKind
    (.arr ((context_list document_ctx).take (context_list proof_ctx).length))
    (.arr (context_list proof_ctx)) = true

/-- What two documents under one proof may still differ in. -/
def TamperEvident (proof first second : Fields) : Prop :=
  (∀ key, key ≠ "proof" → key ≠ "@context" →
    AgreeAt (first.get? key) (second.get? key)) ∧
  match proof.get? "@context" with
  | some context =>
      ContextExtends (first.get? "@context") (some context) ∧
        ContextExtends (second.get? "@context") (some context)
  | none => ∀ key, AgreeAt (first.get? key) (second.get? key)

theorem hash_data_ok {jcs : Canonicalization} {options unsecured : Fields}
    {message : Bytes} (hashed : hash_data jcs options unsecured = .ok message) :
    ∃ optionsText documentText,
      jcs (.obj options) = .ok optionsText ∧
      jcs (.obj unsecured) = .ok documentText ∧
      message = sha256 optionsText ++ sha256 documentText := by
  obtain ⟨optionsText, options, rest⟩ := Raised.bind_returns hashed
  obtain ⟨documentText, document, rest⟩ := Raised.bind_returns rest
  exact ⟨optionsText, documentText, options, document,
    (Except.ok.inj rest).symm⟩

theorem hash_data_of {jcs : Canonicalization} {options unsecured : Fields}
    {optionsText documentText : Bytes}
    (optionsOf : jcs (.obj options) = .ok optionsText)
    (documentOf : jcs (.obj unsecured) = .ok documentText) :
    hash_data jcs options unsecured =
      .ok (sha256 optionsText ++ sha256 documentText) := by
  simp only [hash_data, optionsOf, documentOf, bind, Except.bind, pure,
    Except.pure]

theorem readProof_ok {document proof : Fields} {value : String}
    (shape : document.get? "proof" = some (.obj proof))
    {checked : Fields × String} (read : readProof document = .ok checked)
    (valueOf : checked.2 = value) :
    checked.1 = proof ∧ proof.get? "proofValue" = some (.str value) := by
  simp only [readProof, shape, checkProof] at read
  split_ifs at read
  split at read
  · rename_i found held
    split_ifs at read with empty
    obtain rfl := Except.ok.inj read
    exact ⟨rfl, valueOf ▸ held⟩
  · exact absurd read (by simp)

/-- What verification established of an accepted document. -/
theorem verify_document_ok {scheme : Ed25519} {jcs : Canonicalization}
    {document proof : Fields}
    (shape : document.get? "proof" = some (.obj proof))
    (accepted : verify_document scheme jcs document = .ok ()) :
    ∃ value signature key message,
      proof.get? "proofValue" = some (.str value) ∧
      checkContext (Fields.erase proof "proofValue") document = .ok () ∧
      hash_data jcs (Fields.erase proof "proofValue")
        (unsecuredUnder (Fields.erase proof "proofValue") document) =
        .ok message ∧
      multibase_z_decode value = .ok signature ∧
      scheme.verify key signature message = true ∧
      ∃ method, verificationMethod proof = .ok method ∧
        public_key_from_did_key_vm method = .ok key := by
  obtain ⟨⟨checkedProof, value⟩, read, rest⟩ := Raised.bind_returns accepted
  obtain ⟨whole, held⟩ := readProof_ok shape read rfl
  dsimp only at whole held rest
  subst whole
  obtain ⟨_, context, rest⟩ := Raised.bind_returns rest
  obtain ⟨message, hashed, rest⟩ := Raised.bind_returns rest
  obtain ⟨signature, decoded, rest⟩ := Raised.bind_returns rest
  obtain ⟨method, pointed, rest⟩ := Raised.bind_returns rest
  obtain ⟨key, named, rest⟩ := Raised.bind_returns rest
  split_ifs at rest with verified
  exact ⟨value, signature, key, message, held, context, hashed, decoded,
    verified, method, pointed, named⟩

/-- Two accepted documents under one proof value: the options of their proofs
are the same value, and so are the documents as they were hashed. -/
theorem same_signed {scheme : Ed25519} {jcs : Canonicalization}
    (canonical : jcs.Injective) (binding : scheme.Binding)
    {first second proof other : Fields}
    (firstProof : first.get? "proof" = some (.obj proof))
    (secondProof : second.get? "proof" = some (.obj other))
    (firstAccepted : verify_document scheme jcs first = .ok ())
    (secondAccepted : verify_document scheme jcs second = .ok ())
    (collisionFree : CollisionFree jcs first second)
    (sameValue : proof.get? "proofValue" = other.get? "proofValue") :
    Json.same (.obj (Fields.erase proof "proofValue"))
        (.obj (Fields.erase other "proofValue")) = true ∧
      Json.same (.obj (unsecuredUnder (Fields.erase proof "proofValue") first))
        (.obj (unsecuredUnder (Fields.erase other "proofValue") second)) =
        true := by
  obtain ⟨value, signature, key, message, held, -, hashed, decoded, verified,
    -⟩ :=
    verify_document_ok firstProof firstAccepted
  obtain ⟨otherValue, otherSignature, otherKey, otherMessage, otherHeld, -,
    otherHashed, otherDecoded, otherVerified, -⟩ :=
    verify_document_ok secondProof secondAccepted
  have values : value = otherValue := by
    rw [held, otherHeld] at sameValue
    simpa using sameValue
  subst values
  have signatures : signature = otherSignature := by
    rw [decoded] at otherDecoded
    exact Except.ok.inj otherDecoded
  subst signatures
  obtain ⟨-, messages⟩ := binding _ _ _ _ _ verified otherVerified
  obtain ⟨optionsText, documentText, options, documents, shape⟩ :=
    hash_data_ok hashed
  obtain ⟨otherOptionsText, otherDocumentText, otherOptions, otherDocuments,
    otherShape⟩ := hash_data_ok otherHashed
  rw [shape, otherShape] at messages
  obtain ⟨optionsDigest, documentDigest⟩ :=
    List.append_inj messages (by simp)
  have texts : signedTexts jcs first = [optionsText, documentText] := by
    simp [signedTexts, firstProof, options, documents, Except.toOption]
  have otherTexts :
      signedTexts jcs second = [otherOptionsText, otherDocumentText] := by
    simp [signedTexts, secondProof, otherOptions, otherDocuments,
      Except.toOption]
  have free := collisionFree
  rw [CollisionFree, texts, otherTexts] at free
  have optionsSame : optionsText = otherOptionsText :=
    free (optionsText, otherOptionsText) (by simp) optionsDigest
  have documentsSame : documentText = otherDocumentText :=
    free (documentText, otherDocumentText) (by simp) documentDigest
  subst optionsSame
  subst documentsSame
  exact ⟨canonical _ _ _ options otherOptions,
    canonical _ _ _ documents otherDocuments⟩

theorem get?_unsecuredUnder (options document : Fields) {key : String}
    (notProof : key ≠ "proof") (notContext : key ≠ "@context") :
    (unsecuredUnder options document).get? key = document.get? key := by
  unfold unsecuredUnder
  split
  · rw [Fields.get?_set_of_ne _ (Ne.symm notContext),
      Fields.get?_erase_of_ne _ (Ne.symm notProof)]
  · rw [Fields.get?_erase_of_ne _ (Ne.symm notProof)]

theorem alikeItems_length {scalar : Json → Json → Bool} :
    ∀ {lefts rights : List Json},
      Json.alikeItems scalar lefts rights = true →
        lefts.length = rights.length
  | [], [], _ => rfl
  | [], _ :: _, equal => by simp [Json.alikeItems] at equal
  | _ :: _, [], equal => by simp [Json.alikeItems] at equal
  | left :: lefts, right :: rights, equal => by
      simp only [Json.alikeItems, Bool.and_eq_true] at equal
      simp [alikeItems_length equal.2]

/-- Past the host language's comparison, only a boolean standing for a number
keeps a document's context from extending the proof's. -/
theorem contextExtends_iff {document_ctx proof_ctx : Option Json}
    (starts : context_starts_with document_ctx proof_ctx = true) :
    ContextExtends document_ctx proof_ctx ↔
      BooleansKept document_ctx proof_ctx := by
  let doc := context_list document_ctx
  let proof := context_list proof_ctx
  have equal : Json.pyEq (.arr (doc.take proof.length)) (.arr proof) = true := by
    simp only [context_starts_with] at starts
    split_ifs at starts
    exact starts
  have both : Json.same (.arr (doc.take proof.length)) (.arr proof) =
      (Json.pyEq (.arr (doc.take proof.length)) (.arr proof) &&
        Json.alike Json.sameKind (.arr (doc.take proof.length))
          (.arr proof)) := Json.alike_and _ _
  constructor
  · intro extends_
    obtain ⟨front, rest, shape, same⟩ := extends_
    have width : front.length = proof.length :=
      alikeItems_length (by simpa [Json.same, Json.alike] using same)
    have front_eq : doc.take proof.length = front := by
      rw [show doc = front ++ rest from shape, ← width]
      exact List.take_left
    rw [← front_eq, both, Bool.and_eq_true] at same
    exact same.2
  · intro kept
    refine ⟨doc.take proof.length, doc.drop proof.length,
      (List.take_append_drop _ _).symm, ?_⟩
    rw [both, equal]
    exact kept

theorem context_of_checkContext {options document : Fields} {context : Json}
    (found : options.get? "@context" = some context)
    (checked : checkContext options document = .ok ()) :
    context_starts_with (document.get? "@context") (some context) = true := by
  simp only [checkContext, found] at checked
  split_ifs at checked with starts
  rwa [Fields.get?_erase_of_ne _ (by decide)] at starts

/-- What may change beside a proof, and what inside it: appending contexts is
the only freedom exactly when no boolean of a context stands for a number, and
no field of a proof but its value can change. -/
theorem tamper_evident_iff (scheme : Ed25519) (jcs : Canonicalization)
    (canonical : jcs.Injective) (binding : scheme.Binding)
    (first second proof other : Fields)
    (firstProof : first.get? "proof" = some (.obj proof))
    (secondProof : second.get? "proof" = some (.obj other))
    (firstAccepted : verify_document scheme jcs first = .ok ())
    (secondAccepted : verify_document scheme jcs second = .ok ())
    (collisionFree : CollisionFree jcs first second) :
    (proof = other →
      (TamperEvident proof first second ↔
        ∀ context, proof.get? "@context" = some context →
          BooleansKept (first.get? "@context") (some context) ∧
            BooleansKept (second.get? "@context") (some context))) ∧
    (proof.get? "proofValue" = other.get? "proofValue" →
      ∀ key, AgreeAt (proof.get? key) (other.get? key)) := by
  have signed := same_signed canonical binding firstProof secondProof
    firstAccepted secondAccepted collisionFree
  constructor
  · intro one
    subst one
    have documents := Json.alike_get? (signed rfl).2
    have elsewhere : ∀ key, key ≠ "proof" → key ≠ "@context" →
        AgreeAt (first.get? key) (second.get? key) := by
      intro key notProof notContext
      have agree := documents key
      rw [get?_unsecuredUnder _ _ notProof notContext,
        get?_unsecuredUnder _ _ notProof notContext] at agree
      exact agree
    have options : (Fields.erase proof "proofValue").get? "@context" =
        proof.get? "@context" := Fields.get?_erase_of_ne proof (by decide)
    cases found : proof.get? "@context" with
    | none =>
        have whole : ∀ key, AgreeAt (first.get? key) (second.get? key) := by
          intro key
          by_cases isProof : key = "proof"
          · rw [isProof, firstProof, secondProof]
            exact .some (Json.same_refl _)
          · have agree := documents key
            rw [unsecuredUnder, unsecuredUnder, options, found] at agree
            dsimp only at agree
            rw [Fields.get?_erase_of_ne _ (Ne.symm isProof),
              Fields.get?_erase_of_ne _ (Ne.symm isProof)] at agree
            exact agree
        simp only [TamperEvident, found]
        exact ⟨fun _ context impossible => absurd impossible (by simp),
          fun _ => ⟨elsewhere, whole⟩⟩
    | some context =>
        obtain ⟨-, -, -, -, -, firstContext, -⟩ :=
          verify_document_ok firstProof firstAccepted
        obtain ⟨-, -, -, -, -, secondContext, -⟩ :=
          verify_document_ok secondProof secondAccepted
        have firstExtends := contextExtends_iff
          (context_of_checkContext (options.trans found) firstContext)
        have secondExtends := contextExtends_iff
          (context_of_checkContext (options.trans found) secondContext)
        simp only [TamperEvident, found]
        constructor
        · intro evident context same
          obtain rfl := Option.some.inj same
          exact ⟨firstExtends.mp evident.2.1, secondExtends.mp evident.2.2⟩
        · intro kept
          obtain ⟨firstKept, secondKept⟩ := kept context rfl
          exact ⟨elsewhere, firstExtends.mpr firstKept,
            secondExtends.mpr secondKept⟩
  · intro sameValue key
    by_cases isValue : key = "proofValue"
    · rw [isValue, sameValue]
      cases other.get? "proofValue" with
      | none => exact .none
      | some value => exact .some (Json.same_refl value)
    · have agree := Json.alike_get? (signed sameValue).1 key
      rw [Fields.get?_erase_of_ne _ (Ne.symm isValue),
        Fields.get?_erase_of_ne _ (Ne.symm isValue)] at agree
      exact agree

theorem collisionFree_of_same {jcs : Canonicalization} {first second : Fields}
    (same : signedTexts jcs first = signedTexts jcs second) :
    CollisionFree jcs first second := by
  have diagonal : ∀ texts : List Bytes, ∀ pair ∈ texts.zip texts,
      pair.1 = pair.2 := by
    intro texts
    induction texts with
    | nil => simp
    | cons text texts induction =>
        intro pair member
        rcases List.mem_cons.mp member with first | later
        · rw [first]
        · exact induction pair later
  rw [CollisionFree, same]
  intro pair member _
  exact diagonal _ pair member

section Vector

def protectedContext (flag : Json) : Json :=
  .arr [.str "https://www.w3.org/ns/prov#", .obj [("@protected", flag)]]

def protectedUnsecured : Fields :=
  [("@context", protectedContext (.bool true)), ("name", .str "order")]

def protectedOptions : Fields :=
  proofOptions (methodOfKey vectorKey) "2024-01-01T00:00:00Z"
    (some (protectedContext (.bool true)))

def protectedSignature : Bytes := (Hex.decode
  ("88133215ea5f95531f0cd8311cc11306a642c570dc451ba2a3c5b5cfa04db903" ++
   "09d4274eb0c193a09be88da517c03b72e173aa41dd28206e3535979bcb5b9306").toList
  ).getD []

def protectedProof : Fields :=
  protectedOptions ++
    [("proofValue", .str (multibase_z_encode protectedSignature))]

/-- The canonical texts of the two values that are signed. -/
def protectedCanonicalization : Canonicalization := fun value =>
  if value = .obj protectedOptions ∨ value = .obj protectedUnsecured then
    plainCanonicalization value
  else .error (.valueError "not canonicalized")

def protectedMessage : Bytes :=
  sha256 (Utf8.encodeAscii (Json.dumps .compact
    (Json.sortKeys (.obj protectedOptions)))) ++
  sha256 (Utf8.encodeAscii (Json.dumps .compact
    (Json.sortKeys (.obj protectedUnsecured))))

/-- One key pair with one signature, which no other message has. -/
def protectedScheme : Ed25519 :=
  { PrivateKey := Unit
    public_bytes := fun _ => vectorKey
    sign := fun _ message =>
      if message = protectedMessage then protectedSignature else message
    verify := fun key signature message => key = vectorKey &&
      signature = protectedSignature && message = protectedMessage }

def protectedDocument (context : Json) : Fields :=
  [("@context", context), ("name", .str "order"), ("proof", .obj protectedProof)]

theorem protectedCanonicalization_injective :
    protectedCanonicalization.Injective := by
  have differ : plainCanonicalization (.obj protectedOptions) ≠
      plainCanonicalization (.obj protectedUnsecured) := by
    decide +kernel
  intro left right text leftText rightText
  unfold protectedCanonicalization at leftText rightText
  split_ifs at leftText rightText with leftCase rightCase
  have texts : plainCanonicalization left = plainCanonicalization right :=
    leftText.trans rightText.symm
  have one : left = right := by
    rcases leftCase with rfl | rfl
    · rcases rightCase with rfl | rfl
      · rfl
      · exact absurd texts differ
    · rcases rightCase with rfl | rfl
      · exact absurd texts.symm differ
      · rfl
  rw [one]
  exact Json.same_refl right

theorem protectedScheme_binding : protectedScheme.Binding := by
  intro key other signature message otherMessage accepted otherAccepted
  simp only [protectedScheme, Bool.and_eq_true, decide_eq_true_eq]
    at accepted otherAccepted
  exact ⟨accepted.1.1.trans otherAccepted.1.1.symm,
    accepted.2.trans otherAccepted.2.symm⟩

/-- A document with any context that the host language finds to start with the
proof's is accepted. -/
theorem protectedDocument_accepted {context : Json}
    (starts : context_starts_with (some context)
      (some (protectedContext (.bool true))) = true) :
    verify_document protectedScheme protectedCanonicalization
      (protectedDocument context) = .ok () := by
  have width : vectorKey.length = 32 := by decide +kernel
  have found : protectedOptions.get? "@context" =
      some (protectedContext (.bool true)) := get?_proofOptions_context _ _ _
  have rest : (protectedDocument context).erase "proof" =
      [("@context", context), ("name", .str "order")] := by
    simp [protectedDocument, Fields.erase]
  have checked : checkContext protectedOptions (protectedDocument context) =
      .ok () := by
    rw [checkContext, found, rest]
    simp [starts]
  have under : Fields.set [("@context", context), ("name", .str "order")]
      "@context" (protectedContext (.bool true)) = protectedUnsecured := by
    simp [Fields.set, protectedUnsecured]
  have hashed : hash_data protectedCanonicalization protectedOptions
      (unsecuredUnder protectedOptions (protectedDocument context)) =
      .ok protectedMessage := by
    rw [unsecuredUnder, found, rest]
    dsimp only
    rw [under]
    exact hash_data_of (if_pos (.inl rfl)) (if_pos (.inr rfl))
  have accepted : protectedScheme.verify vectorKey protectedSignature
      protectedMessage = true := by
    simp [protectedScheme]
  exact verify_document_under width rfl checked hashed accepted

theorem protectedDocument_texts (context : Json) :
    signedTexts protectedCanonicalization (protectedDocument context) =
      signedTexts protectedCanonicalization
        (protectedDocument (protectedContext (.bool true))) := by
  have options : Fields.erase protectedProof "proofValue" = protectedOptions :=
    erase_proofValue _ _ _ _
  have found : protectedOptions.get? "@context" =
      some (protectedContext (.bool true)) := get?_proofOptions_context _ _ _
  have under : ∀ context, unsecuredUnder protectedOptions
      (protectedDocument context) = protectedUnsecured := by
    intro context
    rw [unsecuredUnder, found]
    simp [protectedDocument, Fields.erase, Fields.set, protectedUnsecured]
  have carried : ∀ context, (protectedDocument context).get? "proof" =
      some (.obj protectedProof) := fun _ => rfl
  simp only [signedTexts, carried, options, under]

/-- A signed `"@protected": true` may be turned into `"@protected": 1`. -/
theorem tampered_boolean_accepted :
    ¬ ∀ (scheme : Ed25519) (jcs : Canonicalization), jcs.Injective →
      scheme.Binding → ∀ first second proof : Fields,
      first.get? "proof" = some (.obj proof) →
      second.get? "proof" = some (.obj proof) →
      verify_document scheme jcs first = .ok () →
      verify_document scheme jcs second = .ok () →
      CollisionFree jcs first second → TamperEvident proof first second := by
  intro every
  have starts : context_starts_with (some (protectedContext (.int 1)))
      (some (protectedContext (.bool true))) = true := by decide +kernel
  have evident := every protectedScheme protectedCanonicalization
    protectedCanonicalization_injective protectedScheme_binding
    (protectedDocument (protectedContext (.bool true)))
    (protectedDocument (protectedContext (.int 1))) protectedProof rfl rfl
    (protectedDocument_accepted (context_starts_with_refl _))
    (protectedDocument_accepted starts)
    (collisionFree_of_same (protectedDocument_texts _).symm)
  have found : protectedProof.get? "@context" =
      some (protectedContext (.bool true)) := rfl
  simp only [TamperEvident, found] at evident
  have kept := (contextExtends_iff starts).mp evident.2.2
  have refused : ¬ BooleansKept (some (protectedContext (.int 1)))
      (some (protectedContext (.bool true))) := by
    unfold BooleansKept
    decide +kernel
  exact refused kept

/-- Appending a context is still possible, and nothing else is. -/
theorem tamper_evident_appended :
    TamperEvident protectedProof
      (protectedDocument (protectedContext (.bool true)))
      (protectedDocument (.arr [.str "https://www.w3.org/ns/prov#",
        .obj [("@protected", .bool true)], .str DATA_INTEGRITY_CONTEXT])) := by
  have starts : context_starts_with
      (some (.arr [.str "https://www.w3.org/ns/prov#",
        .obj [("@protected", .bool true)], .str DATA_INTEGRITY_CONTEXT]))
      (some (protectedContext (.bool true))) = true := by decide +kernel
  apply ((tamper_evident_iff protectedScheme protectedCanonicalization
    protectedCanonicalization_injective protectedScheme_binding _ _
    protectedProof protectedProof rfl rfl
    (protectedDocument_accepted (context_starts_with_refl _))
    (protectedDocument_accepted starts)
    (collisionFree_of_same (protectedDocument_texts _).symm)).1 rfl).mpr
  intro context found
  obtain rfl : protectedContext (.bool true) = context := Option.some.inj found
  constructor
  · unfold BooleansKept
    decide +kernel
  · unfold BooleansKept
    decide +kernel

end Vector

end Cats
