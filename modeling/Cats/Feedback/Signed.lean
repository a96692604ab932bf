import Cats.Feedback.Envelope

/-!
# What is signed is accepted

Signing and verifying build the signed message apart from each other.  A
signed document without its proof is the document that was signed, and its
proof without the value is the options that were signed, so both sides hash
the same two texts.
-/

namespace Cats

/-- The verification method of a public key. -/
def methodOfKey (public_key : Bytes) : String :=
  "did:key:" ++ multibase_z_encode (ED25519_PUB_PREFIX ++ public_key) ++ "#" ++
    multibase_z_encode (ED25519_PUB_PREFIX ++ public_key)

/-- A did:key verification method spells the key it was made from. -/
theorem public_key_of_method {public_key : Bytes}
    (width : public_key.length = 32) :
    public_key_from_did_key_vm (methodOfKey public_key) = .ok public_key := by
  let multibase := multibase_z_encode (ED25519_PUB_PREFIX ++ public_key)
  have split : Text.partition? '#'
      ("did:key:" ++ multibase ++ "#" ++ multibase).toList =
      some ("did:key:".toList ++ multibase.toList, multibase.toList) := by
    have noHash : ∀ character ∈ "did:key:".toList ++ multibase.toList,
        decide (character ≠ '#') = true := by
      intro character member
      rw [decide_eq_true_eq]
      intro hash
      rw [hash] at member
      rcases List.mem_append.mp member with scheme | symbol
      · simp at scheme
      · exact multibase_z_encode_noHash _ symbol
    have shape : ("did:key:" ++ multibase ++ "#" ++ multibase).toList =
        ("did:key:".toList ++ multibase.toList) ++ '#' :: multibase.toList := by
      simp
    rw [shape, Text.partition?, List.dropWhile_append_of_pos noHash,
      List.takeWhile_append_of_pos noHash]
    simp
  have nonempty : multibase.toList ≠ [] := by
    simp [multibase, multibase_z_encode]
  have whole : String.ofList multibase.toList = multibase :=
    String.ofList_toList
  have start : Text.startsWith multibase "z" = true := by
    rw [Text.startsWith_iff]
    simp [multibase, multibase_z_encode]
  have decoded : multibase_z_decode multibase =
      .ok (ED25519_PUB_PREFIX ++ public_key) := multibase_z_decode_encode _
  have scheme : "did:key:".toList.isPrefixOf
      ("did:key:".toList ++ multibase.toList) = true :=
    List.isPrefixOf_iff_prefix.mpr (List.prefix_append _ _)
  have multicodec : ED25519_PUB_PREFIX.isPrefixOf
      (ED25519_PUB_PREFIX ++ public_key) = true :=
    List.isPrefixOf_iff_prefix.mpr (List.prefix_append _ _)
  change public_key_from_did_key_vm
    ("did:key:" ++ multibase ++ "#" ++ multibase) = _
  unfold public_key_from_did_key_vm
  simp only [split, Option.getD_some, scheme, not_true_eq_false, if_false,
    nonempty, ne_eq, not_false_eq_true, if_true, whole, start, decoded,
    multicodec, List.drop_left, width, bind, Except.bind, pure,
    Except.pure]

/-- The options of a proof are the proof without its value. -/
theorem erase_proofValue (method created : String) (context : Option Json)
    (value : Json) :
    Fields.erase (proofOptions method created context ++
      [("proofValue", value)]) "proofValue" =
      proofOptions method created context := by
  cases context <;> simp [proofOptions, Fields.erase]

theorem get?_proofOptions_context (method created : String)
    (context : Option Json) :
    Fields.get? (proofOptions method created context) "@context" = context := by
  cases context <;> simp [proofOptions]

theorem checkProof_signed (method created : String) (context : Option Json)
    {value : String} (nonempty : value ≠ "") :
    checkProof (proofOptions method created context ++
      [("proofValue", .str value)]) =
      .ok (proofOptions method created context ++
        [("proofValue", .str value)], value) := by
  cases context <;> simp [checkProof, proofOptions, nonempty]

theorem verificationMethod_signed (method created : String)
    (context : Option Json) (value : Json) :
    verificationMethod (proofOptions method created context ++
      [("proofValue", value)]) = .ok method := by
  cases context <;> simp [verificationMethod, proofOptions]

theorem context_starts_with_refl (context : Option Json) :
    context_starts_with context context = true := by
  simp [context_starts_with, Json.pyEq_refl]

/-- A document under the context it already has is itself. -/
theorem unsecuredUnder_own {options document unsecured : Fields}
    (rest : document.erase "proof" = unsecured)
    (context : options.get? "@context" = unsecured.get? "@context") :
    unsecuredUnder options document = unsecured := by
  unfold unsecuredUnder
  rw [rest, context]
  cases found : unsecured.get? "@context" with
  | none => rfl
  | some value => exact Fields.set_of_get? found

theorem checkContext_own {options document : Fields}
    (context : options.get? "@context" =
      (document.erase "proof").get? "@context") :
    checkContext options document = .ok () := by
  unfold checkContext
  rw [context]
  cases found : (document.erase "proof").get? "@context" with
  | none => rfl
  | some value => simp [context_starts_with_refl]

/-- What `sign_document` returns: the document without any old proof, and a
new proof whose options were hashed with it. -/
theorem sign_document_ok {scheme : Ed25519} {jcs : Canonicalization}
    {document signed : Fields} {key : scheme.PrivateKey}
    {method now : String} {created : Option String}
    (returned : sign_document scheme jcs document key method created now =
      .ok signed) :
    ∃ time hashed,
      hash_data jcs (proofOptions method time
        ((document.erase "proof").get? "@context"))
        (document.erase "proof") = .ok hashed ∧
      signed = (document.erase "proof").set "proof" (.obj
        (proofOptions method time ((document.erase "proof").get? "@context") ++
          [("proofValue", .str (multibase_z_encode
            (scheme.sign key hashed)))])) := by
  unfold sign_document at returned
  simp only [bind, Except.bind, pure, Except.pure] at returned
  split at returned
  · exact absurd returned (by simp)
  · rename_i hashed ran
    exact ⟨_, hashed, ran, (Except.ok.inj returned).symm⟩

/-- A document is accepted under a proof that names a key, when the key accepts
the proof's value for the two texts. -/
theorem verify_document_under {scheme : Ed25519} {jcs : Canonicalization}
    {document : Fields} {public_key signature message : Bytes} {time : String}
    {context : Option Json} (width : public_key.length = 32)
    (carried : document.get? "proof" = some (.obj
      (proofOptions (methodOfKey public_key) time context ++
        [("proofValue", .str (multibase_z_encode signature))])))
    (checked : checkContext
      (proofOptions (methodOfKey public_key) time context) document = .ok ())
    (hashed : hash_data jcs (proofOptions (methodOfKey public_key) time context)
      (unsecuredUnder (proofOptions (methodOfKey public_key) time context)
        document) = .ok message)
    (accepted : scheme.verify public_key signature message = true) :
    verify_document scheme jcs document = .ok () := by
  have nonempty : multibase_z_encode signature ≠ "" := by
    intro empty
    have text := congrArg String.toList empty
    simp [multibase_z_encode] at text
  have read : readProof document = .ok
      (proofOptions (methodOfKey public_key) time context ++
        [("proofValue", .str (multibase_z_encode signature))],
        multibase_z_encode signature) := by
    rw [readProof, carried]
    exact checkProof_signed _ _ _ nonempty
  have decoded : multibase_z_decode (multibase_z_encode signature) =
      .ok signature := multibase_z_decode_encode _
  simp only [verify_document, read, erase_proofValue, checked, hashed, decoded,
    verificationMethod_signed, public_key_of_method width, accepted, bind,
    Except.bind, if_true, pure, Except.pure]

/-- Every document that `sign_document` returns verifies. -/
theorem verify_signed {scheme : Ed25519} {jcs : Canonicalization}
    (correct : scheme.Correct) {document signed : Fields}
    {key : scheme.PrivateKey} {did method now : String}
    {created : Option String}
    (named : ed25519_public_key_to_did_key (scheme.public_bytes key) = .ok did)
    (pointed : did_key_verification_method did = .ok method)
    (returned : sign_document scheme jcs document key method created now =
      .ok signed) :
    verify_document scheme jcs signed = .ok () := by
  obtain ⟨width, rfl⟩ := did_key_ok named
  rw [verification_method_of_did_key] at pointed
  obtain rfl := Except.ok.inj pointed
  obtain ⟨time, hashed, ran, rfl⟩ := sign_document_ok returned
  have context := get?_proofOptions_context
    (methodOfKey (scheme.public_bytes key)) time
    ((document.erase "proof").get? "@context")
  apply verify_document_under width (Fields.get?_set_self _ _ _)
  · apply checkContext_own
    rw [context, Fields.erase_set_self, Fields.erase_erase]
  · rw [unsecuredUnder_own (by rw [Fields.erase_set_self, Fields.erase_erase])
      context]
    exact ran
  · exact correct key hashed

theorem erase_signed {scheme : Ed25519} {jcs : Canonicalization}
    {document signed : Fields} {key : scheme.PrivateKey}
    {method now : String} {created : Option String}
    (returned : sign_document scheme jcs document key method created now =
      .ok signed) :
    signed.erase "proof" = document.erase "proof" := by
  obtain ⟨time, hashed, -, rfl⟩ := sign_document_ok returned
  simp

theorem get?_signed {scheme : Ed25519} {jcs : Canonicalization}
    {document signed : Fields} {key : scheme.PrivateKey}
    {method now : String} {created : Option String}
    (returned : sign_document scheme jcs document key method created now =
      .ok signed) {name : String} (other : "proof" ≠ name) :
    signed.get? name = document.get? name := by
  rw [← Fields.get?_erase_of_ne signed other, erase_signed returned,
    Fields.get?_erase_of_ne document other]

theorem attributed_ok {bom named : Fields} {did : String}
    (returned : attributed bom did = .ok named) :
    named.get? "node_did" = some (.str did) ∧
      named.get? "@context" = bom.get? "@context" := by
  unfold attributed at returned
  split at returned
  · obtain rfl := Except.ok.inj returned
    simp [attach_node_did]
  · obtain rfl := Except.ok.inj returned
    simp [attach_node_did]
  · rename_i node _ found
    split_ifs at returned with same
    obtain rfl := Except.ok.inj returned
    exact ⟨same ▸ found, rfl⟩

/-- The context grows at its end only, and has the Data Integrity terms. -/
theorem withIntegrityContext_extends (bom : Fields) :
    context_list (bom.get? "@context") <+:
        context_list ((withIntegrityContext bom).get? "@context") ∧
      Json.str DATA_INTEGRITY_CONTEXT ∈
        context_list ((withIntegrityContext bom).get? "@context") := by
  unfold withIntegrityContext
  split
  · rename_i items found
    split_ifs with present
    · rw [found]
      exact ⟨List.prefix_rfl, by simpa [context_list] using present⟩
    · simp [found, context_list]
  · rename_i found
    simp [found, context_list]
  · rename_i found
    simp [found, context_list]
  · rename_i other notArr notNull found
    have listed : context_list (some other) = [other] := by
      cases other with
      | null => exact absurd rfl notNull
      | arr items => exact absurd rfl (notArr items)
      | _ => rfl
    rw [found, listed]
    simp [context_list]

theorem withIntegrityContext_get? (bom : Fields) {name : String}
    (other : "@context" ≠ name) :
    (withIntegrityContext bom).get? name = bom.get? name := by
  unfold withIntegrityContext
  split
  · split_ifs
    · rfl
    · exact Fields.get?_set_of_ne bom other _
  · exact Fields.get?_set_of_ne bom other _
  · exact Fields.get?_set_of_ne bom other _
  · exact Fields.get?_set_of_ne bom other _

theorem sign_execution_bom_ok {scheme : Ed25519} {jcs : Canonicalization}
    {bom signed : Fields} {did now : String} {key : scheme.PrivateKey}
    (returned : sign_execution_bom scheme jcs bom (.ok (did, key)) now =
      .ok signed) :
    ∃ named method, attributed bom did = .ok named ∧
      did_key_verification_method did = .ok method ∧
      sign_document scheme jcs (withIntegrityContext named) key method none
        now = .ok signed := by
  simp only [sign_execution_bom, bind, Except.bind] at returned
  cases attribution : attributed bom did with
  | error raised => simp [attribution] at returned
  | ok named =>
      cases pointed : did_key_verification_method did with
      | error raised => simp [attribution, pointed] at returned
      | ok method =>
          simp only [attribution, pointed] at returned
          exact ⟨named, method, rfl, rfl, returned⟩

/-- Documents and envelopes signed with a key verify under its did:key
identifier; an envelope comes back naming that identifier, under a context
that extends the one it had. -/
theorem sign_then_verify (scheme : Ed25519) (jcs : Canonicalization)
    (correct : scheme.Correct) (key : scheme.PrivateKey) (did : String)
    (named : ed25519_public_key_to_did_key (scheme.public_bytes key) =
      .ok did) :
    (∀ (document signed : Fields) (created : Option String) (now : String),
      (do
        let method ← did_key_verification_method did
        sign_document scheme jcs document key method created now) =
        .ok signed →
        verify_document scheme jcs signed = .ok () ∧
          signed.erase "proof" = document.erase "proof") ∧
    ∀ (bom signed : Fields) (now : String),
      sign_execution_bom scheme jcs bom (.ok (did, key)) now = .ok signed →
        verify_execution_bom scheme jcs signed = .ok () ∧
        context_list (bom.get? "@context") <+:
          context_list (signed.get? "@context") ∧
        Json.str DATA_INTEGRITY_CONTEXT ∈
          context_list (signed.get? "@context") ∧
        signed.get? "node_did" = some (.str did) := by
  constructor
  · intro document signed created now returned
    cases pointed : did_key_verification_method did with
    | error raised => simp [pointed, bind, Except.bind] at returned
    | ok method =>
        have ran : sign_document scheme jcs document key method created now =
            .ok signed := by
          simpa [pointed, bind, Except.bind] using returned
        exact ⟨verify_signed correct named pointed ran, erase_signed ran⟩
  · intro bom signed now returned
    obtain ⟨attributedBom, method, attribution, pointed, ran⟩ :=
      sign_execution_bom_ok returned
    obtain ⟨nodeOf, contextOf⟩ := attributed_ok attribution
    obtain ⟨longer, integrity⟩ := withIntegrityContext_extends attributedBom
    rw [contextOf] at longer
    have context := get?_signed ran (show "proof" ≠ "@context" by decide)
    have node := get?_signed ran (show "proof" ≠ "node_did" by decide)
    rw [withIntegrityContext_get? attributedBom (by decide), nodeOf] at node
    rw [context]
    exact ⟨verify_signed correct named pointed ran, longer, integrity, node⟩

section Vector

def vectorKey : Bytes := (Hex.decode
  "d75a980182b10ab7d54bfed3c964073a0ee172f3daa62325af021a68f707511a".toList
  ).getD []

/-- What is signed of `vectorDocument` below. -/
def vectorMessage : Bytes := (Hex.decode
  ("b6ed1bee6dd4b204b0d105ae1ef83cb641e01c4e9e06bfd7a7fe9fa7ae17d429" ++
   "c18a96cf239717bbc4e565403ec1e545e6b828576208f3798a9e4b8b378d2f43").toList
  ).getD []

def vectorSignature : Bytes := (Hex.decode
  ("a68d8338705eaf7117698d8df69db45cf43276293f62e8bd92d15d81655c3405" ++
   "8d1d68bc375819e78fae8960a87eb56c478ac90c4f9736dffe659cd6638e0106").toList
  ).getD []

/-- One key pair, with the signature Ed25519 makes of one message. -/
def vectorScheme : Ed25519 :=
  { PrivateKey := Unit
    public_bytes := fun _ => vectorKey
    sign := fun _ message =>
      if message = vectorMessage then vectorSignature else message
    verify := fun key signature message => key = vectorKey &&
      signature = (if message = vectorMessage then vectorSignature else message) }

/-- Canonical text of values whose strings are plain ASCII. -/
def plainCanonicalization : Canonicalization := fun value =>
  .ok (Utf8.encodeAscii (Json.dumps .compact value.sortKeys))

def vectorDocument : Fields :=
  [("@context", .str "https://www.w3.org/ns/prov#"), ("name", .str "order")]

theorem sign_then_verify_vector :
    ∃ did signed,
      ed25519_public_key_to_did_key vectorKey = .ok did ∧
      (do
        let method ← did_key_verification_method did
        sign_document vectorScheme plainCanonicalization vectorDocument ()
          method (some "2024-01-01T00:00:00Z") "") = .ok signed ∧
      verify_document vectorScheme plainCanonicalization signed = .ok () := by
  have width : vectorKey.length = 32 := by decide +kernel
  have named : ed25519_public_key_to_did_key vectorKey =
      .ok ("did:key:" ++ multibase_z_encode (ED25519_PUB_PREFIX ++ vectorKey)) := by
    simp [ed25519_public_key_to_did_key, width]
  have correct : vectorScheme.Correct := by
    intro key message
    simp [vectorScheme]
  have signs := (sign_then_verify vectorScheme plainCanonicalization correct ()
    _ named).1 vectorDocument
  rw [verification_method_of_did_key] at signs
  exact ⟨_, _, named, by rw [verification_method_of_did_key]; rfl,
    (signs _ (some "2024-01-01T00:00:00Z") "" rfl).1⟩

end Vector

end Cats
