import Cats.Feedback.Tamper
import Cats.Registry.Record

/-!
# Whom a BOM is attributed to

A proof is verified under the key its verification method names behind the
`#`.  The DID in front of it, `node_did` and `prov:wasAttributedTo` are not
compared with that key, so they are the signer's exactly when they are spelled
like it.
-/

namespace Cats

/-- `verification_method.partition('#')`: what is in front. -/
def didPart (method : String) : String :=
  String.ofList ((Text.partition? '#' method.toList).getD
    (method.toList, [])).1

/-- `verification_method.partition('#')`: what is behind. -/
def fragment (method : String) : String :=
  String.ofList ((Text.partition? '#' method.toList).getD
    (method.toList, [])).2

/-- The text a verification method's key is decoded from. -/
def keyText (method : String) : String :=
  if fragment method ≠ "" then fragment method
  else String.ofList ((didPart method).toList.drop "did:key:".length)

section Methods

theorem b58encode_of_decode {text : String} {data : Bytes}
    (decoded : b58decode text = .ok data) : b58encode data = text := by
  unfold b58decode at decoded
  split_ifs at decoded with empty
  · obtain rfl := Except.ok.inj decoded
    rw [empty]
    rfl
  · split at decoded
    · exact absurd decoded (by simp)
    · split at decoded
      · exact absurd decoded (by simp)
      · rename_i known
        have symbols : ∀ character ∈ text.toList,
            (Base58.value? character).isSome = true := by
          intro character member
          have value := List.find?_eq_none.mp known character member
          cases found : Base58.value? character with
          | none => simp [found] at value
          | some symbol => rfl
        have read : ∀ (start : Nat) (rest : List Char),
            (∀ character ∈ rest, (Base58.value? character).isSome = true) →
            (Base58.readFrom start rest).isSome = true := by
          intro start rest
          induction rest generalizing start with
          | nil => intro _; rfl
          | cons character rest induction =>
              intro all
              obtain ⟨value, found⟩ := Option.isSome_iff_exists.mp
                (all character (by simp))
              rw [Base58.readFrom, found]
              exact induction _ fun other later => all other (by simp [later])
        obtain ⟨number, found⟩ :=
          Option.isSome_iff_exists.mp (read 0 text.toList symbols)
        have whole : Base58.decode text.toList = some data := by
          simp only [Base58.decode, found, Option.map_some,
            Option.getD_some, Except.ok.injEq] at decoded ⊢
          rw [decoded]
        unfold b58encode
        rw [Base58.encode_decode whole, String.ofList_toList]

/-- A multibase text is the encoding of what it decodes to. -/
theorem multibase_z_encode_of_decode {text : String} {data : Bytes}
    (decoded : multibase_z_decode text = .ok data) :
    multibase_z_encode data = text := by
  unfold multibase_z_decode at decoded
  split_ifs at decoded with start
  rw [multibase_z_encode, b58encode_of_decode decoded]
  obtain ⟨rest, whole⟩ := Text.startsWith_iff.mp start
  apply String.toList_injective
  rw [← whole]
  simp

/-- What a method that names a key looks like. -/
theorem public_key_from_did_key_vm_iff {method : String} {key : Bytes} :
    public_key_from_did_key_vm method = .ok key ↔
      key.length = 32 ∧ Text.startsWith (didPart method) "did:key:" = true ∧
        keyText method = multibase_z_encode (ED25519_PUB_PREFIX ++ key) := by
  generalize parts : (Text.partition? '#' method.toList).getD
    (method.toList, []) = split
  obtain ⟨did_part, behind⟩ := split
  have start : Text.startsWith (didPart method) "did:key:" =
      "did:key:".toList.isPrefixOf did_part := by
    simp [didPart, parts, Text.startsWith]
  have text : keyText method = String.ofList (if behind ≠ [] then behind
      else did_part.drop "did:key:".length) := by
    simp only [keyText, fragment, didPart, parts]
    by_cases none : behind = []
    · simp [none]
    · simp [none]
  rw [start, text]
  unfold public_key_from_did_key_vm
  simp only [parts]
  generalize String.ofList (if behind ≠ [] then behind
    else did_part.drop "did:key:".length) = multibase
  by_cases scheme : "did:key:".toList.isPrefixOf did_part = true
  case neg =>
    have absent : "did:key:".toList.isPrefixOf did_part = false :=
      Bool.eq_false_iff.mpr scheme
    constructor
    · intro named
      rw [absent] at named
      cases named
    · rintro ⟨_, present, _⟩
      exact absurd present scheme
  by_cases mark : Text.startsWith multibase "z" = true
  case neg =>
    have absent : Text.startsWith multibase "z" = false :=
      Bool.eq_false_iff.mpr mark
    constructor
    · intro named
      rw [scheme, absent] at named
      cases named
    · rintro ⟨_, _, rfl⟩
      exact absurd (by rw [Text.startsWith_iff]; simp [multibase_z_encode]) mark
  rw [scheme, mark]
  constructor
  · intro named
    obtain ⟨raw, decoded, rest⟩ := Raised.bind_returns named
    by_cases multicodec : ED25519_PUB_PREFIX.isPrefixOf raw = true
    case neg =>
      rw [Bool.eq_false_iff.mpr multicodec] at rest
      cases rest
    rw [multicodec] at rest
    obtain ⟨tail, rfl⟩ := List.isPrefixOf_iff_prefix.mp multicodec
    rw [List.drop_left] at rest
    by_cases width : tail.length = 32
    · have same : tail = key := by
        simpa [width, pure, Except.pure, bind, Except.bind] using rest
      subst same
      exact ⟨width, rfl, (multibase_z_encode_of_decode decoded).symm⟩
    · simp [width, bind, Except.bind, throw, throwThe,
        MonadExceptOf.throw] at rest
  · rintro ⟨width, _, rfl⟩
    have multicodec : ED25519_PUB_PREFIX.isPrefixOf
        (ED25519_PUB_PREFIX ++ key) = true :=
      List.isPrefixOf_iff_prefix.mpr (List.prefix_append _ _)
    simp only [not_true_eq_false, if_false, multibase_z_decode_encode,
      multicodec, List.drop_left, width, ne_eq, bind, Except.bind, pure,
      Except.pure]

end Methods

/-- The proof of the document was accepted under the key its verification
method names. -/
def VerifiedUnder (scheme : Ed25519) (jcs : Canonicalization)
    (document : Fields) (method : String) (key : Bytes) : Prop :=
  ∃ (proof : Fields) (value : String) (signature message : Bytes),
    document.get? "proof" = some (.obj proof) ∧
    verificationMethod proof = .ok method ∧
    public_key_from_did_key_vm method = .ok key ∧
    proof.get? "proofValue" = some (.str value) ∧
    multibase_z_decode value = .ok signature ∧
    hash_data jcs (Fields.erase proof "proofValue")
      (unsecuredUnder (Fields.erase proof "proofValue") document) =
      .ok message ∧
    scheme.verify key signature message = true

/-- The value is missing, or this DID. -/
def NamesOnly (did : String) (value : Option Json) : Prop :=
  value = none ∨ value = some .null ∨ value = some (.str did)

/-- The value is missing, or an agent with this DID. -/
def NamesAgent (did : String) (value : Option Json) : Prop :=
  value = none ∨ value = some .null ∨
    ∃ agent : Fields, value = some (.obj agent) ∧ agent.get? "@id" = some (.str did)

/-- The BOM is attributed to the key that verified it: by its own fields, by
the DID in front of its verification method, and in every record built of
it. -/
def AttributionBound (scheme : Ed25519) (jcs : Canonicalization)
    (bom : Fields) : Prop :=
  ∃ method key did, VerifiedUnder scheme jcs bom method key ∧
    ed25519_public_key_to_did_key key = .ok did ∧
    NamesOnly did (bom.get? "node_did") ∧
    NamesAgent did (bom.get? "prov:wasAttributedTo") ∧
    public_key_from_did_key_vm (didPart method) = .ok key ∧
    ∀ net content_id locators machine record after,
      BomRegistry.build_record scheme jcs net bom content_id locators machine =
        .ok record after → NamesOnly did (record.get? "node_did")

/-- The texts agree: the DID in front of the verification method repeats the
fragment, and the two attributions, where present, repeat the DID. -/
def AttributionSpelled (bom : Fields) : Prop :=
  ∃ proof method, bom.get? "proof" = some (.obj proof) ∧
    verificationMethod proof = .ok method ∧
    (fragment method = "" ∨ didPart method = "did:key:" ++ fragment method) ∧
    NamesOnly (didPart method) (bom.get? "node_did") ∧
    NamesAgent (didPart method) (bom.get? "prov:wasAttributedTo")

section Spelling

variable {method : String} {key : Bytes}

/-- The text in front of a `#` has none. -/
theorem parts_of_didPart (method : String) :
    didPart (didPart method) = didPart method ∧
      fragment (didPart method) = "" := by
  have front : ∀ text : List Char, '#' ∉ text →
      (Text.partition? '#' text).getD (text, []) = (text, []) := by
    intro text none
    have whole : text.dropWhile (· ≠ '#') = [] := by
      apply List.dropWhile_eq_nil_iff.mpr
      intro character member
      rw [decide_eq_true_eq]
      exact fun hash => none (hash ▸ member)
    rw [Text.partition?, whole]
    rfl
  have noHash : '#' ∉ (didPart method).toList := by
    unfold didPart
    rw [String.toList_ofList, Text.partition?]
    split
    · rename_i ended
      intro member
      have kept := List.dropWhile_eq_nil_iff.mp ended '#' member
      simp at kept
    · intro member
      have before := List.mem_takeWhile_imp member
      simp at before
  constructor
  · rw [didPart, front _ noHash, String.ofList_toList]
  · rw [fragment, front _ noHash]

theorem didPart_of_start (start : Text.startsWith (didPart method) "did:key:" =
    true) : didPart method = "did:key:" ++
      String.ofList ((didPart method).toList.drop "did:key:".length) := by
  obtain ⟨rest, whole⟩ := Text.startsWith_iff.mp start
  have width : "did:key:".length = "did:key:".toList.length :=
    String.length_toList.symm
  apply String.toList_injective
  rw [← whole, width, List.drop_left]
  simp

/-- The DID in front names the key exactly when it is the key's DID. -/
theorem didPart_names_iff {did : String}
    (named : ed25519_public_key_to_did_key key = .ok did) :
    public_key_from_did_key_vm (didPart method) = .ok key ↔
      didPart method = did := by
  obtain ⟨width, rfl⟩ := did_key_ok named
  obtain ⟨same, bare⟩ := parts_of_didPart method
  have text : keyText (didPart method) =
      String.ofList ((didPart method).toList.drop "did:key:".length) := by
    simp [keyText, same, bare]
  rw [public_key_from_did_key_vm_iff, same, text]
  constructor
  · rintro ⟨_, start, spelled⟩
    rw [didPart_of_start start, spelled]
  · intro whole
    have start : Text.startsWith (didPart method) "did:key:" = true := by
      rw [whole, Text.startsWith_iff]
      simp
    refine ⟨width, start, ?_⟩
    have again := (didPart_of_start start).symm.trans whole
    exact String.append_right_inj _ |>.mp again

/-- A method that names a key repeats it in front of the `#` exactly when the
two texts agree. -/
theorem didPart_eq_iff {did : String}
    (points : public_key_from_did_key_vm method = .ok key)
    (named : ed25519_public_key_to_did_key key = .ok did) :
    didPart method = did ↔
      fragment method = "" ∨ didPart method = "did:key:" ++ fragment method := by
  obtain ⟨_, rfl⟩ := did_key_ok named
  obtain ⟨_, start, spelled⟩ := public_key_from_did_key_vm_iff.mp points
  rw [← spelled]
  unfold keyText
  by_cases bare : fragment method = ""
  · have whole := didPart_of_start start
    simp only [bare, ne_eq, not_true_eq_false, if_false, true_or, iff_true]
    exact whole
  · simp only [bare, ne_eq, not_false_eq_true, if_true, false_or]

end Spelling

theorem spelled_of_bound {scheme : Ed25519} {jcs : Canonicalization}
    {bom : Fields} (bound : AttributionBound scheme jcs bom) :
    AttributionSpelled bom := by
  obtain ⟨method, key, did, under, named, node, agent, front, _⟩ := bound
  obtain ⟨proof, _, _, _, shape, pointed, points, _⟩ := under
  have whole := (didPart_names_iff named).mp front
  refine ⟨proof, method, shape, pointed,
    (didPart_eq_iff points named).mp whole, ?_, ?_⟩
  · rw [whole]
    exact node
  · rw [whole]
    exact agent

/-- A verified BOM is attributed to its signer exactly when the texts that name
the signer agree. -/
theorem attribution_bound_iff (scheme : Ed25519) (jcs : Canonicalization)
    (bom : Fields) (verified : verify_execution_bom scheme jcs bom = .ok ()) :
    AttributionBound scheme jcs bom ↔ AttributionSpelled bom := by
  obtain ⟨⟨checked, proofValue⟩, read, _⟩ := Raised.bind_returns verified
  have shape : ∃ proof, bom.get? "proof" = some (.obj proof) := by
    unfold readProof at read
    split at read
    · exact nomatch read
    · rename_i proof found
      exact ⟨proof, found⟩
    · exact nomatch read
  obtain ⟨proof, shape⟩ := shape
  obtain ⟨value, signature, key, message, held, _, hashed, decoded, accepted,
    method, pointed, points⟩ := verify_document_ok shape verified
  obtain ⟨width, start, spelled⟩ := public_key_from_did_key_vm_iff.mp points
  have named : ed25519_public_key_to_did_key key = .ok ("did:key:" ++
      multibase_z_encode (ED25519_PUB_PREFIX ++ key)) := by
    simp [ed25519_public_key_to_did_key, width]
  have under : VerifiedUnder scheme jcs bom method key :=
    ⟨proof, value, signature, message, shape, pointed, points, held, decoded,
      hashed, accepted⟩
  constructor
  · exact spelled_of_bound
  · rintro ⟨otherProof, otherMethod, otherShape, otherPointed, repeats, node,
      agent⟩
    rw [shape, Option.some.injEq, Json.obj.injEq] at otherShape
    subst otherShape
    rw [pointed, Except.ok.injEq] at otherPointed
    subst otherPointed
    have whole := (didPart_eq_iff points named).mpr repeats
    rw [whole] at node agent
    refine ⟨method, key, _, under, named, node, agent,
      (didPart_names_iff named).mpr whole, ?_⟩
    intro net content_id locators machine record after built
    rw [BomRegistry.build_record_ok built]
    rcases node with none | null | same
    · rw [none]
      exact .inr (.inl rfl)
    · rw [null]
      exact .inr (.inl rfl)
    · rw [same]
      exact .inr (.inr rfl)

section Vector

/-- The options of a proof made with the test key. -/
def attributedOptions : Fields :=
  proofOptions (methodOfKey vectorKey) "2024-01-01T00:00:00Z" none

def attributedMessage (unsecured : Fields) : Bytes :=
  sha256 (Utf8.encodeAscii (Json.dumps .compact
    (Json.sortKeys (.obj attributedOptions)))) ++
  sha256 (Utf8.encodeAscii (Json.dumps .compact
    (Json.sortKeys (.obj unsecured))))

/-- One key pair with its signature of one message. -/
def oneSignature (signature message : Bytes) : Ed25519 :=
  { PrivateKey := Unit
    public_bytes := fun _ => vectorKey
    sign := fun _ _ => signature
    verify := fun key given other =>
      key = vectorKey && given = signature && other = message }

def attributedBom (node_did signature : String) : Fields :=
  [("node_did", .str node_did),
    ("proof", .obj (attributedOptions ++ [("proofValue", .str
      (multibase_z_encode ((Hex.decode signature.toList).getD [])))]))]

def attributedScheme (node_did signature : String) : Ed25519 :=
  oneSignature ((Hex.decode signature.toList).getD [])
    (attributedMessage [("node_did", .str node_did)])

theorem attributedBom_verified (node_did signature : String) :
    verify_execution_bom (attributedScheme node_did signature)
      plainCanonicalization (attributedBom node_did signature) = .ok () := by
  have width : vectorKey.length = 32 := by decide +kernel
  have bare : Fields.get? attributedOptions "@context" = none :=
    get?_proofOptions_context _ _ _
  have rest : (attributedBom node_did signature).erase "proof" =
      [("node_did", .str node_did)] := by
    simp [attributedBom, Fields.erase]
  apply verify_document_under width
  · rfl
  · change checkContext attributedOptions _ = _
    unfold checkContext
    rw [bare]
  · change hash_data _ attributedOptions
      (unsecuredUnder attributedOptions _) = _
    unfold unsecuredUnder
    rw [bare, rest]
    exact hash_data_of rfl rfl
  · simp [attributedScheme, oneSignature, attributedMessage]

theorem didPart_methodOfKey :
    didPart (methodOfKey vectorKey) =
      "did:key:z6MktwupdmLXVVqTzCw4i46r4uGyosGXRnR3XjN4Zq7oMMsw" ∧
    fragment (methodOfKey vectorKey) =
      "z6MktwupdmLXVVqTzCw4i46r4uGyosGXRnR3XjN4Zq7oMMsw" := by
  decide +kernel

def ownSignature : String :=
  "25378915402929f71a6986b2f10b18929ca17833b42cea17673ba778f7e077ae" ++
    "823050346664720bc45f384fc93471322424ff28d8cf1c5c384f326adccf7409"

def ownDid : String :=
  "did:key:z6MktwupdmLXVVqTzCw4i46r4uGyosGXRnR3XjN4Zq7oMMsw"

/-- A BOM a Node signs in its own name is attributed to it. -/
theorem attribution_bound_own :
    AttributionBound (attributedScheme ownDid ownSignature)
      plainCanonicalization (attributedBom ownDid ownSignature) := by
  obtain ⟨front, behind⟩ := didPart_methodOfKey
  have spelled : AttributionSpelled (attributedBom ownDid ownSignature) := by
    refine ⟨_, methodOfKey vectorKey, rfl, rfl, .inr ?_, .inr (.inr ?_),
      .inl rfl⟩
    · rw [front, behind]
      rfl
    · rw [front]
      rfl
  exact (attribution_bound_iff _ _ _ (attributedBom_verified _ _)).mpr spelled

def otherSignature : String :=
  "29597c16311da33ded5ae0cfc1b8b08fdf7039a3ac81b7f1844d667d434a68cf" ++
    "dca75476264418f92d08eeb564c5558c2b14b0e8effd1bbafdf3552187f9a00a"

/-- A BOM signed in another's name verifies, and is attributed to the other. -/
theorem attribution_unbound :
    verify_execution_bom
        (attributedScheme "did:key:zSomeoneElse" otherSignature)
        plainCanonicalization
        (attributedBom "did:key:zSomeoneElse" otherSignature) = .ok () ∧
      ¬ AttributionBound
        (attributedScheme "did:key:zSomeoneElse" otherSignature)
        plainCanonicalization
        (attributedBom "did:key:zSomeoneElse" otherSignature) := by
  refine ⟨attributedBom_verified _ _, ?_⟩
  intro bound
  obtain ⟨proof, method, shape, pointed, _, node, _⟩ := spelled_of_bound bound
  obtain rfl := Json.obj.inj (Option.some.inj shape)
  obtain rfl := Except.ok.inj pointed
  have other : Fields.get? (attributedBom "did:key:zSomeoneElse"
      otherSignature) "node_did" = some (.str "did:key:zSomeoneElse") := rfl
  rw [other, didPart_methodOfKey.1] at node
  rcases node with none | null | same
  · exact nomatch none
  · exact nomatch null
  · exact absurd (Json.str.inj (Option.some.inj same)) (by decide)

end Vector

end Cats
