import Cats.Identity.Multibase

/-!
# The did:key identifier of a Node
-/

namespace Cats

/-- Multicodec code of an Ed25519 public key. -/
def ED25519_PUB_PREFIX : Bytes := [0xed, 0x01]

def ed25519_public_key_to_did_key (public_key_bytes : Bytes) :
    Except Raised String :=
  if public_key_bytes.length ≠ 32 then
    .error (.valueError
      s!"Ed25519 public key must be 32 bytes, got {public_key_bytes.length}")
  else
    .ok ("did:key:" ++ multibase_z_encode
      (ED25519_PUB_PREFIX ++ public_key_bytes))

def did_key_verification_method (did : String) : Except Raised String :=
  if Text.startsWith did "did:key:" then
    .ok (did ++ "#" ++ String.ofList (did.toList.drop "did:key:".length))
  else .error (.valueError ("Expected did:key DID, got " ++ Text.repr did))

theorem did_key_ok {public_key_bytes : Bytes} {did : String}
    (named : ed25519_public_key_to_did_key public_key_bytes = .ok did) :
    public_key_bytes.length = 32 ∧
      did = "did:key:" ++ multibase_z_encode
        (ED25519_PUB_PREFIX ++ public_key_bytes) := by
  unfold ed25519_public_key_to_did_key at named
  split_ifs at named with short
  · simp only [Except.ok.injEq] at named
    exact ⟨not_not.mp short, named.symm⟩

/-- The method of a did:key identifier repeats its multibase text behind a
`#`. -/
theorem verification_method_of_did_key (data : Bytes) :
    did_key_verification_method ("did:key:" ++ multibase_z_encode data) =
      .ok ("did:key:" ++ multibase_z_encode data ++ "#" ++
        multibase_z_encode data) := by
  have start : Text.startsWith ("did:key:" ++ multibase_z_encode data)
      "did:key:" = true := by
    rw [Text.startsWith_iff, String.toList_append]
    exact List.prefix_append _ _
  have rest : String.ofList (("did:key:" ++ multibase_z_encode data).toList.drop
      "did:key:".length) = multibase_z_encode data := by
    have split : ("did:key:" ++ multibase_z_encode data).toList =
        "did:key:".toList ++ (multibase_z_encode data).toList := by simp
    have width : "did:key:".length = "did:key:".toList.length :=
      String.length_toList.symm
    rw [split, width, List.drop_left]
    simp
  rw [did_key_verification_method, if_pos start, rest]

end Cats
