import Cats.Cas.Digest

/-!
# The Node's local stores

`CasHttpStore` keeps blobs under their digest, `JsonResourceStore` keeps
Orders and Invoices under the file-system key of their id.  A store is what
its directory holds; nothing here relates a file to its name, for files may
have been damaged.
-/

namespace Cats

/-- `cas_ldp_path(hex_digest)`. -/
def cas_ldp_path (digest : Digest) : String := "/ldp/cas/" ++ digest.hex

/-- `cas_ldp_uri(hex_digest, base_url=base_url)`. -/
def cas_ldp_uri (digest : Digest) (base_url : String) : String :=
  Text.rstripSlash base_url ++ cas_ldp_path digest

/-- The blobs under `.cats/ldp/cas`. -/
structure CasHttpStore where
  blobs : Digest → Option Bytes

namespace CasHttpStore

def empty : CasHttpStore := { blobs := fun _ => none }

/-- `CasHttpStore.put(data)`: the `ni:` id and the store left behind. -/
def put (store : CasHttpStore) (data : Bytes) :
    Except Raised (String × CasHttpStore) :=
  let digest := sha256_hex data
  match store.blobs digest with
  | none => .ok (to_ni digest,
      { blobs := Function.update store.blobs digest (some data) })
  | some existing =>
      if existing = data then .ok (to_ni digest, store)
      else .error (.runtimeError
        s!"CAS digest collision for {digest.hex}: stored bytes differ")

/-- `CasHttpStore.get(content_id)`. -/
def get (store : CasHttpStore) (content_id : String) :
    Except Raised (Option Bytes) :=
  if is_ni_or_digest content_id then
    (from_ni content_id).map store.blobs
  else (validate_digest_segment content_id).map store.blobs

@[simp] theorem get_to_ni (store : CasHttpStore) (digest : Digest) :
    store.get (to_ni digest) = .ok (store.blobs digest) := by
  simp [get, Except.map]

@[simp] theorem get_hex (store : CasHttpStore) (digest : Digest) :
    store.get digest.hex = .ok (store.blobs digest) := by
  simp [get, Except.map]

/-- A put names the sha256 of its bytes and stores exactly them there. -/
theorem put_ok {store after : CasHttpStore} {data : Bytes}
    {content_id : String} (stored : store.put data = .ok (content_id, after)) :
    content_id = to_ni (sha256_hex data) ∧
      after.blobs = Function.update store.blobs (sha256_hex data)
        (some data) := by
  unfold put at stored
  cases present : store.blobs (sha256_hex data) with
  | none =>
      simp only [present, Except.ok.injEq, Prod.mk.injEq] at stored
      exact ⟨stored.1.symm, by rw [← stored.2]⟩
  | some existing =>
      simp only [present] at stored
      split_ifs at stored with same
      · simp only [Except.ok.injEq, Prod.mk.injEq] at stored
        refine ⟨stored.1.symm, ?_⟩
        subst same
        rw [← stored.2, ← present, Function.update_eq_self]

/-- Blobs under other digests are untouched by a put. -/
theorem put_frame {store after : CasHttpStore} {data : Bytes}
    {content_id : String} (stored : store.put data = .ok (content_id, after))
    {digest : Digest} (other : digest ≠ sha256_hex data) :
    after.blobs digest = store.blobs digest := by
  rw [(put_ok stored).2, Function.update_of_ne other]

/-- Blobs survive a put. -/
theorem put_keeps {store after : CasHttpStore} {data : Bytes}
    {content_id : String} (stored : store.put data = .ok (content_id, after))
    {digest : Digest} {blob : Bytes} (found : store.blobs digest = some blob) :
    after.blobs digest = some blob := by
  by_cases same : digest = sha256_hex data
  · subst same
    unfold put at stored
    simp only [found] at stored
    split_ifs at stored with equal
    rw [← (Prod.mk.inj (Except.ok.inj stored)).2]
    exact found
  · rw [put_frame stored same]
    exact found

end CasHttpStore

inductive ResourceKind where
  | invoices
  | orders
  deriving DecidableEq, Repr

def ResourceKind.name : ResourceKind → String
  | .invoices => "invoices"
  | .orders => "orders"

/-- `resource_ldp_uri(kind, content_id, base_url=base_url)`. -/
def resource_ldp_uri (kind : ResourceKind) (content_id : String)
    (base_url : String) : Except Raised String := do
  let key ← content_id_fs_key content_id s!"{kind.name}_id"
  .ok (Text.rstripSlash base_url ++ s!"/ldp/{kind.name}/{key}")

/-- The files under `.cats/ldp/<kind>`, by stem. -/
structure JsonResourceStore where
  kind : ResourceKind
  files : String → Option Bytes

namespace JsonResourceStore

/-- `JsonResourceStore.put_bytes(content_id, data)`. -/
def put_bytes (store : JsonResourceStore) (content_id : String)
    (data : Bytes) : Except Raised JsonResourceStore := do
  let key ← content_id_fs_key content_id s!"{store.kind.name}_id"
  .ok { store with files := Function.update store.files key (some data) }

/-- `JsonResourceStore.get_bytes(content_id)`. -/
def get_bytes (store : JsonResourceStore) (content_id : String) :
    Except Raised (Option Bytes) :=
  (content_id_fs_key content_id s!"{store.kind.name}_id").map store.files

end JsonResourceStore

end Cats
