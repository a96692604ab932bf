import Cats.AddressStore.Copy
import Cats.AddressStore.Peer
import Cats.Bom.Read
import Cats.Cas.ContentKey

/-!
# The projectors' fetch against the mesh's

A token is rewritten before it is read.  What the mesh reads at an `http(s)`
token is what its Node serves; what the rewritten token leads to is the Node's
own blob, or what the first registered locator that answers serves.  The two
agree exactly where the copy reached by the id is a good one.
-/

namespace Cats

open Effect

namespace BomRead

/-- A token as the mesh is given it: a URI has nothing around it. -/
def Token (token : String) : Prop :=
  is_http_uri token = true → Text.strip token = token

/-- The locator index holds what puts and intakes registered, listed in any
order. -/
def Indexed (machine : Machine) : Prop :=
  ∀ home ∈ machine.home, ∃ events, IndexRun events home.index

theorem fetch_key_of_notHttp {token : String} (index : Option LocatorIndex)
    (notHttp : is_http_uri token = false) :
    fetch_key index token = .ok (Text.strip token) := by
  have bareHttp : is_http_uri (Text.strip token) = false := by
    rw [← notHttp]
    simp [is_http_uri]
  unfold fetch_key
  dsimp only
  rw [bareHttp, if_neg Bool.false_ne_true, ite_self]

theorem ne_empty_of_http {token : String} (http : is_http_uri token = true) :
    token ≠ "" := by
  rintro rfl
  revert http
  decide

section Rewritten

variable {token : String} {index : Option LocatorIndex}
  (http : is_http_uri token = true) (alone : Text.strip token = token)

include http alone

theorem fetch_key_none (found : content_id_from_uri index token = .ok none) :
    fetch_key index token = .ok token := by
  unfold fetch_key
  dsimp only
  rw [alone, if_neg (ne_empty_of_http http), if_pos http, found]
  rfl

theorem fetch_key_some {id : String} (present : id ≠ "")
    (found : content_id_from_uri index token = .ok (some id)) :
    fetch_key index token = .ok id := by
  unfold fetch_key
  dsimp only
  rw [alone, if_neg (ne_empty_of_http http), if_pos http, found]
  simp [bind, Except.bind, Option.filter, present]

theorem fetch_key_error {raised : Raised}
    (refused : content_id_from_uri index token = .error raised) :
    fetch_key index token = .error raised := by
  unfold fetch_key
  dsimp only
  rw [alone, if_neg (ne_empty_of_http http), if_pos http, refused]
  rfl

end Rewritten

/-- An id a URI is rewritten to is the `ni:` id of a digest or names none. -/
theorem found_shape {machine : Machine} {token id : String}
    (indexed : Indexed machine)
    (found : content_id_from_uri (machine.home.map Home.index) token =
      .ok (some id)) :
    id ≠ "" ∧ Text.strip id = id ∧ is_http_uri id = false ∧
      ((∃ digest, id = to_ni digest) ∨
        is_ni_or_digest id = false ∧ ':' ∉ id.toList) := by
  have plain : ∀ {text : String}, ':' ∉ text.toList →
      is_http_uri text = false := by
    intro text colonless
    simp only [is_http_uri, Bool.or_eq_false_iff]
    exact ⟨Text.startsWith_lower_of_noColon colonless (by decide),
      Text.startsWith_lower_of_noColon colonless (by decide)⟩
  have digested : ∀ digest : Digest, to_ni digest ≠ "" ∧
      Text.strip (to_ni digest) = to_ni digest ∧
      is_http_uri (to_ni digest) = false ∧
      ((∃ other, to_ni digest = to_ni other) ∨
        is_ni_or_digest (to_ni digest) = false ∧
          ':' ∉ (to_ni digest).toList) := by
    intro digest
    exact ⟨to_ni_ne_empty digest, strip_to_ni digest, isHttp_to_ni digest,
      .inl ⟨digest, rfl⟩⟩
  unfold content_id_from_uri at found
  split_ifs at found with blank
  · cases found
  obtain ⟨path, parsed, found⟩ := Raised.bind_returns found
  cases matched : ldpContentKey? path with
  | some key =>
      rw [matched] at found
      dsimp only at found
      cases segment : digestSegment? (Text.lower key) with
      | some digest =>
          rw [segment] at found
          obtain rfl := Option.some.inj (Except.ok.inj found)
          exact digested digest
      | none =>
          rw [segment] at found
          obtain rfl := Option.some.inj (Except.ok.inj found)
          have colonless := colonless_of_ldpContentKey? matched
          exact ⟨(keyChars_of_ldpContentKey? matched).1,
            strip_of_ldpContentKey? matched, plain colonless,
            .inr ⟨notDigest_of_ldpContentKey? matched segment, colonless⟩⟩
  | none =>
      rw [matched] at found
      dsimp only at found
      cases place : machine.home with
      | none =>
          rw [place] at found
          cases found
      | some home =>
          rw [place] at found
          obtain ⟨events, run⟩ := indexed home place
          obtain ⟨registered, looked, found⟩ := Raised.bind_returns found
          cases registered with
          | none => cases found
          | some other =>
              dsimp only at found
              split_ifs at found with empty
              · cases found
              rcases (run.registers_of_find looked).2 with
                ⟨digest, rfl⟩ | ⟨legacy, segment⟩
              · rw [equalityOr, if_pos (is_ni_or_digest_to_ni digest),
                  equality_id_to_ni] at found
                obtain rfl := Option.some.inj (Except.ok.inj found)
                exact digested digest
              · rw [equalityOr, legacy, if_neg Bool.false_ne_true] at found
                obtain rfl := Option.some.inj (Except.ok.inj found)
                have colonless := AddressStore.colonless_of_segment segment
                exact ⟨empty, ContentId.strip_segment segment,
                  plain colonless, .inr ⟨legacy, colonless⟩⟩

variable {net : Network} {machine : Machine}

theorem fetchKey_run {token key : String}
    (rewritten : fetch_key (machine.home.map Home.index) token = .ok key) :
    fetchKey token machine = .ok key machine := by
  unfold fetchKey
  rw [bind_run_ok (get_run machine), rewritten]
  rfl

theorem fetch_bytes_of_key {token key : String}
    (rewritten : fetch_key (machine.home.map Home.index) token = .ok key) :
    fetch_bytes net token machine =
      AddressStore.cat_bytes net key none machine := by
  unfold fetch_bytes
  rw [bind_run_ok (fetchKey_run rewritten)]

/-- Where the id an `http(s)` token is rewritten to leads: nowhere else, or to a
good copy with the wanted bytes. -/
def Led (net : Network) (machine : Machine) (token : String)
    (wanted : Bytes → Prop) : Prop :=
  is_http_uri token = false ∨
  content_id_from_uri (machine.home.map Home.index) token = .ok none ∨
  ∃ digest data,
    content_id_from_uri (machine.home.map Home.index) token =
      .ok (some (to_ni digest)) ∧
    AddressStore.copyOf net machine digest = some data ∧
    sha256_hex data = digest ∧ wanted data

/-- The rewritten token reads wanted bytes, as the mesh does at the token
itself, exactly where its id leads to a good copy of them. -/
theorem fetch_bytes_iff {token : String} {data : Bytes} {after : Machine}
    {wanted : Bytes → Prop} (indexed : Indexed machine)
    (alone : Token token)
    (read : AddressStore.cat_bytes net token none machine = .ok data after)
    (fits : wanted data) :
    (∃ found other, fetch_bytes net token machine = .ok found other ∧
      wanted found) ↔ Led net machine token wanted := by
  cases http : is_http_uri token with
  | false =>
      obtain ⟨other, same⟩ := AddressStore.cat_bytes_strip net http read
      constructor
      · intro _
        exact .inl http
      · intro _
        have rewritten := fetch_key_of_notHttp
          (machine.home.map Home.index) http
        rw [fetch_bytes_of_key rewritten]
        exact ⟨data, other, same, fits⟩
  | true =>
      cases found : content_id_from_uri (machine.home.map Home.index) token with
      | error raised =>
          have refused := fetch_key_error http (alone http) found
          constructor
          · rintro ⟨bytes, other, ran, _⟩
            obtain ⟨key, middle, rewritten, _⟩ := bind_ok ran
            unfold fetchKey at rewritten
            rw [bind_run_ok (get_run machine), refused] at rewritten
            exact nomatch rewritten
          · rintro (notHttp | none | ⟨digest, bytes, some, _⟩)
            · rw [http] at notHttp
              exact nomatch notHttp
            · rw [found] at none
              exact nomatch none
            · rw [found] at some
              exact nomatch some
      | ok id =>
          cases id with
          | none =>
              constructor
              · intro _
                exact .inr (.inl found)
              · intro _
                rw [fetch_bytes_of_key (fetch_key_none http (alone http) found)]
                exact ⟨data, after, read, fits⟩
          | some id =>
              obtain ⟨present, _, _, shape⟩ := found_shape indexed found
              rw [fetch_bytes_of_key (fetch_key_some http (alone http) present found)]
              constructor
              · rintro ⟨bytes, other, ran, good⟩
                rcases shape with ⟨digest, rfl⟩ | ⟨legacy, colonless⟩
                · obtain ⟨copied, same⟩ := (AddressStore.cat_bytes_digest_iff
                    (from_ni_to_ni digest) machine bytes).mp ⟨other, ran⟩
                  exact .inr (.inr ⟨digest, bytes, found, copied, same, good⟩)
                · obtain ⟨raised, refused⟩ :=
                    AddressStore.cat_bytes_colonless net legacy colonless
                      machine
                  rw [refused] at ran
                  exact nomatch ran
              · rintro (notHttp | none | ⟨digest, bytes, some, reached⟩)
                · rw [http] at notHttp
                  exact nomatch notHttp
                · rw [found] at none
                  exact nomatch none
                · rw [found, Except.ok.injEq, Option.some.injEq] at some
                  subst some
                  obtain ⟨copied, same, good⟩ := reached
                  obtain ⟨other, ran⟩ := (AddressStore.cat_bytes_digest_iff
                    (from_ni_to_ni digest) machine bytes).mpr ⟨copied, same⟩
                  exact ⟨bytes, other, ran, good⟩

/-- A document is read off the bytes. -/
theorem make_fetch_ok_iff {token : String} {value : Json} :
    (∃ other, make_fetch net token machine = .ok value other) ↔
      ∃ data other, fetch_bytes net token machine = .ok data other ∧
        readJson data = .ok value := by
  constructor
  · rintro ⟨other, ran⟩
    obtain ⟨key, first, rewritten, ran⟩ := bind_ok ran
    obtain ⟨data, second, read, ran⟩ := bind_ok ran
    refine ⟨data, second, ?_, (lift_ok ran).1⟩
    unfold fetch_bytes
    rw [bind_run_ok rewritten, read]
  · rintro ⟨data, other, ran, parsed⟩
    obtain ⟨key, first, rewritten, ran⟩ := bind_ok ran
    refine ⟨other, ?_⟩
    unfold make_fetch ContentMesh.catDocument
    rw [bind_run_ok rewritten, bind_run_ok ran, parsed]
    rfl

/-- The projectors' fetch of a token the mesh reads returns the same document
exactly where the id of the token leads to a good copy of it. -/
theorem make_fetch_iff {token : String} {value : Json} {after : Machine}
    (indexed : Indexed machine) (alone : Token token)
    (read : ContentMesh.catDocument net token machine = .ok value after) :
    (∃ other, make_fetch net token machine = .ok value other) ↔
      Led net machine token (fun data => readJson data = .ok value) := by
  obtain ⟨data, middle, read, parsed⟩ := bind_ok read
  rw [make_fetch_ok_iff]
  exact fetch_bytes_iff indexed alone read (lift_ok parsed).1

/-- Rewriting a rewritten token changes nothing. -/
theorem fetch_key_idem {token key : String} (indexed : Indexed machine)
    (alone : Token token)
    (rewritten : fetch_key (machine.home.map Home.index) token = .ok key) :
    fetch_key (machine.home.map Home.index) key = .ok key := by
  cases http : is_http_uri token with
  | false =>
      rw [fetch_key_of_notHttp _ http, Except.ok.injEq] at rewritten
      have bareHttp : is_http_uri key = false := by
        rw [← http, ← rewritten]
        simp [is_http_uri]
      rw [fetch_key_of_notHttp _ bareHttp, ← rewritten, Text.strip_strip]
  | true =>
      cases found : content_id_from_uri (machine.home.map Home.index) token with
      | error raised =>
          rw [fetch_key_error http (alone http) found] at rewritten
          cases rewritten
      | ok id =>
          cases id with
          | none =>
              rw [fetch_key_none http (alone http) found,
                Except.ok.injEq] at rewritten
              subst rewritten
              exact fetch_key_none http (alone http) found
          | some id =>
              obtain ⟨present, stripped, notHttp, _⟩ :=
                found_shape indexed found
              rw [fetch_key_some http (alone http) present found,
                Except.ok.injEq] at rewritten
              subst rewritten
              rw [fetch_key_of_notHttp _ notHttp, stripped]

/-- A key fetched as a token is fetched as the token it came from. -/
theorem make_fetch_key {token : String} (indexed : Indexed machine)
    (alone : Token token) :
    (fetchKey token >>= make_fetch net) machine =
      make_fetch net token machine := by
  cases rewritten : fetch_key (machine.home.map Home.index) token with
  | error raised =>
      have refused : fetchKey token machine = .error raised machine := by
        unfold fetchKey
        rw [bind_run_ok (get_run machine), rewritten]
        rfl
      unfold make_fetch
      rw [bind_run_error refused, bind_run_error refused]
  | ok key =>
      have again := fetch_key_idem indexed alone rewritten
      rw [bind_run_ok (fetchKey_run rewritten)]
      unfold make_fetch
      rw [bind_run_ok (fetchKey_run rewritten), bind_run_ok
        (fetchKey_run again)]

/-- A computation that leaves the index alone leaves the Node alone. -/
theorem withIndex_run {α : Type} {value : α}
    {step : Option LocatorIndex → Except Raised (α × Option LocatorIndex)}
    (ran : step (machine.home.map Home.index) =
      .ok (value, machine.home.map Home.index)) :
    Act.withIndex step machine = .ok value machine := by
  unfold Act.withIndex
  rw [bind_run_ok (get_run machine), ran]
  obtain ⟨home, disk, writes, gets⟩ := machine
  cases home with
  | none => rfl
  | some home => rfl

theorem withIndex_error {α : Type} {raised : Raised}
    {step : Option LocatorIndex → Except Raised (α × Option LocatorIndex)}
    (refused : step (machine.home.map Home.index) = .error raised) :
    Act.withIndex step machine = .error raised machine := by
  unfold Act.withIndex
  rw [bind_run_ok (get_run machine), refused]
  rfl

/-- The token a slot is read by: its locator, else its legacy id. -/
def slotToken? (fields : Fields) (stem : String) : Option String :=
  match ref_uri fields stem with
  | some uri => some uri
  | none =>
      match legacyId fields stem with
      | .ok id => id.filter (· ≠ "")
      | .error _ => none

/-- How the mesh reads the document of a slot. -/
def slotDocument (net : Network) (parent : Json) (stem missing : String) :
    Act Json := do
  let locator ← ContentMesh.slotLocator parent stem missing
  ContentMesh.catDocument net locator

theorem strip_equalityOr {text found : String}
    (same : equalityOr (Text.strip text) = .ok found) :
    Text.strip found = found := by
  unfold equalityOr at same
  split_ifs at same with isDigest
  · unfold equality_id at same
    dsimp only at same
    rw [Text.strip_strip, isDigest, if_pos rfl] at same
    obtain ⟨digest, _, rfl⟩ := map_eq_ok.mp same
    exact strip_to_ni digest
  · rw [← Except.ok.inj same, Text.strip_strip]

/-- A legacy id is kept without blanks around it. -/
theorem strip_legacyId {fields : Fields} {stem id : String}
    (legacy : legacyId fields stem = .ok (some id)) : Text.strip id = id := by
  have given : ∀ {text : String},
      (equalityOr (Text.strip text)).map some = .ok (some id) →
        Text.strip id = id := by
    intro text same
    obtain ⟨found, kept, same⟩ := map_eq_ok.mp same
    obtain rfl := Option.some.inj same
    exact strip_equalityOr kept
  unfold legacyId at legacy
  dsimp only at legacy
  split at legacy
  · split_ifs at legacy
    · split at legacy
      · exact given legacy
      · cases legacy
    · cases legacy
    · exact given legacy
  · split_ifs at legacy
    · split at legacy
      · exact given legacy
      · cases legacy
    · cases legacy

theorem slotToken?_strip {fields : Fields} {stem token : String}
    (named : slotToken? fields stem = some token) : Token token := by
  intro _
  unfold slotToken? at named
  cases uri : ref_uri fields stem with
  | some given =>
      rw [uri] at named
      obtain rfl := Option.some.inj named
      exact (AddressStore.ref_uri_strip uri).1
  | none =>
      rw [uri] at named
      dsimp only at named
      cases legacy : legacyId fields stem with
      | error raised =>
          rw [legacy] at named
          exact nomatch named
      | ok id =>
          rw [legacy] at named
          dsimp only at named
          obtain ⟨same, _⟩ := Option.filter_eq_some_iff.mp named
          rw [same] at legacy
          exact strip_legacyId legacy

/-- Without a locator the index is not asked. -/
theorem ref_id_legacy {index : Option LocatorIndex} {fields : Fields}
    {stem : String} (uri : ref_uri fields stem = none) :
    ref_id index fields stem =
      (legacyId fields stem).map fun id => (id, index) := by
  unfold ref_id
  rw [uri]

/-- The token of a slot is what both sides read it by. -/
theorem slotLocator_ok {fields : Fields} {stem missing locator : String}
    {after : Machine}
    (located : ContentMesh.slotLocator (.obj fields) stem missing machine =
      .ok locator after) :
    slotToken? fields stem = some locator ∧ after = machine ∧
      stemToken (.obj fields) stem machine = .ok (some locator) machine := by
  have mapped : Act.lift (Json.obj fields).mapping machine =
      .ok fields machine := rfl
  unfold ContentMesh.slotLocator at located
  rw [bind_run_ok mapped] at located
  cases uri : ref_uri fields stem with
  | some given =>
      have named : slotToken? fields stem = some given := by
        unfold slotToken?
        rw [uri]
      have taken : stemToken (.obj fields) stem = pure (some given) := by
        unfold stemToken stem_uri
        dsimp only
        rw [uri]
      rw [uri] at located
      obtain ⟨rfl, rfl⟩ := EStateM.Result.ok.inj located
      exact ⟨named, rfl, by rw [taken]; rfl⟩
  | none =>
      have taken : stemToken (.obj fields) stem = (do
          let id ← stem_id (.obj fields) stem
          pure (id.filter (· ≠ ""))) := by
        unfold stemToken stem_uri
        dsimp only
        rw [uri]
      rw [uri] at located
      dsimp only at located
      obtain ⟨id, middle, found, located⟩ := bind_ok located
      unfold ContentMesh.slotId at found
      rw [bind_run_ok mapped] at found
      have asked := @ref_id_legacy (machine.home.map Home.index) _ _ uri
      cases legacy : legacyId fields stem with
      | error raised =>
          rw [legacy] at asked
          have ran : Act.withIndex (fun index => ref_id index fields stem)
              machine = .error raised machine := withIndex_error asked
          rw [ran] at found
          exact nomatch found
      | ok given =>
          rw [legacy] at asked
          have ran : Act.withIndex (fun index => ref_id index fields stem)
              machine = .ok given machine := withIndex_run asked
          rw [ran] at found
          obtain ⟨rfl, rfl⟩ := EStateM.Result.ok.inj found
          have named : slotToken? fields stem = given.filter (· ≠ "") := by
            unfold slotToken?
            rw [uri]
            dsimp only
            rw [legacy]
          have stems : stemToken (.obj fields) stem machine =
              .ok (given.filter (· ≠ "")) machine := by
            rw [taken, bind_run_ok (show stem_id (.obj fields) stem machine =
              .ok given machine from ran)]
            rfl
          unfold ContentMesh.required at located
          cases kept : given.filter (· ≠ "") with
          | none =>
              rw [kept] at located
              exact nomatch located
          | some token =>
              rw [kept] at located
              obtain ⟨rfl, rfl⟩ := EStateM.Result.ok.inj located
              rw [kept] at named stems
              exact ⟨named, rfl, stems⟩

theorem token_of_slotDocument {fields : Fields} {stem missing : String}
    {value : Json} {after : Machine}
    (read : slotDocument net (.obj fields) stem missing machine =
      .ok value after) :
    ∃ token, slotToken? fields stem = some token ∧ Token token ∧
      stemToken (.obj fields) stem machine = .ok (some token) machine ∧
      ContentMesh.catDocument net token machine = .ok value after := by
  obtain ⟨locator, middle, located, fetched⟩ := bind_ok read
  obtain ⟨named, rfl, taken⟩ := slotLocator_ok located
  exact ⟨locator, named, slotToken?_strip named, taken, fetched⟩

/-- What a projector sees in a slot: the document inlined there, else where the
token of the slot leads. -/
def SlotLed (net : Network) (machine : Machine) (fields : Fields)
    (stem : String) (value : Json) : Prop :=
  match flatDocument? fields stem with
  | some document => value = .obj document
  | none => ∃ token ∈ slotToken? fields stem,
      Led net machine token fun data => readJson data = .ok value

/-- A projector sees the document the mesh reads in a slot exactly where it is
the one inlined there or the token leads to a good copy of it. -/
theorem from_flat_or_fetch_iff {fields : Fields} {stem missing : String}
    {value : Json} {after : Machine} (indexed : Indexed machine)
    (read : slotDocument net (.obj fields) stem missing machine =
      .ok value after) :
    (∃ other, from_flat_or_fetch (.obj fields) stem (some (make_fetch net))
        machine = .ok value other) ↔
      SlotLed net machine fields stem value := by
  obtain ⟨token, named, alone, taken, read⟩ := token_of_slotDocument read
  unfold from_flat_or_fetch SlotLed
  dsimp only
  cases flatDocument? fields stem with
  | some document =>
      constructor
      · rintro ⟨other, ran⟩
        exact (EStateM.Result.ok.inj ran).1.symm
      · rintro rfl
        exact ⟨machine, rfl⟩
  | none =>
      dsimp only
      rw [bind_run_ok taken]
      dsimp only
      have fetched := @make_fetch_key net _ _ indexed alone
      change (∃ other, (fetchKey token >>= make_fetch net) machine = _) ↔ _
      rw [fetched, make_fetch_iff indexed alone read]
      constructor
      · intro led
        exact ⟨token, named, led⟩
      · rintro ⟨other, same, led⟩
        rw [named, Option.mem_def, Option.some.injEq] at same
        rwa [← same] at led

/-- For every network and every Node whose index its own runs filled: where
the mesh reads a document by a token or in a slot, the projectors' fetch returns
it exactly where the id of the token leads to a good copy of it. -/
theorem fetch_refines_mesh_iff (net : Network) (machine : Machine)
    (indexed : Indexed machine) :
    (∀ token value after, Token token →
      ContentMesh.catDocument net token machine = .ok value after →
      ((∃ other, make_fetch net token machine = .ok value other) ↔
        Led net machine token fun data => readJson data = .ok value)) ∧
    ∀ fields stem missing value after,
      slotDocument net (.obj fields) stem missing machine = .ok value after →
      ((∃ other, from_flat_or_fetch (.obj fields) stem
          (some (make_fetch net)) machine = .ok value other) ↔
        SlotLed net machine fields stem value) := by
  constructor
  · intro token value after alone read
    exact make_fetch_iff indexed alone read
  · intro fields stem missing value after read
    exact from_flat_or_fetch_iff indexed read

section Peer

open AddressStore

variable {base_url : String} {raw : Bytes} {stores : Home}

theorem indexed_fresh (fresh : Fresh machine stores) : Indexed machine := by
  intro home place
  obtain rfl : stores = home := by
    rw [fresh.home] at place
    exact Option.some.inj place
  exact ⟨[], by rw [fresh.index]; exact .start⟩

/-- The locator of a blob gives its digest. -/
theorem content_id_from_uri_peer {index : Option LocatorIndex}
    (served : BlobServed net (sha256_hex raw) base_url raw)
    (alone : Token (cas_ldp_uri (sha256_hex raw) base_url)) :
    content_id_from_uri index (cas_ldp_uri (sha256_hex raw) base_url) =
      .ok (some (to_ni (sha256_hex raw))) := by
  have key := ldpContentKey?_of_cas
    (casPathDigest?_cas_ldp_path (sha256_hex raw))
  have segment : digestSegment? (sha256_hex raw).hex =
      some (sha256_hex raw) := by
    simp [digestSegment?]
  unfold content_id_from_uri
  rw [alone served.http, served.path, served.http]
  simp [ne_empty_of_http served.http, key, segment, bind, Except.bind]

/-- A document only a peer holds is read by the mesh and not by the projectors'
fetch. -/
theorem peer_document_unfetched {value : Json} (fresh : Fresh machine stores)
    (served : BlobServed net (sha256_hex raw) base_url raw)
    (alone : Token (cas_ldp_uri (sha256_hex raw) base_url))
    (parsed : readJson raw = .ok value) :
    (∃ after, ContentMesh.catDocument net
        (cas_ldp_uri (sha256_hex raw) base_url) machine = .ok value after) ∧
      ∀ found other, make_fetch net (cas_ldp_uri (sha256_hex raw) base_url)
        machine ≠ .ok found other := by
  constructor
  · unfold ContentMesh.catDocument
    rw [bind_run_ok (cat_bytes_peer fresh served), parsed]
    exact ⟨_, rfl⟩
  · intro found other ran
    have found := @content_id_from_uri_peer _ _ _
      (machine.home.map Home.index) served alone
    have rewritten := fetch_key_some served.http (alone served.http)
      (to_ni_ne_empty _) found
    unfold make_fetch ContentMesh.catDocument at ran
    rw [bind_run_ok (fetchKey_run rewritten)] at ran
    obtain ⟨data, middle, read, _⟩ := bind_ok ran
    exact cat_bytes_absent fresh _ read

/-- The locator of an empty manifest at its Node. -/
def peerManifestUri : String := cas_ldp_uri emptyManifestDigest "http://a"

theorem token_peerManifestUri : Token peerManifestUri := by
  intro _
  decide +kernel

theorem readJson_emptyManifest :
    readJson emptyManifest = .ok (manifestDocument []).sortKeys :=
  readJson_sortedDocument (by decide)

/-- The network on which a peer serves the manifest. -/
abbrev manifestNetwork : Network := peerNetwork emptyTreeStore

theorem served_peerManifest : BlobServed manifestNetwork
    (sha256_hex emptyManifest) "http://a" emptyManifest := by
  rw [sha256_emptyManifest]
  exact served_emptyTree _ _ (by simp [emptyTreeStore])

theorem peerManifest_unfetched :
    (∃ after, ContentMesh.catDocument manifestNetwork peerManifestUri
        freshMachine = .ok (manifestDocument []).sortKeys after) ∧
      ∀ found other, make_fetch manifestNetwork peerManifestUri
        freshMachine ≠ .ok found other := by
  obtain ⟨stores, fresh⟩ := fresh_freshMachine
  have alone := token_peerManifestUri
  unfold peerManifestUri at alone ⊢
  rw [← sha256_emptyManifest] at alone ⊢
  exact peer_document_unfetched fresh served_peerManifest alone
    readJson_emptyManifest

/-- A slot that cites the manifest at its Node. -/
def peerManifestSlot : Fields := [("plant_uri", .str peerManifestUri)]

theorem slotDocument_peerManifest {after : Machine}
    (read : ContentMesh.catDocument manifestNetwork peerManifestUri
      freshMachine = .ok (manifestDocument []).sortKeys after) :
    slotDocument manifestNetwork (.obj peerManifestSlot) "plant" "missing"
      freshMachine = .ok (manifestDocument []).sortKeys after := by
  have field : uri_field_name "plant" = "plant_uri" := by decide +kernel
  have present : peerManifestUri ≠ "" := by decide +kernel
  have alone : Text.strip peerManifestUri = peerManifestUri := by
    decide +kernel
  have uri : ref_uri peerManifestSlot "plant" = some peerManifestUri := by
    simp [ref_uri, field, peerManifestSlot, alone, present]
  have located : ContentMesh.slotLocator (.obj peerManifestSlot) "plant"
      "missing" freshMachine = .ok peerManifestUri freshMachine := by
    unfold ContentMesh.slotLocator
    rw [bind_run_ok (show Act.lift (Json.obj peerManifestSlot).mapping
      freshMachine = .ok peerManifestSlot freshMachine from rfl), uri]
    rfl
  unfold slotDocument
  rw [bind_run_ok located]
  exact read

theorem fetch_refines_mesh_iff_peer :
    ((∃ other, make_fetch manifestNetwork peerManifestUri freshMachine =
        .ok (manifestDocument []).sortKeys other) ↔
      Led manifestNetwork freshMachine peerManifestUri fun data =>
        readJson data = .ok (manifestDocument []).sortKeys) ∧
    ((∃ other, from_flat_or_fetch (.obj peerManifestSlot) "plant"
        (some (make_fetch manifestNetwork)) freshMachine =
        .ok (manifestDocument []).sortKeys other) ↔
      SlotLed manifestNetwork freshMachine peerManifestSlot "plant"
        (manifestDocument []).sortKeys) := by
  obtain ⟨stores, fresh⟩ := fresh_freshMachine
  obtain ⟨⟨after, read⟩, _⟩ := peerManifest_unfetched
  have refines := fetch_refines_mesh_iff manifestNetwork freshMachine
    (indexed_fresh fresh)
  constructor
  · exact refines.1 _ _ after token_peerManifestUri read
  · exact refines.2 _ _ "missing" _ after (slotDocument_peerManifest read)

/-- The manifest a peer serves is read by the mesh and not by the projectors'
fetch. -/
theorem peer_manifest_unfetched :
    ¬ ∀ (net : Network) (machine : Machine), Indexed machine →
      ∀ (token : String) (value : Json) (after : Machine), Token token →
        ContentMesh.catDocument net token machine = .ok value after →
        ∃ other, make_fetch net token machine = .ok value other := by
  intro refines
  obtain ⟨stores, fresh⟩ := fresh_freshMachine
  obtain ⟨⟨after, read⟩, unfetched⟩ := peerManifest_unfetched
  obtain ⟨other, ran⟩ := refines _ _ (indexed_fresh fresh) _ _ after
    token_peerManifestUri read
  exact unfetched _ other ran

end Peer

end BomRead

end Cats
