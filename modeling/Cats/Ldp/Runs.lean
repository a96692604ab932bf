import Cats.AddressStore.Get
import Cats.Cas.ContentId
import Cats.Cas.Interrupted
import Cats.Ldp.Resources

/-!
# Resources and the blobs they are named after

A sound Node keeps under a resource's key the blob of the digest the key
spells.  Every operation that publishes what it minted keeps a Node sound; the
Order publish of an execution does when writing the Order again gives back its
bytes.
-/

namespace Cats

open Effect

/-- The stores satisfy a condition. -/
def OnHome (condition : Home → Prop) (machine : Machine) : Prop :=
  ∃ home, machine.home = some home ∧ condition home

/-- Blobs hash to their names, resources are the blobs of their keys, the index
records claimed pairs only, and some blobs are known to be there. -/
structure Home.Sound (claims : String → String → Prop)
    (held : List (Digest × Bytes)) (home : Home) : Prop where
  intact : home.cas.Intact
  resources : ∀ kind key data, home.resources kind key = some data →
    ∃ digest, key = digest.hex ∧ home.cas.blobs digest = some data
  records : home.index.Records claims
  held : ∀ pair ∈ held, home.cas.blobs pair.1 = some pair.2

/-- Reading the bytes as JSON and writing them again changes nothing. -/
def Reencodes (data : Bytes) : Prop :=
  ∀ text order, readText data = .ok text → loadText text = .ok order →
    mintedBytes order = data

/-- What the Node minted itself it writes again as it was. -/
theorem reencodes_mintedBytes {obj : Json} (valid : obj.wellFormed = true)
    (floats : obj.withFloats = obj) : Reencodes (mintedBytes obj) := by
  intro text order decoded loaded
  have read := readJson_mintedBytes valid
  simp only [readJson, decoded, Except.bind, bind] at read
  cases parsed : Json.loads text with
  | none =>
      rw [parsed] at read
      cases read
  | some value =>
      rw [parsed] at read
      have same : value = obj := Except.ok.inj read
      rw [loadText, parsed] at loaded
      rw [← Except.ok.inj loaded, same, floats]

/-- The pairs the Node registers of its own accord: a blob or a resource under
its digest. -/
def Published (base_url content_id uri : String) : Prop :=
  ∃ digest, content_id = to_ni digest ∧ (uri = cas_ldp_uri digest base_url ∨
    ∃ kind, resource_ldp_uri kind digest.hex base_url = .ok uri)

theorem content_id_fs_key_hex (digest : Digest) (label : String) :
    content_id_fs_key digest.hex label = .ok digest.hex := by
  have nonempty : digest.hex ≠ "" := by
    intro empty
    have length := digest.length
    simp [empty] at length
  simp [content_id_fs_key, nonempty, Except.map]

theorem resource_ldp_uri_to_ni (kind : ResourceKind) (digest : Digest)
    (base_url : String) : resource_ldp_uri kind (to_ni digest) base_url =
      resource_ldp_uri kind digest.hex base_url := by
  simp only [resource_ldp_uri, content_id_fs_key_to_ni, content_id_fs_key_hex]

section Steps

variable {base_url : String} {claims : String → String → Prop}
  {held : List (Digest × Bytes)}

namespace Home.Sound

variable {home after : Home}

theorem mono {fewer : List (Digest × Bytes)} (sound : home.Sound claims held)
    (subset : ∀ pair ∈ fewer, pair ∈ held) : home.Sound claims fewer where
  intact := sound.intact
  resources := sound.resources
  records := sound.records
  held pair member := sound.held pair (subset pair member)

/-- A put adds the blob of its bytes. -/
theorem put {data : Bytes} {content_id : String} {cas : CasHttpStore}
    (sound : home.Sound claims held)
    (stored : home.cas.put data = .ok (content_id, cas)) :
    Home.Sound claims ((sha256_hex data, data) :: held)
      { home with cas := cas } where
  intact := by
    have kept := sound.intact.store data _ rfl
    intro digest blob found
    rw [(CasHttpStore.put_ok stored).2] at found
    exact kept digest blob found
  resources kind key blob found := by
    obtain ⟨digest, named, there⟩ := sound.resources kind key blob found
    exact ⟨digest, named, CasHttpStore.put_keeps stored there⟩
  records := sound.records
  held pair member := by
    rcases List.mem_cons.mp member with same | member
    · subst same
      show cas.blobs (sha256_hex data) = some data
      rw [(CasHttpStore.put_ok stored).2, Function.update_self]
    · exact CasHttpStore.put_keeps stored (sound.held pair member)

/-- Registering a claimed pair keeps the Node sound. -/
theorem register {content_id uri : String} {media_type : Option String}
    {index : LocatorIndex} (sound : home.Sound claims held)
    (claimed : ∀ id, LocatorIndex.canonical_id content_id = .ok id →
      claims id uri)
    (stored : home.index.put content_id uri media_type = .ok index) :
    Home.Sound claims held { home with index := index } where
  intact := sound.intact
  resources := sound.resources
  records := by
    apply (sound.records.put stored).mono
    intro id other recorded
    rcases recorded with before | ⟨same, equal⟩
    · exact before
    · rw [equal]
      exact claimed id same
  held := sound.held

/-- Storing a held blob under its key keeps the Node sound. -/
theorem putResource {kind : ResourceKind} {content_id : String}
    {digest : Digest} {obj : Json} {store : JsonResourceStore}
    (sound : home.Sound claims held)
    (keyed : content_id_fs_key content_id s!"{kind.name}_id" = .ok digest.hex)
    (there : home.cas.blobs digest = some (mintedBytes obj))
    (stored : (home.resourceStore kind).put content_id obj = .ok store) :
    Home.Sound claims held { home with
      resources := Function.update home.resources kind store.files } where
  intact := sound.intact
  resources other key data found := by
    simp only [JsonResourceStore.put, JsonResourceStore.put_bytes,
      Home.resourceStore, keyed, Except.bind, bind, Except.ok.injEq] at stored
    subst stored
    dsimp only at found
    by_cases sameKind : other = kind
    · subst sameKind
      rw [Function.update_self] at found
      by_cases sameKey : key = digest.hex
      · subst sameKey
        rw [Function.update_self, Option.some.injEq] at found
        exact ⟨digest, rfl, by rw [← found]; exact there⟩
      · rw [Function.update_of_ne sameKey] at found
        exact sound.resources other key data found
    · rw [Function.update_of_ne sameKind] at found
      exact sound.resources other key data found
  records := sound.records
  held := sound.held

end Home.Sound

theorem Act.withHome_run {α : Type} {step : Home → Except Raised (α × Home)}
    {machine : Machine} {home : Home} (local_home : machine.home = some home) :
    Act.withHome step machine =
      match step home with
      | .ok (value, after) => .ok value { machine with home := some after }
      | .error raised => .error raised machine := by
  unfold Act.withHome
  rw [bind_run_ok (get_run machine), local_home]
  dsimp only
  cases step home with
  | error raised => exact bind_run_error (throw_run raised machine)
  | ok pair =>
      exact (bind_run_ok (pure_run pair machine)).trans
        (bind_run_ok (modify_run _ machine))

theorem triple_withHome {α : Type} {step : Home → Except Raised (α × Home)}
    {before : Home → Prop} {after : α → Home → Prop} {raising : Home → Prop}
    (returns : ∀ home value changed, before home →
      step home = .ok (value, changed) → after value changed)
    (raises : ∀ home, before home → raising home) :
    Triple (OnHome before) (Act.withHome step)
      (fun value => OnHome (after value)) (OnHome raising) := by
  constructor
  · intro machine value later start ran
    obtain ⟨home, local_home, holds⟩ := start
    rw [Act.withHome_run local_home] at ran
    cases stepped : step home with
    | error raised =>
        rw [stepped] at ran
        cases ran
    | ok pair =>
        rw [stepped] at ran
        obtain ⟨sameValue, sameState⟩ := EStateM.Result.ok.inj ran
        refine ⟨pair.2, by rw [← sameState], ?_⟩
        apply returns home value pair.2 holds
        rw [stepped, ← sameValue]
  · intro machine raised later start ran
    obtain ⟨home, local_home, holds⟩ := start
    rw [Act.withHome_run local_home] at ran
    cases stepped : step home with
    | error other =>
        rw [stepped] at ran
        obtain ⟨_, sameState⟩ := EStateM.Result.error.inj ran
        exact ⟨home, by rw [← sameState]; exact local_home, raises home holds⟩
    | ok pair =>
        rw [stepped] at ran
        cases ran

theorem triple_withIndex {α : Type}
    {step : Option LocatorIndex → Except Raised (α × Option LocatorIndex)}
    {before : Home → Prop} {after : α → Home → Prop}
    (returns : ∀ home value index, before home →
      step (some home.index) = .ok (value, index) →
      after value (match index with
        | some index => { home with index := index }
        | none => home)) :
    Triple (OnHome before) (Act.withIndex step)
      (fun value => OnHome (after value)) (OnHome before) := by
  apply Triple.get_bind
  intro machine start
  obtain ⟨home, local_home, holds⟩ := start
  rw [local_home, Option.map_some]
  apply Triple.via fun pair state =>
    state = machine ∧ step (some home.index) = .ok pair
  · constructor
    · intro state pair later same ran
      obtain ⟨stepped, unchanged⟩ := lift_ok ran
      exact ⟨unchanged.trans same, stepped⟩
    · intro state raised later same ran
      refine ⟨home, ?_, holds⟩
      cases stepped : step (some home.index) with
      | error other =>
          rw [stepped] at ran
          rw [← (EStateM.Result.error.inj ran).2, same, local_home]
      | ok pair =>
          rw [stepped] at ran
          cases ran
  · intro pair
    obtain ⟨value, index⟩ := pair
    apply Triple.of_fact
    intro stepped
    apply Triple.via fun _ => OnHome (after value)
    · apply Triple.modify
      intro state same
      refine ⟨_, ?_, returns home value index holds stepped⟩
      dsimp only
      rw [same, local_home]
      cases index <;> rfl
    · intro _
      exact Triple.pure fun _ reached => reached

theorem triple_lift {α : Type} {before : Machine → Prop}
    {result : Except Raised α} :
    Triple before (Act.lift result)
      (fun value machine => before machine ∧ result = .ok value) before := by
  cases result with
  | error raised => exact Triple.throw fun _ holds => holds
  | ok value => exact Triple.pure fun _ holds => ⟨holds, rfl⟩

theorem canonical_id_to_ni (digest : Digest) :
    LocatorIndex.canonical_id (to_ni digest) = .ok (to_ni digest) := by
  simp [LocatorIndex.canonical_id, Except.map]

variable (own : ∀ id uri, Published base_url id uri → claims id uri)

include own

theorem triple_registerLocator {content_id uri : String}
    {media_type : Option String} {digest : Digest}
    (named : LocatorIndex.canonical_id content_id = .ok (to_ni digest))
    (published : Published base_url (to_ni digest) uri) :
    Triple (OnHome (Home.Sound claims held))
      (registerLocator content_id uri media_type)
      (fun _ => OnHome (Home.Sound claims held))
      (OnHome (Home.Sound claims held)) := by
  apply triple_withHome
  · intro home value changed sound stepped
    obtain ⟨index, stored, returned⟩ := Raised.bind_returns stepped
    obtain ⟨_, same⟩ := Prod.mk.inj (Except.ok.inj returned)
    rw [← same]
    apply sound.register _ stored
    intro id canonical
    rw [named] at canonical
    rw [← Except.ok.inj canonical]
    exact own _ _ published
  · exact fun _ sound => sound

/-- Minted bytes are held from then on, under the id that is returned. -/
theorem triple_put_bytes (data : Bytes) (media_type : Option String) :
    Triple (OnHome (Home.Sound claims held))
      (ContentMesh.put_bytes base_url data media_type)
      (fun content_id machine =>
        OnHome (Home.Sound claims ((sha256_hex data, data) :: held)) machine ∧
          content_id = to_ni (sha256_hex data))
      (OnHome (Home.Sound claims held)) := by
  apply Triple.via fun content_id => OnHome fun home =>
    home.Sound claims ((sha256_hex data, data) :: held) ∧
      content_id = to_ni (sha256_hex data)
  · apply triple_withHome
    · intro home value changed sound stepped
      obtain ⟨⟨content_id, cas⟩, stored, returned⟩ := Raised.bind_returns stepped
      obtain ⟨sameId, same⟩ := Prod.mk.inj (Except.ok.inj returned)
      rw [← same, ← sameId]
      exact ⟨sound.put stored, (CasHttpStore.put_ok stored).1⟩
    · exact fun _ sound => sound
  · intro content_id
    apply Triple.via fun _ => OnHome fun home =>
      home.Sound claims ((sha256_hex data, data) :: held) ∧
        content_id = to_ni (sha256_hex data)
    · apply triple_withHome
      · intro home value changed sound stepped
        obtain ⟨sound, named⟩ := sound
        obtain ⟨index, stored, returned⟩ := Raised.bind_returns stepped
        obtain ⟨_, same⟩ := Prod.mk.inj (Except.ok.inj returned)
        rw [← same]
        refine ⟨?_, named⟩
        rw [named] at stored
        simp only [LocatorIndex.put_cas_node_locator, is_ni_or_digest_to_ni,
          if_true, from_ni_to_ni, Except.bind, bind] at stored
        apply sound.register _ stored
        intro id canonical
        rw [canonical_id_to_ni] at canonical
        rw [← Except.ok.inj canonical]
        exact own _ _ ⟨sha256_hex data, rfl, .inl rfl⟩
      · exact fun _ sound => sound.1.mono fun pair member =>
          List.mem_cons_of_mem _ member
    · intro _
      apply Triple.pure
      intro machine reached
      obtain ⟨home, local_home, sound, named⟩ := reached
      exact ⟨⟨home, local_home, sound⟩, named⟩

theorem triple_put_json (obj : Json) :
    Triple (OnHome (Home.Sound claims held)) (ContentMesh.put_json base_url obj)
      (fun content_id machine =>
        OnHome (Home.Sound claims
          ((sha256_hex (mintedBytes obj), mintedBytes obj) :: held)) machine ∧
          content_id = to_ni (sha256_hex (mintedBytes obj)))
      (OnHome (Home.Sound claims held)) :=
  triple_put_bytes own (mintedBytes obj) (some "application/json")

omit own in
theorem triple_putResource {kind : ResourceKind} {content_id : String}
    {digest : Digest} {obj : Json}
    (keyed : content_id_fs_key content_id s!"{kind.name}_id" = .ok digest.hex)
    (member : (digest, mintedBytes obj) ∈ held) :
    Triple (OnHome (Home.Sound claims held)) (putResource kind content_id obj)
      (fun _ => OnHome (Home.Sound claims held))
      (OnHome (Home.Sound claims held)) := by
  apply triple_withHome
  · intro home value changed sound stepped
    obtain ⟨store, stored, returned⟩ := Raised.bind_returns stepped
    obtain ⟨_, same⟩ := Prod.mk.inj (Except.ok.inj returned)
    rw [← same]
    exact sound.putResource keyed (sound.held _ member) stored
  · exact fun _ sound => sound

omit own in
theorem published_resource {kind : ResourceKind} {content_id uri : String}
    {digest : Digest}
    (keyed : content_id_fs_key content_id s!"{kind.name}_id" = .ok digest.hex)
    (located : resource_ldp_uri kind content_id base_url = .ok uri) :
    Published base_url (to_ni digest) uri := by
  refine ⟨digest, rfl, .inr ⟨kind, ?_⟩⟩
  rw [← located, ← resource_ldp_uri_to_ni]
  simp only [resource_ldp_uri, keyed, content_id_fs_key_to_ni]

theorem triple_aside (aside : Aside)
    (claimed : ∀ value, aside = .intake value → ∀ id uri,
      (IndexEvent.intake value).Registers id uri → claims id uri) :
    Triple (OnHome (Home.Sound claims held)) (aside.act base_url)
      (fun _ => OnHome (Home.Sound claims held))
      (OnHome (Home.Sound claims held)) := by
  cases aside with
  | mint data media_type =>
      apply Triple.bind (triple_put_bytes own data media_type)
      intro content_id
      apply Triple.of_fact
      intro _
      apply Triple.pure
      intro machine reached
      obtain ⟨home, local_home, sound⟩ := reached
      exact ⟨home, local_home, sound.mono fun pair member =>
        List.mem_cons_of_mem _ member⟩
  | intake value =>
      apply Triple.via fun _ => OnHome (Home.Sound claims held)
      · apply triple_withIndex
        intro home id index sound resolved
        cases index with
        | none => exact sound
        | some index =>
            refine ⟨sound.intact, sound.resources, ?_, sound.held⟩
            apply (sound.records.intake resolved).mono
            intro other uri recorded
            rcases recorded with before | registers
            · exact before
            · exact claimed value rfl other uri registers
      · intro _
        exact Triple.pure fun _ reached => reached

theorem triple_asides (asides : List Aside)
    (claimed : ∀ value, Aside.intake value ∈ asides → ∀ id uri,
      (IndexEvent.intake value).Registers id uri → claims id uri) :
    Triple (OnHome (Home.Sound claims held)) (Aside.acts base_url asides)
      (fun _ => OnHome (Home.Sound claims held))
      (OnHome (Home.Sound claims held)) := by
  induction asides with
  | nil => exact Triple.pure fun _ sound => sound
  | cons aside asides induction =>
      apply Triple.bind (triple_aside own aside ?_)
      · intro _
        apply induction
        intro value member
        exact claimed value (List.mem_cons_of_mem _ member)
      · intro value same
        apply claimed value
        rw [same]
        exact List.mem_cons_self

omit own in
theorem forget {held fewer : List (Digest × Bytes)} (machine : Machine)
    (subset : ∀ pair ∈ fewer, pair ∈ held)
    (sound : OnHome (Home.Sound claims held) machine) :
    OnHome (Home.Sound claims fewer) machine := by
  obtain ⟨home, local_home, sound⟩ := sound
  exact ⟨home, local_home, sound.mono subset⟩

/-- An Order request publishes the two documents it mints. -/
theorem triple_orderRequest (invoice : Fields) (asides : List Aside)
    (order : String → Fields)
    (claimed : ∀ value, Aside.intake value ∈ asides → ∀ id uri,
      (IndexEvent.intake value).Registers id uri → claims id uri) :
    Triple (OnHome (Home.Sound claims []))
      (orderRequest base_url invoice asides order)
      (fun _ => OnHome (Home.Sound claims []))
      (OnHome (Home.Sound claims [])) := by
  have nothing : ∀ (held : List (Digest × Bytes)) (machine : Machine),
      OnHome (Home.Sound claims held) machine →
        OnHome (Home.Sound claims []) machine :=
    fun held machine => forget machine (by simp)
  apply Triple.bind (triple_put_json own (.obj invoice))
  intro invoice_id
  apply Triple.of_fact
  intro named
  subst named
  apply Triple.bind ((triple_asides own asides claimed).loosen (nothing _))
  intro _
  apply Triple.bind ((triple_put_json own _).loosen (nothing _))
  intro order_id
  apply Triple.of_fact
  intro named
  subst named
  have invoiceKey := content_id_fs_key_to_ni
    (sha256_hex (mintedBytes (.obj invoice)))
  apply Triple.bind ((triple_putResource (invoiceKey _)
    (by simp)).loosen (nothing _))
  intro _
  apply Triple.bind ((triple_putResource (content_id_fs_key_to_ni _ _)
    (by simp)).loosen (nothing _))
  intro _
  apply Triple.bind (triple_lift.loosen (nothing _))
  intro invoice_uri
  apply Triple.of_fact
  intro invoiceAt
  apply Triple.bind (triple_lift.loosen (nothing _))
  intro order_uri
  apply Triple.of_fact
  intro orderAt
  apply Triple.bind ((triple_registerLocator own (canonical_id_to_ni _)
    (published_resource (invoiceKey _) invoiceAt)).loosen (nothing _))
  intro _
  apply Triple.bind ((triple_registerLocator own (canonical_id_to_ni _)
    (published_resource (content_id_fs_key_to_ni _ _) orderAt)).loosen
      (nothing _))
  intro _
  exact Triple.pure (nothing _)

theorem triple_publishInvoice (invoice : Json) :
    Triple (OnHome (Home.Sound claims [])) (publishInvoice base_url invoice)
      (fun _ => OnHome (Home.Sound claims []))
      (OnHome (Home.Sound claims [])) := by
  have nothing : ∀ (held : List (Digest × Bytes)) (machine : Machine),
      OnHome (Home.Sound claims held) machine →
        OnHome (Home.Sound claims []) machine :=
    fun held machine => forget machine (by simp)
  apply Triple.bind (triple_put_json own invoice)
  intro invoice_id
  apply Triple.of_fact
  intro named
  subst named
  apply Triple.bind ((triple_putResource (content_id_fs_key_to_ni _ _)
    (by simp)).loosen (nothing _))
  intro _
  apply Triple.bind (triple_lift.loosen (nothing _))
  intro invoice_uri
  apply Triple.of_fact
  intro invoiceAt
  apply Triple.bind ((triple_registerLocator own (canonical_id_to_ni _)
    (published_resource (content_id_fs_key_to_ni _ _) invoiceAt)).loosen
      (nothing _))
  intro _
  exact Triple.pure (nothing _)

section Republish

variable (net : Network) {home : Home} {id : String}

omit own in
/-- Reading a digest whose blob is there yields the blob. -/
theorem cat_bytes_held {digest : Digest} {data : Bytes} {machine : Machine}
    (local_home : machine.home = some home) (intact : home.cas.Intact)
    (named : from_ni id = .ok digest)
    (there : home.cas.blobs digest = some data) :
    AddressStore.cat_bytes net id none machine = .ok data machine := by
  obtain ⟨notHttp, notHl, isDigest⟩ := notUri_of_from_ni named
  have stored : AddressStore.cas_local_bytes machine.home id =
      .ok (some data) := by
    simp only [local_home, AddressStore.cas_local_bytes, CasHttpStore.get,
      isDigest, if_true, named, Except.map, there]
  have located : AddressStore.locate net id machine =
      .ok (some data) machine := by
    unfold AddressStore.locate
    rw [bind_run_ok (get_run machine), stored]
    exact bind_run_ok (pure_run (some data) machine)
  simp only [AddressStore.cat_bytes, notHl, Bool.false_eq_true, if_false,
    AddressStore.catPlain, notHttp, isDigest, if_true]
  unfold AddressStore.catDigest
  rw [bind_run_ok located]
  dsimp only
  rw [named]
  refine (bind_run_ok (pure_run digest machine)).trans ?_
  rw [if_neg (not_not.mpr (intact digest data there))]
  rfl

omit own in
/-- An id that names a digest has its key. -/
theorem content_id_fs_key_of_named {digest : Digest}
    (named : from_ni id = .ok digest) (label : String) :
    content_id_fs_key id label = .ok digest.hex := by
  have isDigest : is_ni_or_digest (Text.strip id) = true :=
    (notUri_of_from_ni (from_ni_strip.mpr named)).2.2
  have nonempty : Text.strip id ≠ "" := by
    intro empty
    rw [empty] at isDigest
    revert isDigest
    decide
  simp only [content_id_fs_key, nonempty, if_false, isDigest, if_true,
    from_ni_strip.mpr named, Except.map]

omit own in
/-- A key comes from a digest, or from a legacy id, and those are never read. -/
theorem digest_or_unread {label key : String}
    (keyed : content_id_fs_key id label = .ok key) :
    (∃ digest, from_ni id = .ok digest ∧ key = digest.hex) ∨
      ∀ machine, ∃ raised, AddressStore.cat_bytes net id none machine =
        .error raised machine := by
  unfold content_id_fs_key at keyed
  dsimp only at keyed
  split_ifs at keyed with blank isDigest segment
  · cases named : from_ni (Text.strip id) with
    | error raised =>
        rw [named] at keyed
        cases keyed
    | ok digest =>
        rw [named, Except.map, Except.ok.injEq] at keyed
        exact .inl ⟨digest, from_ni_strip.mp named, keyed.symm⟩
  · right
    intro machine
    have noColon : ':' ∉ (Text.strip id).toList := by
      intro member
      simp only [isCidSegment, Bool.and_eq_true, List.all_eq_true] at segment
      have letter := segment.2 ':' member
      revert letter
      decide
    have starts : ∀ scheme : String, ':' ∈ scheme.toList →
        Text.startsWith (Text.lower (Text.strip id)) scheme = false := by
      intro scheme colon
      have absent := Text.startsWith_lower_of_noColon noColon colon
      rwa [Text.strip_strip] at absent
    have notHl : is_hl id = false := starts "hl:" (by decide)
    have notHttp : is_http_uri id = false := by
      simp only [is_http_uri, Bool.or_eq_false_iff]
      exact ⟨starts _ (by decide), starts _ (by decide)⟩
    have legacy : is_ni_or_digest id = false := by
      simpa [is_ni_or_digest] using isDigest
    exact ⟨_, by
      simp only [AddressStore.cat_bytes, notHl, AddressStore.catPlain, notHttp,
        legacy, Bool.false_eq_true, if_false]
      rfl⟩

omit own in
theorem triple_reads {α : Type} {action : Act α}
    (reads : AddressStore.Reads action) :
    Triple (fun machine => machine.home = some home) action
      (fun _ machine => machine.home = some home)
      (fun machine => machine.home = some home) := by
  constructor
  · intro machine value later same ran
    have related := reads machine
    rw [ran] at related
    exact related.home.trans same
  · intro machine raised later same ran
    have related := reads machine
    rw [ran] at related
    exact related.home.trans same

omit own in
/-- What reading the Order yields when its blob is there. -/
theorem triple_cat_held {digest : Digest} {data : Bytes}
    (intact : home.cas.Intact) (named : from_ni id = .ok digest)
    (there : home.cas.blobs digest = some data) :
    Triple (fun machine => machine.home = some home) (AddressStore.cat net id)
      (fun text machine => machine.home = some home ∧
        readText data = .ok text)
      (fun machine => machine.home = some home) := by
  apply Triple.via fun found machine =>
    machine.home = some home ∧ found = data
  · constructor
    · intro machine found later same ran
      rw [cat_bytes_held net same intact named there] at ran
      obtain ⟨sameData, sameState⟩ := EStateM.Result.ok.inj ran
      exact ⟨by rw [← sameState, same], sameData.symm⟩
    · intro machine raised later same ran
      rw [cat_bytes_held net same intact named there] at ran
      cases ran
  · intro found
    apply Triple.of_fact
    intro same
    rw [same]
    exact triple_lift

/-- The Order that was executed is stored under its key once more when writing
it again gives back its bytes. -/
theorem triple_republish (sound : home.Sound claims held)
    (faithful : ∀ digest, from_ni id = .ok digest →
      ∃ data, home.cas.blobs digest = some data ∧ Reencodes data) :
    Triple (fun machine => machine.home = some home)
      (republish base_url net id)
      (fun _ => OnHome (Home.Sound claims []))
      (OnHome (Home.Sound claims [])) := by
  have stays : ∀ machine : Machine, machine.home = some home →
      OnHome (Home.Sound claims []) machine :=
    fun machine same => ⟨home, same, sound.mono (by simp)⟩
  have nothing : ∀ (held : List (Digest × Bytes)) (machine : Machine),
      OnHome (Home.Sound claims held) machine →
        OnHome (Home.Sound claims []) machine :=
    fun held machine => forget machine (by simp)
  have reads := @triple_reads home _ _ (AddressStore.reads_cat net id)
  cases keyed : content_id_fs_key id s!"{ResourceKind.orders.name}_id" with
  | error raised =>
      -- no key, so nothing is stored
      apply Triple.bind (reads.loosen stays)
      intro text
      apply Triple.bind (triple_lift.loosen stays)
      intro order
      apply Triple.via fun _ _ => False
      · apply (@triple_withHome _ _ (· = home) (fun _ _ => False)
          (Home.Sound claims []) ?_ ?_).conseq
        · intro machine reached
          exact ⟨home, reached.1, rfl⟩
        · intro _ machine reached
          obtain ⟨_, _, impossible⟩ := reached
          exact impossible
        · intro other value changed _ stepped
          obtain ⟨store, stored, _⟩ := Raised.bind_returns stepped
          obtain ⟨key, found, _⟩ := Raised.bind_returns stored
          cases found.symm.trans keyed
        · intro other same
          rw [same]
          exact sound.mono (by simp)
      · exact fun _ => Triple.never
  | ok key =>
      rcases digest_or_unread net keyed with ⟨digest, named, same⟩ | unread
      · subst same
        obtain ⟨data, there, reencodes⟩ := faithful digest named
        apply Triple.bind
          ((triple_cat_held net sound.intact named there).loosen stays)
        intro text
        apply Triple.of_fact
        intro decoded
        apply Triple.bind (triple_lift.loosen stays)
        intro order
        apply Triple.of_fact
        intro loaded
        have same := reencodes text order decoded loaded
        have held : ∀ machine : Machine, machine.home = some home →
            OnHome (Home.Sound claims [(digest, mintedBytes order)]) machine := by
          intro machine local_home
          refine ⟨home, local_home, sound.intact, sound.resources,
            sound.records, ?_⟩
          intro pair member
          rw [List.mem_singleton.mp member, same]
          exact there
        apply Triple.bind (((triple_putResource keyed
          (by simp)).loosen (nothing _)).conseq held fun _ _ kept => kept)
        intro _
        apply Triple.bind (triple_lift.loosen (nothing _))
        intro order_uri
        apply Triple.of_fact
        intro located
        have canonical : LocatorIndex.canonical_id id = .ok (to_ni digest) := by
          simp only [LocatorIndex.canonical_id, (notUri_of_from_ni named).2.2,
            if_true, named, Except.map]
        apply Triple.bind ((triple_registerLocator own canonical
          (published_resource keyed located)).loosen (nothing _))
        intro _
        exact Triple.pure (nothing _)
      · apply Triple.via fun _ _ => False
        · apply Triple.via fun _ _ => False
          · constructor
            · intro machine data later same ran
              obtain ⟨raised, unable⟩ := unread machine
              rw [unable] at ran
              cases ran
            · intro machine raised later same ran
              obtain ⟨other, unable⟩ := unread machine
              rw [unable] at ran
              rw [← (EStateM.Result.error.inj ran).2]
              exact stays machine same
          · exact fun _ => Triple.never
        · exact fun _ => Triple.never

theorem triple_publishOrder (order_id : Option String)
    (sound : home.Sound claims held)
    (faithful : ∀ id digest, order_id = some id → from_ni id = .ok digest →
      ∃ data, home.cas.blobs digest = some data ∧ Reencodes data) :
    Triple (fun machine => machine.home = some home)
      (publishOrder base_url net order_id)
      (fun _ => OnHome (Home.Sound claims []))
      (OnHome (Home.Sound claims [])) := by
  unfold publishOrder
  cases given : order_id.filter (· ≠ "") with
  | none =>
      exact Triple.pure fun machine same =>
        ⟨home, same, sound.mono (by simp)⟩
  | some id =>
      obtain ⟨same, _⟩ := Option.filter_eq_some_iff.mp given
      apply Triple.tryCatch
      · apply Triple.bind (triple_republish own net sound
          fun digest named => faithful id digest same named)
        intro uri
        exact Triple.pure fun _ reached => reached
      · intro _
        exact Triple.pure fun _ reached => reached

end Republish

end Steps

end Cats
