import Cats.AddressStore.Frame
import Cats.AddressStore.Verified

/-!
# The id of a slot and the bytes of its locator

`ref_id` reads a digest off the path of any LDP collection in any letter case,
or off a legacy field; `cat_bytes` compares only for the lower-case CAS path
and for URIs the locator index knows.  The two agree for every store and
network exactly when the comparison is with the same digest.
-/

namespace Cats

open Effect

namespace AddressStore

/-- When the locator of a slot can only yield bytes of the slot's digest. -/
def Compared (index : Option LocatorIndex) (uri : String) (digest : Digest) :
    Prop :=
  is_http_uri uri = false ∨
  (∃ path, Url.path uri = .ok path ∧ casPathDigest? path = some digest) ∨
  ∀ found, indexedDigest index uri = .ok found →
    ∃ named, found = some named ∧
      (named = digest ∨ ∀ bytes, sha256_hex bytes ≠ named)

theorem ref_uri_strip {obj : Fields} {stem uri : String}
    (slot : ref_uri obj stem = some uri) : Text.strip uri = uri ∧ uri ≠ "" := by
  unfold ref_uri at slot
  split at slot
  · split_ifs at slot with blank
    have same := Option.some.inj slot
    rw [← same]
    exact ⟨Text.strip_strip _, blank⟩
  · exact nomatch slot

theorem isAlphanum_of_hex {character : Char}
    (hex : Hex.isDigit character = true) : character.isAlphanum = true := by
  have table : Hex.digits.all Char.isAlphanum = true := by decide
  exact List.all_eq_true.mp table character (by simpa [Hex.isDigit] using hex)

/-- A lower-case CAS path has its digest as content key. -/
theorem ldpContentKey?_of_cas {path : String} {digest : Digest}
    (named : casPathDigest? path = some digest) :
    ldpContentKey? path = some digest.hex := by
  unfold casPathDigest? at named
  cases key : pathAfter? "/ldp/cas/" path with
  | none => simp [key] at named
  | some text =>
      simp only [key] at named
      split_ifs at named with valid
      have same : text = digest.hex := by rw [← Option.some.inj named]
      subst same
      have nonempty : digest.hex ≠ "" := by
        intro empty
        have length := digest.length
        simp [empty] at length
      have symbols : digest.hex.toList.all (fun character =>
          character.isAlphanum || character = '_' || character = '-') =
            true := by
        rw [List.all_eq_true]
        intro character member
        simp [isAlphanum_of_hex (digest.isDigit character member)]
      simp [ldpContentKey?, key, Option.filter, nonempty, symbols]

/-- What is known of a slot with an `http(s)` locator whose id was read. -/
theorem path_of_ref_id {index after : Option LocatorIndex} {obj : Fields}
    {stem uri id : String} (slot : ref_uri obj stem = some uri)
    (http : is_http_uri uri = true)
    (resolved : ref_id index obj stem = .ok (some id, after)) :
    ∃ path, Url.path uri = .ok path ∧
      ∀ digest, casPathDigest? path = some digest → id = to_ni digest := by
  obtain ⟨stripped, nonempty⟩ := ref_uri_strip slot
  have notHl := notHashlink_of_http http
  simp only [ref_id, slot, notHl, Bool.false_eq_true, if_false, http,
    if_true, content_id_from_uri, nonempty, decide_false, Bool.not_true,
    Bool.or_self, stripped] at resolved
  cases parsed : Url.path uri with
  | error raised => simp [parsed, Except.bind, bind] at resolved
  | ok path =>
      refine ⟨path, rfl, ?_⟩
      intro digest named
      have key := ldpContentKey?_of_cas named
      have segment : digestSegment? (Text.lower digest.hex) = some digest := by
        simp [digestSegment?]
      simp only [parsed, Except.bind, bind, key, segment, Except.ok.injEq,
        Prod.mk.injEq, Option.some.injEq] at resolved
      exact resolved.1.symm

/-- Reading any other locator reads by the digest of the slot. -/
theorem names_of_ref_id {index after : Option LocatorIndex} {obj : Fields}
    {stem uri id : String} {digest : Digest}
    (slot : ref_uri obj stem = some uri) (notHttp : is_http_uri uri = false)
    (resolved : ref_id index obj stem = .ok (some id, after))
    (named : from_ni id = .ok digest) : NamesDigest digest uri := by
  obtain ⟨stripped, nonempty⟩ := ref_uri_strip slot
  by_cases linked : is_hl uri = true
  · cases parsed : from_hl (Text.strip uri) with
    | error raised =>
        rw [stripped] at parsed
        simp only [ref_id, slot, linked, if_true, resolve_intake_ref,
          stripped, nonempty, if_false, parsed, Except.bind, bind] at resolved
        split_ifs at resolved
        simp at resolved
    | ok pair =>
        obtain ⟨ni, uris⟩ := pair
        have sameId : id = ni := by
          rw [stripped] at parsed
          simp only [ref_id, slot, linked, if_true, resolve_intake_ref,
            stripped, nonempty, if_false, parsed, Except.bind, bind]
            at resolved
          cases index with
          | none =>
              simp only [Except.ok.injEq, Prod.mk.injEq,
                Option.some.injEq] at resolved
              exact resolved.1.symm
          | some home =>
              cases registered : registerHints ni uris home with
              | error raised =>
                  simp only [registered] at resolved
                  split_ifs at resolved
                  simp at resolved
              | ok updated =>
                  simp only [registered, Except.ok.injEq, Prod.mk.injEq,
                    Option.some.injEq] at resolved
                  exact resolved.1.symm
        obtain ⟨other, sameNi, read⟩ := from_ni_from_hl parsed
        rw [sameId, read] at named
        rw [sameNi, Except.ok.inj named] at parsed
        exact .hashlink linked parsed
  · rw [Bool.not_eq_true] at linked
    simp only [ref_id, slot, linked, notHttp, Bool.false_eq_true, if_false,
      stripped, equalityOr] at resolved
    by_cases isDigest : is_ni_or_digest uri = true
    · simp only [isDigest, if_true, equality_id, stripped] at resolved
      cases read : from_ni uri with
      | error raised => simp [read, Except.map] at resolved
      | ok found =>
          simp only [read, Except.map, Except.ok.injEq, Prod.mk.injEq,
            Option.some.injEq] at resolved
          rw [← resolved.1, from_ni_to_ni] at named
          rw [Except.ok.inj named] at read
          exact .plain read
    · simp only [isDigest, Bool.false_eq_true, if_false, Except.map,
        Except.ok.injEq, Prod.mk.injEq, Option.some.injEq] at resolved
      exact .plain (resolved.1 ▸ named)

/-- What a returned HTTP read compared with. -/
theorem catHttp_ok {net : Network} {uri : String}
    {expect_digest : Option String} {machine after : Machine} {bytes : Bytes}
    (returned : catHttp net uri expect_digest machine = .ok bytes after) :
    ∃ found, resolve_expect_digest (machine.home.map Home.index) uri
        expect_digest = .ok found ∧
      ∀ digest, found = some digest → sha256_hex bytes = digest := by
  obtain ⟨⟨data, pathDigest⟩, fetched, fetchRan, rest⟩ := bind_ok returned
  have same := same_of_ok (reads_fetchUri net uri) fetchRan
  obtain ⟨state, middle, gotten, rest⟩ := bind_ok rest
  simp only [get_run, EStateM.Result.ok.injEq] at gotten
  obtain ⟨found, last, resolved, rest⟩ := bind_ok rest
  obtain ⟨resolved, _⟩ := lift_ok resolved
  rw [← gotten.1, same.home] at resolved
  refine ⟨found, resolved, ?_⟩
  rintro digest rfl
  change (if sha256_hex data ≠ digest then throw _ else pure data : Act Bytes)
    last = _ at rest
  split_ifs at rest with different
  · simp at rest
  · simp only [pure_run, EStateM.Result.ok.injEq] at rest
    rw [← rest.1]
    exact not_not.mp different

/-- A fresh store with a given index, and a network with one answer. -/
def bareMachine (index : Option LocatorIndex) : Machine :=
  { home := index.map fun index =>
      { cas := .empty
        resources := fun _ _ => none
        index := index }
    disk := fun _ => none
    writes := []
    gets := 0 }

def answering (data : Bytes) : Network := { answer := fun _ _ => some data }

@[simp] theorem bareMachine_index (index : Option LocatorIndex) :
    (bareMachine index).home.map Home.index = index := by
  cases index <;> rfl

/-- A store without resources serves no path of one. -/
theorem localResource_bare (index : LocatorIndex) (kind : ResourceKind)
    {path key : String} (named : resourcePathKey? kind path = some key) :
    localResource ⟨.empty, fun _ _ => none, index⟩ kind key = .ok none := by
  have segment : isCidSegment key = true := by
    rw [resourcePathKey?, Option.filter_eq_some_iff] at named
    exact named.2
  obtain ⟨found, keyed⟩ := content_id_fs_key_segment segment
    s!"{kind.name}_id"
  simp only [localResource, Home.resourceStore, JsonResourceStore.get_bytes,
    keyed, Except.map, Option.map_none]

theorem local_ldp_bytes_bare {index : Option LocatorIndex} {uri path : String}
    (parsed : Url.path uri = .ok path) :
    local_ldp_bytes (bareMachine index).home uri = .ok none := by
  cases index with
  | none => rfl
  | some index =>
      simp only [bareMachine, Option.map_some, local_ldp_bytes, parsed,
        Except.bind, bind, localLdp]
      cases casPathDigest? path with
      | some digest => rfl
      | none =>
          cases invoice : resourcePathKey? .invoices path with
          | some key => exact localResource_bare index .invoices invoice
          | none =>
              cases order : resourcePathKey? .orders path with
              | some key => exact localResource_bare index .orders order
              | none => rfl

/-- What a network answers is returned when the comparison allows it. -/
theorem catHttp_bare {index : Option LocatorIndex} {uri path : String}
    {found : Option Digest} {data : Bytes} (parsed : Url.path uri = .ok path)
    (resolved : resolve_expect_digest index uri none = .ok found)
    (allowed : ∀ digest, found = some digest → sha256_hex data = digest) :
    ∃ after, catHttp (answering data) uri none (bareMachine index) =
      .ok data after := by
  refine ⟨{ bareMachine index with gets := 1 }, ?_⟩
  have fetched : fetchUri (answering data) uri (bareMachine index) =
      .ok (data, none) { bareMachine index with gets := 1 } := by
    unfold fetchUri
    rw [bind_run_ok (get_run _), local_ldp_bytes_bare parsed]
    rfl
  unfold catHttp
  rw [bind_run_ok fetched]
  simp only []
  rw [bind_run_ok (get_run _)]
  have sameIndex : ({ bareMachine index with gets := 1 } : Machine).home.map
      Home.index = index := bareMachine_index index
  rw [sameIndex, resolved]
  simp only [Act.lift]
  rw [bind_run_ok (pure_run found _)]
  cases found with
  | none => rfl
  | some digest =>
      change (if sha256_hex data ≠ digest then throw _ else pure data :
        Act Bytes) _ = _
      rw [if_neg (not_not.mpr (allowed digest rfl))]
      rfl

/-- No digest is the sha256 of every byte string. -/
theorem exists_other_bytes (digest : Digest) :
    ∃ bytes, sha256_hex bytes ≠ digest := by
  by_contra all
  have same : sha256_hex [] = sha256_hex [0] := by
    rw [not_exists] at all
    exact (not_not.mp (all [])).trans (not_not.mp (all [0])).symm
  revert same
  decide +kernel

/-- The id a slot is given and the bytes its locator yields agree, for every
store and every network, exactly when the read compares with that id. -/
theorem ref_id_agrees_with_bytes_iff {index after : Option LocatorIndex}
    {obj : Fields} {stem uri id : String} {digest : Digest}
    (slot : ref_uri obj stem = some uri)
    (resolved : ref_id index obj stem = .ok (some id, after))
    (named : from_ni id = .ok digest) :
    (∀ (net : Network) (machine final : Machine) (bytes : Bytes),
      machine.home.map Home.index = index →
      cat_bytes net uri none machine = .ok bytes final →
        sha256_hex bytes = digest) ↔ Compared index uri digest := by
  constructor
  · intro agree
    by_cases http : is_http_uri uri = true
    · obtain ⟨path, parsed, keyed⟩ := path_of_ref_id slot http resolved
      refine .inr ?_
      cases cas : casPathDigest? path with
      | some other =>
          refine .inl ⟨path, parsed, ?_⟩
          rw [keyed other cas, from_ni_to_ni] at named
          rw [cas, Except.ok.inj named]
      | none =>
          refine .inr ?_
          intro found indexed
          have expected : resolve_expect_digest index uri none = .ok found := by
            simp only [resolve_expect_digest, Option.filter, parsed, cas,
              Except.bind, bind, indexed]
          have notHl := notHashlink_of_http http
          have returns : ∀ data,
              (∀ other, found = some other → sha256_hex data = other) →
                sha256_hex data = digest := by
            intro data allowed
            obtain ⟨final, ran⟩ := catHttp_bare parsed expected allowed
            refine agree (answering data) (bareMachine index) final data
              (bareMachine_index index) ?_
            simpa only [cat_bytes, notHl, Bool.false_eq_true, if_false,
              catPlain, http, if_true] using ran
          cases found with
          | none =>
              obtain ⟨data, different⟩ := exists_other_bytes digest
              exact absurd (returns data (by rintro other ⟨⟩)) different
          | some other =>
              refine ⟨other, rfl, ?_⟩
              by_cases reached : ∃ bytes, sha256_hex bytes = other
              · obtain ⟨data, hash⟩ := reached
                refine .inl ?_
                rw [← hash]
                exact returns data (by rintro _ ⟨rfl⟩; exact hash)
              · exact .inr fun bytes hash => reached ⟨bytes, hash⟩
    · exact .inl (by simpa using http)
  · rintro compared net machine final bytes sameIndex returned
    rcases compared with notHttp | ⟨path, parsed, cas⟩ | known
    · exact ensures_cat_bytes net
        (.named (names_of_ref_id slot notHttp resolved named)) machine bytes
        final returned
    · by_cases http : is_http_uri uri = true
      · exact ensures_cat_bytes net (.path http parsed cas) machine bytes final
          returned
      · exact ensures_cat_bytes net (.named (names_of_ref_id slot
          (by simpa using http) resolved named)) machine bytes final returned
    · by_cases http : is_http_uri uri = true
      · obtain ⟨path, parsed, keyed⟩ := path_of_ref_id slot http resolved
        have notHl := notHashlink_of_http http
        simp only [cat_bytes, notHl, Bool.false_eq_true, if_false, catPlain,
          http, if_true] at returned
        obtain ⟨found, expected, hash⟩ := catHttp_ok returned
        rw [sameIndex] at expected
        cases cas : casPathDigest? path with
        | some other =>
            rw [resolve_path parsed cas] at expected
            rw [keyed other cas, from_ni_to_ni] at named
            rw [← Except.ok.inj named]
            exact hash other (Except.ok.inj expected).symm
        | none =>
            simp only [resolve_expect_digest, Option.filter, parsed, cas,
              Except.bind, bind] at expected
            obtain ⟨other, rfl, same | unreached⟩ := known found expected
            · rw [← same]
              exact hash other rfl
            · exact absurd (hash other rfl) (unreached bytes)
      · exact ensures_cat_bytes net (.named (names_of_ref_id slot
          (by simpa using http) resolved named)) machine bytes final returned

/-- The digest of sixty-four zeros. -/
def zeroDigest : Digest :=
  { hex := "0000000000000000000000000000000000000000000000000000000000000000"
    valid := by decide +kernel }

/-- The locator of a BOM resource a peer serves. -/
def peerBomUri : String := "http://peer:5000/ldp/boms/" ++ zeroDigest.hex

def peerBomSlot : Fields := [("invoice_uri", .str peerBomUri)]

theorem peerBomUri_path :
    Url.path peerBomUri = .ok ("/ldp/boms/" ++ zeroDigest.hex) := by
  decide +kernel

/-- A content path with a digest key gives the slot that digest. -/
theorem ref_id_of_key {index : Option LocatorIndex} {obj : Fields}
    {stem uri path key : String} {digest : Digest}
    (slot : ref_uri obj stem = some uri) (http : is_http_uri uri = true)
    (parsed : Url.path uri = .ok path) (keyed : ldpContentKey? path = some key)
    (segment : digestSegment? (Text.lower key) = some digest) :
    ref_id index obj stem = .ok (some (to_ni digest), index) := by
  obtain ⟨stripped, nonempty⟩ := ref_uri_strip slot
  have notHl := notHashlink_of_http http
  simp only [ref_id, slot, notHl, Bool.false_eq_true, if_false, http, if_true,
    content_id_from_uri, nonempty, decide_false, Bool.not_true, Bool.or_self,
    stripped, parsed, keyed, segment, Except.bind, bind]

theorem peerBomUri_shape :
    Text.strip peerBomUri = peerBomUri ∧ peerBomUri ≠ "" ∧
      is_http_uri peerBomUri = true ∧
      casPathDigest? ("/ldp/boms/" ++ zeroDigest.hex) = none ∧
      ldpContentKey? ("/ldp/boms/" ++ zeroDigest.hex) =
        some zeroDigest.hex := by
  decide +kernel

theorem peerBomSlot_uri : ref_uri peerBomSlot "invoice" = some peerBomUri := by
  obtain ⟨stripped, nonempty, _⟩ := peerBomUri_shape
  have field : uri_field_name "invoice" = "invoice_uri" := by decide +kernel
  simp [ref_uri, field, peerBomSlot, stripped, nonempty]

theorem peerBomSlot_id :
    ref_id none peerBomSlot "invoice" = .ok (some (to_ni zeroDigest), none) := by
  obtain ⟨_, _, http, _, keyed⟩ := peerBomUri_shape
  exact ref_id_of_key peerBomSlot_uri http peerBomUri_path keyed
    (by simp [digestSegment?])

/-- The id is read off the path of a peer's BOM resource, and whatever the
peer answers is returned. -/
theorem ref_id_disagrees_with_bytes :
    ¬ ∀ (net : Network) (machine final : Machine) (obj : Fields)
      (stem uri id : String) (after : Option LocatorIndex) (digest : Digest)
      (bytes : Bytes), ref_uri obj stem = some uri →
      ref_id (machine.home.map Home.index) obj stem = .ok (some id, after) →
      from_ni id = .ok digest →
      cat_bytes net uri none machine = .ok bytes final →
        sha256_hex bytes = digest := by
  intro claimed
  obtain ⟨_, _, http, notCas, _⟩ := peerBomUri_shape
  have unexpected : resolve_expect_digest none peerBomUri none = .ok none := by
    simp [resolve_expect_digest, Option.filter, peerBomUri_path, notCas,
      indexedDigest, Except.bind, bind]
  obtain ⟨final, returned⟩ : ∃ after, catHttp (answering []) peerBomUri none
      (bareMachine none) = .ok [] after :=
    catHttp_bare peerBomUri_path unexpected (by rintro other ⟨⟩)
  have read : cat_bytes (answering []) peerBomUri none (bareMachine none) =
      .ok [] final := by
    simpa only [cat_bytes, notHashlink_of_http http, Bool.false_eq_true,
      if_false, catPlain, http, if_true] using returned
  have hash := claimed (answering []) (bareMachine none) final peerBomSlot
    "invoice" peerBomUri (to_ni zeroDigest) none zeroDigest [] peerBomSlot_uri
    peerBomSlot_id (from_ni_to_ni zeroDigest) read
  revert hash
  decide +kernel

/-- The agreement criterion at a peer's BOM resource. -/
theorem ref_id_agrees_with_bytes_iff_peer :
    (∀ (net : Network) (machine final : Machine) (bytes : Bytes),
      machine.home.map Home.index = none →
      cat_bytes net peerBomUri none machine = .ok bytes final →
        sha256_hex bytes = zeroDigest) ↔ Compared none peerBomUri zeroDigest :=
  ref_id_agrees_with_bytes_iff peerBomSlot_uri peerBomSlot_id
    (from_ni_to_ni zeroDigest)

end AddressStore

end Cats
