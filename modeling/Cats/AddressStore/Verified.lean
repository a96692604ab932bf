import Cats.AddressStore.Read

/-!
# Digest-named reads are verified

The three spellings of a digest lead to one of two loops or to the local
store, and each of these compares before it returns.  Nothing is assumed about
what is stored, registered or served.
-/

namespace Cats

open Effect

/-- The ids that name a digest: `ni:`, hex in any case, and hashlinks. -/
inductive NamesDigest (digest : Digest) : String → Prop where
  | plain {content_id : String} (named : from_ni content_id = .ok digest) :
      NamesDigest digest content_id
  | hashlink {content_id : String} {uris : List String}
      (linked : is_hl content_id = true)
      (parsed : from_hl (Text.strip content_id) = .ok (to_ni digest, uris)) :
      NamesDigest digest content_id

theorem lift_ok {α : Type} {result : Except Raised α} {machine after : Machine}
    {value : α} (ran : Act.lift result machine = .ok value after) :
    result = .ok value ∧ after = machine := by
  cases result with
  | error raised => simp [Act.lift] at ran
  | ok found =>
      simp only [Act.lift, pure_run, EStateM.Result.ok.injEq] at ran
      exact ⟨by rw [ran.1], ran.2.symm⟩

theorem ensures_lift {α : Type} {result : Except Raised α}
    {condition : α → Prop}
    (holds : ∀ value, result = .ok value → condition value) :
    Ensures condition (Act.lift result) :=
  fun _ value _ ran => holds value (lift_ok ran).1

/-- An id that reads as a digest is stripped, lowered or parsed, in that order,
and begins with a hexadecimal digit or the scheme. -/
theorem head_of_from_ni {content_id : String} {digest : Digest}
    (named : from_ni content_id = .ok digest) :
    (∃ character rest,
      (Text.lower (Text.strip content_id)).toList = character :: rest ∧
        (Hex.isDigit character = true ∨ character = 'n')) ∧
      is_ni_or_digest content_id = true := by
  by_cases hex : isHexSha256 (Text.lower (Text.strip content_id)) = true
  · have valid := hex
    simp only [isHexSha256, Bool.and_eq_true, decide_eq_true_eq,
      List.all_eq_true] at valid
    cases shape : (Text.lower (Text.strip content_id)).toList with
    | nil => simp [shape] at valid
    | cons character rest =>
        have digit := valid.2 character (by simp [shape])
        exact ⟨⟨character, rest, rfl, .inl digit⟩,
          by simp [is_ni_or_digest, hex]⟩
  · have payload : (niPayload? (Text.strip content_id)).isSome = true := by
      simp only [from_ni, hex] at named
      cases found : niPayload? (Text.strip content_id) with
      | none => simp [found] at named
      | some payload => rfl
    have starts : Text.startsWith (Text.strip content_id) "ni:///sha-256;" =
        true := by
      by_contra absent
      simp [niPayload?, absent] at payload
    obtain ⟨tail, whole⟩ : "ni:///sha-256;".toList <+:
        (Text.strip content_id).toList := Text.startsWith_iff.mp starts
    have shape : (Text.lower (Text.strip content_id)).toList =
        'n' :: ("i:///sha-256;".toList.map Char.toLower ++
          tail.map Char.toLower) := by
      rw [Text.toList_lower, ← whole, List.map_append]
      rfl
    exact ⟨⟨'n', _, shape, .inr rfl⟩, by simp [is_ni_or_digest, payload]⟩

/-- None of these begins like a scheme with another first letter. -/
theorem notScheme_of_from_ni {content_id scheme : String} {digest : Digest}
    (named : from_ni content_id = .ok digest) {first : Char} {tail : List Char}
    (begins : scheme.toList = first :: tail)
    (other : Hex.isDigit first = false ∧ first ≠ 'n') :
    Text.startsWith (Text.lower (Text.strip content_id)) scheme = false := by
  obtain ⟨⟨character, rest, shape, kind⟩, _⟩ := head_of_from_ni named
  have different : first ≠ character := by
    intro same
    rw [← same] at kind
    rcases kind with digit | letter
    · rw [other.1] at digit
      cases digit
    · exact other.2 letter
  simp [Text.startsWith, shape, begins, List.isPrefixOf_cons_cons, different]

/-- An id that reads as a digest is no URI and no hashlink. -/
theorem notUri_of_from_ni {content_id : String} {digest : Digest}
    (named : from_ni content_id = .ok digest) :
    is_http_uri content_id = false ∧ is_hl content_id = false ∧
      is_ni_or_digest content_id = true := by
  have scheme : ∀ start ∈ ["http://", "https://", "hl:"],
      Text.startsWith (Text.lower (Text.strip content_id)) start = false := by
    intro start member
    have first : ∃ tail, start.toList = 'h' :: tail := by
      simp only [List.mem_cons, List.not_mem_nil, or_false] at member
      rcases member with same | same | same
      · exact ⟨_, by rw [same]; rfl⟩
      · exact ⟨_, by rw [same]; rfl⟩
      · exact ⟨_, by rw [same]; rfl⟩
    obtain ⟨tail, begins⟩ := first
    exact notScheme_of_from_ni named begins (by decide)
  constructor
  · rw [is_http_uri, scheme "http://" (by simp), scheme "https://" (by simp)]
    rfl
  · exact ⟨scheme "hl:" (by simp), (head_of_from_ni named).2⟩

/-- A URI is no hashlink. -/
theorem notHashlink_of_http {uri : String} (http : is_http_uri uri = true) :
    is_hl uri = false := by
  rw [Bool.eq_false_iff]
  intro linked
  rw [is_hl, Text.startsWith_iff] at linked
  have web : "http".toList <+: (Text.lower (Text.strip uri)).toList := by
    simp only [is_http_uri, Bool.or_eq_true, Text.startsWith_iff] at http
    rcases http with plain | secure
    · exact List.IsPrefix.trans
        (by decide : "http".toList <+: "http://".toList)
        plain
    · exact List.IsPrefix.trans
        (by decide : "http".toList <+: "https://".toList)
        secure
  have nested := List.prefix_of_prefix_length_le linked web (by decide)
  revert nested
  decide

namespace AddressStore

variable (net : Network)

theorem ensures_attempt {condition : Bytes → Prop} {fetch : Act Bytes}
    (fetched : Ensures condition fetch) :
    Ensures (fun data => ∀ bytes, data = some bytes → condition bytes)
      (attempt fetch) := by
  refine Ensures.tryCatch ?_ ?_
  · refine Ensures.bind_of fetched ?_
    intro data holds
    exact Ensures.pure (by rintro bytes ⟨rfl⟩; exact holds)
  · intro raised
    exact Ensures.pure (by rintro bytes ⟨⟩)

/-- Bytes that leave the comparison match the digest. -/
theorem ensures_compare {digest : Digest} {raised : Raised} (data : Bytes) :
    Ensures (fun found : Option Bytes =>
        ∀ bytes, found = some bytes → sha256_hex bytes = digest)
      (if sha256_hex data ≠ digest then throw raised
        else pure (some data) : Act (Option Bytes)) := by
  refine Ensures.ite (fun _ => Ensures.throw _) ?_
  intro same
  refine Ensures.pure ?_
  rintro bytes ⟨rfl⟩
  exact not_not.mp same

theorem ensures_hintBytes (content_id : String) (digest : Digest)
    (uris : List String) :
    Ensures (fun found => ∀ bytes, found = some bytes →
        sha256_hex bytes = digest)
      (hintBytes net content_id digest uris) := by
  induction uris with
  | nil => exact Ensures.pure (by rintro bytes ⟨⟩)
  | cons uri uris induction =>
      refine Ensures.ite (fun _ => ?_) (fun _ => induction)
      refine Ensures.bind ?_
      intro fetched
      cases fetched with
      | none => exact induction
      | some data => exact ensures_compare data

theorem ensures_catDigest {content_id : String} {digest : Digest}
    (named : from_ni content_id = .ok digest) :
    Ensures (fun bytes => sha256_hex bytes = digest)
      (catDigest net content_id) := by
  refine Ensures.bind ?_
  intro found
  cases found with
  | none => exact Ensures.throw _
  | some data =>
      refine Ensures.bind_of (show Ensures (fun other => other = digest)
        (Act.lift _) from ensures_lift ?_) ?_
      · intro other read
        rw [named] at read
        exact (Except.ok.inj read).symm
      · rintro other rfl
        exact Ensures.ite (fun _ => Ensures.throw _)
          (fun same => Ensures.pure (not_not.mp same))

theorem ensures_catPlain_digest {content_id : String} {digest : Digest}
    (named : from_ni content_id = .ok digest)
    (expect_digest : Option String) :
    Ensures (fun bytes => sha256_hex bytes = digest)
      (catPlain net content_id expect_digest) := by
  obtain ⟨notHttp, _, isDigest⟩ := notUri_of_from_ni named
  simp only [catPlain, notHttp, Bool.false_eq_true, if_false, isDigest,
    if_true]
  exact ensures_catDigest net named

/-- A digest the caller or the path fixes is the one that is compared. -/
theorem ensures_catHttp {uri : String} {expect_digest : Option String}
    {digest : Digest}
    (resolved : ∀ index found,
      resolve_expect_digest index uri expect_digest = .ok found →
        found = some digest) :
    Ensures (fun bytes => sha256_hex bytes = digest)
      (catHttp net uri expect_digest) := by
  refine Ensures.bind ?_
  rintro ⟨data, pathDigest⟩
  refine Ensures.bind ?_
  intro machine
  refine Ensures.bind_of (ensures_lift (resolved _)) ?_
  rintro _ rfl
  exact Ensures.ite (fun _ => Ensures.throw _)
    (fun same => Ensures.pure (not_not.mp same))

theorem resolve_expected {uri expected : String} {digest : Digest}
    (named : from_ni expected = .ok digest) (index : Option LocatorIndex) :
    resolve_expect_digest index uri (some expected) = .ok (some digest) := by
  have isDigest := (notUri_of_from_ni named).2.2
  have nonempty : expected ≠ "" := by
    rintro rfl
    revert isDigest
    decide
  have filtered : (some expected).filter (· ≠ "") = some expected := by
    simp [Option.filter, nonempty]
  simp only [resolve_expect_digest, filtered, isDigest, if_true, named,
    Except.map]

theorem resolve_path {uri path : String} {digest : Digest}
    (parsed : Url.path uri = .ok path)
    (named : casPathDigest? path = some digest)
    (index : Option LocatorIndex) :
    resolve_expect_digest index uri none = .ok (some digest) := by
  simp only [resolve_expect_digest, Option.filter, parsed, named,
    Except.bind, bind]

/-- The ways a caller fixes the digest of what it reads. -/
inductive Fixes (digest : Digest) : String → Option String → Prop where
  | named {content_id : String} {expect_digest : Option String}
      (names : NamesDigest digest content_id) :
      Fixes digest content_id expect_digest
  | expected {uri expected : String} (http : is_http_uri uri = true)
      (given : from_ni expected = .ok digest) :
      Fixes digest uri (some expected)
  | path {uri path : String} (http : is_http_uri uri = true)
      (parsed : Url.path uri = .ok path)
      (named : casPathDigest? path = some digest) : Fixes digest uri none

/-- Bytes read by digest hash to it, for every store, index and network. -/
theorem ensures_cat_bytes {digest : Digest} {content_id : String}
    {expect_digest : Option String}
    (fixes : Fixes digest content_id expect_digest) :
    Ensures (fun bytes => sha256_hex bytes = digest)
      (cat_bytes net content_id expect_digest) := by
  cases fixes with
  | named names =>
      cases names with
      | plain named =>
          have notHl := (notUri_of_from_ni named).2.1
          simp only [cat_bytes, notHl, Bool.false_eq_true, if_false]
          exact ensures_catPlain_digest net named expect_digest
      | hashlink linked parsed =>
          simp only [cat_bytes, linked, if_true]
          refine Ensures.bind_of (show Ensures
            (fun pair : String × List String => pair.1 = to_ni digest)
            (Act.lift _) from ensures_lift ?_) ?_
          · intro pair read
            rw [parsed] at read
            rw [← Except.ok.inj read]
          · rintro ⟨ni, hints⟩ rfl
            refine Ensures.bind_of (show Ensures (fun other => other = digest)
              (Act.lift _) from ensures_lift ?_) ?_
            · intro other read
              rw [from_ni_to_ni] at read
              exact (Except.ok.inj read).symm
            · intro other same
              subst other
              refine Ensures.bind_of
                (ensures_hintBytes net content_id digest hints) ?_
              intro hinted verified
              cases hinted with
              | some data => exact Ensures.pure (verified data rfl)
              | none =>
                  exact ensures_catPlain_digest net (from_ni_to_ni digest)
                    expect_digest
  | expected http given =>
      have notHl := notHashlink_of_http http
      simp only [cat_bytes, notHl, Bool.false_eq_true, if_false, catPlain,
        http, if_true]
      refine ensures_catHttp net ?_
      intro index found resolved
      rw [resolve_expected given] at resolved
      exact (Except.ok.inj resolved).symm
  | path http parsed named =>
      have notHl := notHashlink_of_http http
      simp only [cat_bytes, notHl, Bool.false_eq_true, if_false, catPlain,
        http, if_true]
      refine ensures_catHttp net ?_
      intro index found resolved
      rw [resolve_path parsed named] at resolved
      exact (Except.ok.inj resolved).symm

/-- An intact local blob is what a read by its digest returns. -/
theorem cat_bytes_stored {content_id : String} {digest : Digest} {home : Home}
    {data : Bytes} {machine : Machine}
    (named : from_ni content_id = .ok digest)
    (local_home : machine.home = some home)
    (stored : home.cas.blobs digest = some data)
    (intact : sha256_hex data = digest) (expect_digest : Option String) :
    cat_bytes net content_id expect_digest machine = .ok data machine := by
  obtain ⟨notHttp, notHl, isDigest⟩ := notUri_of_from_ni named
  have found : cas_local_bytes machine.home content_id = .ok (some data) := by
    simp [cas_local_bytes, local_home, CasHttpStore.get, isDigest, named,
      Except.map, stored]
  have located : locate net content_id machine = .ok (some data) machine := by
    unfold locate
    rw [bind_run_ok (get_run machine), found]
    rfl
  simp only [cat_bytes, notHl, catPlain, notHttp, isDigest, catDigest,
    Bool.false_eq_true, if_false, if_true]
  rw [bind_run_ok located, named]
  simp only [Act.lift]
  rw [bind_run_ok (pure_run digest machine), if_neg (not_not.mpr intact)]
  rfl

/-- An intact local blob is what a read of its CAS path returns. -/
theorem cat_bytes_stored_uri {uri path : String} {digest : Digest}
    {home : Home} {data : Bytes} {machine : Machine}
    (http : is_http_uri uri = true) (parsed : Url.path uri = .ok path)
    (named : casPathDigest? path = some digest)
    (local_home : machine.home = some home)
    (stored : home.cas.blobs digest = some data)
    (intact : sha256_hex data = digest) :
    cat_bytes net uri none machine = .ok data machine := by
  have notHl := notHashlink_of_http http
  have found : local_ldp_bytes machine.home uri =
      .ok (some (data, some digest)) := by
    simp [local_ldp_bytes, local_home, parsed, localLdp, named, stored,
      Except.bind, bind]
  have fetched : fetchUri net uri machine =
      .ok (data, some digest) machine := by
    unfold fetchUri
    rw [bind_run_ok (get_run machine), found]
    rfl
  simp only [cat_bytes, notHl, catPlain, http, Bool.false_eq_true, if_false,
    if_true, catHttp]
  rw [bind_run_ok fetched]
  simp only []
  rw [bind_run_ok (get_run machine), resolve_path parsed named]
  simp only [Act.lift]
  rw [bind_run_ok (pure_run _ machine)]
  change (if sha256_hex data ≠ digest then throw _ else pure data : Act Bytes)
    machine = _
  rw [if_neg (not_not.mpr intact)]
  rfl

/-- Whatever is stored, registered or served, bytes returned for a digest hash
to it: a read by `ni:`, hex or hashlink, or of a URI whose digest the caller
or the path gives. -/
theorem digest_named_reads_verified (net : Network) (machine after : Machine)
    (content_id : String) (expect_digest : Option String) (digest : Digest)
    (bytes : Bytes) (fixes : Fixes digest content_id expect_digest)
    (returned : cat_bytes net content_id expect_digest machine =
      .ok bytes after) :
    sha256_hex bytes = digest :=
  ensures_cat_bytes net fixes machine bytes after returned

/-- The digest of no bytes. -/
def emptyDigest : Digest :=
  { hex := "e3b0c44298fc1c149afbf4c8996fb92427ae41e4649b934ca495991b7852b855"
    valid := by decide +kernel }

/-- A Node whose only blob is the empty one. -/
def emptyBlobMachine : Machine :=
  { home := some
      { cas := { blobs := fun digest =>
          if digest = emptyDigest then some [] else none }
        resources := fun _ _ => none
        index := .empty }
    disk := fun _ => none
    writes := []
    gets := 0 }

def silent : Network := { answer := fun _ _ => none }

theorem digest_named_reads_verified_uppercase :
    cat_bytes silent
        "E3B0C44298FC1C149AFBF4C8996FB92427AE41E4649B934CA495991B7852B855"
        none emptyBlobMachine = .ok [] emptyBlobMachine ∧
      sha256_hex [] = emptyDigest := by
  have named : from_ni
      "E3B0C44298FC1C149AFBF4C8996FB92427AE41E4649B934CA495991B7852B855" =
        .ok emptyDigest := by
    have lowered : Text.lower (Text.strip
        "E3B0C44298FC1C149AFBF4C8996FB92427AE41E4649B934CA495991B7852B855") =
          emptyDigest.hex := by decide +kernel
    simp [from_ni, lowered, emptyDigest.valid]
  have intact : sha256_hex [] = emptyDigest := by decide +kernel
  have returned : cat_bytes silent _ none emptyBlobMachine =
      .ok [] emptyBlobMachine :=
    cat_bytes_stored silent named rfl (by simp) intact none
  exact ⟨returned, digest_named_reads_verified silent _ _ _ _ _ _
    (.named (.plain named)) returned⟩

end AddressStore

end Cats
