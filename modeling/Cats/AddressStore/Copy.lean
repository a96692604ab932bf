import Cats.AddressStore.Verified
import Cats.Cas.ContentId

/-!
# The copy a digest leads to

A read by a digest takes the local blob, else what the first registered locator
that answers serves, and returns it when it has the digest.  How the id is
spelled does not matter.
-/

namespace Cats

open Effect

namespace AddressStore

variable (net : Network)

/-- What the first locator that answers serves, GET after GET. -/
def firstAnswer (made : ℕ) : List String → Option Bytes
  | [] => none
  | uri :: uris =>
      match net.answer made uri with
      | some data => some data
      | none => firstAnswer (made + 1) uris

/-- The copy this Node reaches by a digest: its own blob, else what a
registered locator serves. -/
def copyOf (machine : Machine) (digest : Digest) : Option Bytes :=
  match machine.home with
  | none => none
  | some home =>
      match home.cas.blobs digest with
      | some data => some data
      | none =>
          match home.index.lookup_uris (to_ni digest) with
          | .ok uris => firstAnswer net machine.gets uris
          | .error _ => none

theorem attempt_urlopen (uri : String) (machine : Machine) :
    attempt (urlopen net uri) machine = .ok (net.answer machine.gets uri)
      { machine with gets := machine.gets + 1 } := by
  unfold attempt
  cases answer : net.answer machine.gets uri with
  | some data =>
      apply tryCatch_run_ok
      have opened : urlopen net uri machine =
          .ok data { machine with gets := machine.gets + 1 } := by
        unfold urlopen
        rw [bind_run_ok (get_run machine), bind_run_ok (modify_run _ _), answer]
        rfl
      rw [bind_run_ok opened]
      rfl
  | none =>
      have opened : urlopen net uri machine =
          .error ⟨.urlError, s!"<urlopen error {uri}>"⟩
            { machine with gets := machine.gets + 1 } := by
        unfold urlopen
        rw [bind_run_ok (get_run machine), bind_run_ok (modify_run _ _), answer]
        rfl
      rw [tryCatch_run_error (bind_run_error opened)]
      rfl

section Digest

variable {net} {content_id : String} {digest : Digest}
  (named : from_ni content_id = .ok digest)

include named

/-- Bytes come back from the locators when the first answer has the digest. -/
theorem locatorBytes_ok_iff (uris : List String) (machine : Machine)
    (data : Bytes) :
    (∃ after, locatorBytes net content_id uris machine =
        .ok (some data) after) ↔
      firstAnswer net machine.gets uris = some data ∧
        sha256_hex data = digest := by
  induction uris generalizing machine with
  | nil =>
      constructor
      · rintro ⟨after, ran⟩
        exact nomatch ran
      · rintro ⟨answer, _⟩
        exact nomatch answer
  | cons uri uris induction =>
      unfold locatorBytes firstAnswer
      rw [bind_run_ok (attempt_urlopen net uri machine)]
      cases answer : net.answer machine.gets uri with
      | none => exact induction _
      | some other =>
          dsimp only
          rw [bind_run_ok (show Act.lift (from_ni content_id) _ =
            .ok digest _ by rw [named]; rfl)]
          by_cases same : sha256_hex other = digest
          · rw [if_neg (not_not.mpr same)]
            constructor
            · rintro ⟨after, ran⟩
              obtain rfl : other = data := by
                simpa using (EStateM.Result.ok.inj ran).1
              exact ⟨rfl, same⟩
            · rintro ⟨answer, _⟩
              obtain rfl := Option.some.inj answer
              exact ⟨_, rfl⟩
          · rw [if_pos same]
            constructor
            · rintro ⟨after, ran⟩
              exact nomatch ran
            · rintro ⟨answer, good⟩
              obtain rfl := Option.some.inj answer
              exact absurd good same

theorem spells_of_from_ni : ContentId.Spells content_id (.named digest) := by
  intro label
  obtain ⟨⟨first, rest, shape, _⟩, isDigest⟩ := head_of_from_ni named
  have present : Text.strip content_id ≠ "" := by
    intro blank
    rw [blank] at shape
    exact nomatch shape
  rw [← is_ni_or_digest_strip] at isDigest
  simp [ContentId.parse, present, isDigest, from_ni_strip.mpr named, Except.map]

theorem lookup_uris_of_from_ni (index : LocatorIndex) :
    index.lookup_uris content_id = index.lookup_uris (to_ni digest) := by
  unfold LocatorIndex.lookup_uris
  rw [(spells_of_from_ni named).key, content_id_fs_key_to_ni]
  rfl

/-- Local blob or locator: good bytes are found when the copy is good. -/
theorem locate_ok_iff (machine : Machine) (data : Bytes) :
    (∃ after, locate net content_id machine = .ok (some data) after) ∧
        sha256_hex data = digest ↔
      copyOf net machine digest = some data ∧ sha256_hex data = digest := by
  unfold locate copyOf
  rw [bind_run_ok (get_run machine)]
  cases place : machine.home with
  | none =>
      have nothing : cas_locator_bytes net content_id machine =
          .ok none machine := by
        unfold cas_locator_bytes
        rw [bind_run_ok (get_run machine), place]
        rfl
      rw [bind_run_ok (show Act.lift (cas_local_bytes none content_id)
        machine = .ok none machine from rfl)]
      dsimp only
      rw [nothing]
      constructor
      · rintro ⟨⟨after, ran⟩, _⟩
        cases ran
      · rintro ⟨copied, _⟩
        cases copied
  | some home =>
      have isDigest := (notUri_of_from_ni named).2.2
      have stored : cas_local_bytes (some home) content_id =
          .ok (home.cas.blobs digest) := by
        simp [cas_local_bytes, CasHttpStore.get, isDigest, named, Except.map]
      rw [stored, bind_run_ok (show Act.lift (.ok (home.cas.blobs digest))
        machine = .ok _ machine from rfl)]
      dsimp only
      cases home.cas.blobs digest with
      | some blob =>
          constructor
          · rintro ⟨⟨after, ran⟩, good⟩
            exact ⟨(EStateM.Result.ok.inj ran).1, good⟩
          · rintro ⟨copied, good⟩
            exact ⟨⟨machine, by rw [← copied]; rfl⟩, good⟩
      | none =>
          unfold cas_locator_bytes
          dsimp only
          rw [bind_run_ok (get_run machine), place]
          dsimp only
          rw [lookup_uris_of_from_ni named]
          cases home.index.lookup_uris (to_ni digest) with
          | error raised =>
              constructor
              · rintro ⟨⟨after, ran⟩, _⟩
                cases ran
              · rintro ⟨copied, _⟩
                cases copied
          | ok uris =>
              rw [bind_run_ok (show Act.lift (.ok uris) machine =
                .ok uris machine from rfl), locatorBytes_ok_iff named]
              constructor
              · rintro ⟨answered, _⟩
                exact answered
              · intro answered
                exact ⟨answered, answered.2⟩

theorem catDigest_ok_iff (machine : Machine) (data : Bytes) :
    (∃ after, catDigest net content_id machine = .ok data after) ↔
      copyOf net machine digest = some data ∧ sha256_hex data = digest := by
  rw [← locate_ok_iff named]
  constructor
  · rintro ⟨after, ran⟩
    have good := ensures_catDigest net named machine data after ran
    obtain ⟨found, middle, located, rest⟩ := bind_ok ran
    cases found with
    | none => exact nomatch rest
    | some other =>
        obtain ⟨read, last, _, rest⟩ := bind_ok rest
        by_cases same : sha256_hex other = read
        · rw [if_neg (not_not.mpr same)] at rest
          obtain rfl : other = data := (EStateM.Result.ok.inj rest).1
          exact ⟨⟨middle, located⟩, good⟩
        · rw [if_pos same] at rest
          exact nomatch rest
  · rintro ⟨⟨after, located⟩, good⟩
    refine ⟨after, ?_⟩
    unfold catDigest
    rw [bind_run_ok located]
    dsimp only
    rw [bind_run_ok (show Act.lift (from_ni content_id) after =
      .ok digest after by rw [named]; rfl), if_neg (not_not.mpr good)]
    rfl

/-- A read by a digest returns the copy this Node reaches, if it is good. -/
theorem cat_bytes_digest_iff (machine : Machine) (data : Bytes) :
    (∃ after, cat_bytes net content_id none machine = .ok data after) ↔
      copyOf net machine digest = some data ∧ sha256_hex data = digest := by
  obtain ⟨notHttp, notHl, isDigest⟩ := notUri_of_from_ni named
  rw [← catDigest_ok_iff named]
  unfold cat_bytes catPlain
  rw [notHl, if_neg Bool.false_ne_true, notHttp, if_neg Bool.false_ne_true,
    if_pos isDigest]

end Digest

/-- The hints of a hashlink are read alike however the hashlink is spelled in
an error text. -/
theorem hintBytes_respelled {content_id : String} (other : String)
    {digest : Digest} {uris : List String} {machine after : Machine}
    {found : Option Bytes}
    (ran : hintBytes net content_id digest uris machine = .ok found after) :
    hintBytes net other digest uris machine = .ok found after := by
  induction uris generalizing machine with
  | nil => exact ran
  | cons uri uris induction =>
      unfold hintBytes at ran ⊢
      by_cases http : is_http_uri uri = true
      · rw [if_pos http] at ran ⊢
        obtain ⟨fetched, middle, hinted, rest⟩ := bind_ok ran
        rw [bind_run_ok hinted]
        cases fetched with
        | none => exact induction rest
        | some data =>
            dsimp only at rest ⊢
            by_cases same : sha256_hex data = digest
            · rw [if_neg (not_not.mpr same)] at rest ⊢
              exact rest
            · rw [if_pos same] at rest
              exact nomatch rest
      · rw [if_neg http] at ran ⊢
        exact induction ran

/-- What is around an id that is no URI does not matter to a read. -/
theorem cat_bytes_strip {token : String} {machine after : Machine}
    {data : Bytes} (notHttp : is_http_uri token = false)
    (read : cat_bytes net token none machine = .ok data after) :
    ∃ other, cat_bytes net (Text.strip token) none machine =
      .ok data other := by
  have bareHttp : is_http_uri (Text.strip token) = false := by
    rw [← notHttp]
    simp [is_http_uri]
  have sameHl : is_hl (Text.strip token) = is_hl token := by simp [is_hl]
  by_cases linked : is_hl token = true
  · unfold cat_bytes at read ⊢
    rw [if_pos linked] at read
    rw [sameHl, if_pos linked, Text.strip_strip]
    obtain ⟨⟨ni, uris⟩, first, parsed, read⟩ := bind_ok read
    obtain ⟨digest, second, named, read⟩ := bind_ok read
    obtain ⟨hinted, third, tried, read⟩ := bind_ok read
    refine ⟨after, ?_⟩
    rw [bind_run_ok parsed]
    dsimp only
    rw [bind_run_ok named, bind_run_ok (hintBytes_respelled net _ tried)]
    exact read
  · unfold cat_bytes at read ⊢
    rw [if_neg linked] at read
    rw [sameHl, if_neg linked]
    unfold catPlain at read ⊢
    rw [notHttp, if_neg Bool.false_ne_true] at read
    rw [bareHttp, if_neg Bool.false_ne_true, is_ni_or_digest_strip]
    by_cases isDigest : is_ni_or_digest token = true
    · rw [if_pos isDigest] at read ⊢
      obtain ⟨digest, named⟩ : ∃ digest, from_ni token = .ok digest := by
        obtain ⟨found, middle, _, rest⟩ := bind_ok read
        cases found with
        | none => cases rest
        | some other =>
            obtain ⟨digest, _, named, _⟩ := bind_ok rest
            exact ⟨digest, (lift_ok named).1⟩
      apply (catDigest_ok_iff (from_ni_strip.mpr named) machine data).mpr
      apply (catDigest_ok_iff named machine data).mp
      exact ⟨after, read⟩
    · rw [if_neg isDigest] at read
      cases read

end AddressStore

end Cats
