import Cats.Cas.LocatorRuns
import Cats.Cas.Manifest

/-!
# Materialising content

`get` verifies the first fetch of a URI against its digest, and then expands
the manifest of whatever id the locator index gives for that URI.  The files
are those of the verified manifest as long as no event registered the URI
under another digest.
-/

namespace Cats

open Effect

/-- The id whose manifest `get` expands. -/
def manifestId (index : Option LocatorIndex) (content_id : String)
    (expect_digest : Option String) : Except Raised String :=
  let given := (expect_digest.filter (· ≠ "")).getD content_id
  if is_hl content_id then
    (from_hl (Text.strip content_id)).map Prod.fst
  else if is_http_uri content_id then
    match index with
    | none => .ok given
    | some index => do
        let found ← index.find_content_id_for_uri content_id
        .ok ((found.filter (· ≠ "")).getD given)
  else .ok given

/-- The directory of a file, made when its path names one. -/
def makeParent (dest_path : String) : Act Unit :=
  if Posix.dirname dest_path = "" then pure ()
  else Disk.makedirs (Posix.dirname dest_path)

/-- What `get` does with a manifest. -/
def expandManifest (net : Network) (content_id dest_path : String)
    (expect_digest : Option String) : Act Unit := do
  let machine ← (MonadState.get : Act Machine)
  let manifest_id ← Act.lift (manifestId (machine.home.map Home.index)
    content_id expect_digest)
  Disk.makedirs dest_path
  AddressStore.materialize_tree net manifest_id dest_path

/-- What `get` does with any other bytes. -/
def writeBlob (dest_path : String) (raw : Bytes) : Act Unit := do
  makeParent dest_path
  Disk.writeFile dest_path raw

/-- `AddressStore.get(content_id, dest_path, expect_digest=expect_digest)`. -/
def AddressStore.get (net : Network) (content_id dest_path : String)
    (expect_digest : Option String := none) : Act Unit :=
  if is_http_uri content_id || is_ni_or_digest content_id ||
      is_hl content_id then do
    let raw ← AddressStore.cat_bytes net content_id expect_digest
    match readManifest? raw with
    | some _ => expandManifest net content_id dest_path expect_digest
    | none => writeBlob dest_path raw
  else throw (legacy_cid_unsupported (Text.repr content_id))

namespace AddressStore

variable (net : Network)

theorem fileless_makeParent (dest_path : String) :
    Fileless (makeParent dest_path) := by
  unfold makeParent
  split_ifs
  · exact fun machine => Wrote.refl machine
  · exact Disk.fileless_makedirs _

theorem writeBlob_ok {dest_path : String} {raw : Bytes}
    {machine after : Machine}
    (ran : writeBlob dest_path raw machine = .ok () after) :
    Wrote machine after [(Posix.resolve dest_path, raw)] := by
  obtain ⟨_, middle, made, rest⟩ := bind_ok ran
  exact (wrote_of_ok (fileless_makeParent dest_path) made).trans
    (Disk.writeFile_ok rest)

/-- What a returned `get` fetched and wrote: the entries of a manifest, or the
blob. -/
theorem get_ok {content_id dest_path : String} {expect_digest : Option String}
    {machine after : Machine}
    (ran : AddressStore.get net content_id dest_path expect_digest machine =
      .ok () after) :
    ∃ raw fetched,
      cat_bytes net content_id expect_digest machine = .ok raw fetched ∧
      ((readManifest? raw = none ∧
          Wrote machine after [(Posix.resolve dest_path, raw)]) ∨
        ∃ id start listing middle entries written,
          manifestId (machine.home.map Home.index) content_id expect_digest =
            .ok id ∧
          start.home = machine.home ∧
          cat_bytes net id none start = .ok listing middle ∧
          readManifest? listing = some entries ∧
          List.Forall₂ (EntryWritten dest_path) entries written ∧
          Wrote machine after written) := by
  unfold AddressStore.get at ran
  split_ifs at ran with readable
  · obtain ⟨raw, fetched, got, ran⟩ := bind_ok ran
    have quiet := same_of_ok (reads_cat_bytes net content_id expect_digest) got
    refine ⟨raw, fetched, got, ?_⟩
    cases manifest : readManifest? raw with
    | none =>
        simp only [manifest] at ran
        exact .inl ⟨rfl, (Wrote.of_same quiet).trans (writeBlob_ok ran)⟩
    | some _ =>
        simp only [manifest] at ran
        obtain ⟨state, same, gotten, ran⟩ := bind_ok ran
        obtain ⟨id, chosen, picked, ran⟩ := bind_ok ran
        obtain ⟨_, prepared, made, ran⟩ := bind_ok ran
        obtain ⟨listing, middle, entries, written, read, listed, entriesWritten,
          wrote⟩ := materialize_tree_ok net ran
        have stateSame : state = fetched ∧ same = fetched := by
          have equal := EStateM.Result.ok.inj gotten
          exact ⟨equal.1.symm, equal.2.symm⟩
        obtain ⟨picked, chosenSame⟩ := lift_ok picked
        rw [stateSame.1, quiet.home] at picked
        rw [chosenSame, stateSame.2] at made
        have dirs := wrote_of_ok (Disk.fileless_makedirs dest_path) made
        exact .inr ⟨id, prepared, listing, middle, entries, written, picked,
          dirs.home.trans quiet.home, read, listed, entriesWritten,
          ((Wrote.of_same quiet).trans_nil dirs).trans wrote⟩
  · simp at ran

theorem find_nothing (uri : String) :
    LocatorIndex.empty.find_content_id_for_uri uri = .ok none := by
  have found := LocatorTable.find_content_id_for_uri_ofRows [] uri
  rw [List.find?_nil, Option.map_none, ite_self] at found
  exact found

/-- No event of the run registers the URI under another digest. -/
def HonestFor (events : List IndexEvent) (uri : String) (digest : Digest) :
    Prop :=
  ∀ event ∈ events, ∀ content_id named,
    event.Registers content_id (Text.strip uri) →
      from_ni content_id = .ok named → named = digest

/-- A URI whose digest is given by its path or by the caller. -/
inductive UriDigest (digest : Digest) (uri : String) : Option String → Prop
    where
  | path {path : String} (parsed : Url.path uri = .ok path)
      (named : casPathDigest? path = some digest) :
      UriDigest digest uri none
  | expected {expected : String} (given : from_ni expected = .ok digest) :
      UriDigest digest uri (some expected)

theorem UriDigest.fixes {digest : Digest} {uri : String}
    {expect_digest : Option String} (http : is_http_uri uri = true)
    (fixed : UriDigest digest uri expect_digest) :
    Fixes digest uri expect_digest := by
  cases fixed with
  | path parsed named => exact .path http parsed named
  | expected given => exact .expected http given

/-- Text without a colon that names no digest is never read. -/
theorem cat_bytes_colonless {content_id : String}
    {expect_digest : Option String}
    (legacy : is_ni_or_digest content_id = false)
    (noColon : ':' ∉ content_id.toList) (machine : Machine) :
    ∃ raised, cat_bytes net content_id expect_digest machine =
      .error raised machine := by
  have notHl : is_hl content_id = false :=
    Text.startsWith_lower_of_noColon noColon (by decide)
  have notHttp : is_http_uri content_id = false := by
    simp only [is_http_uri, Bool.or_eq_false_iff]
    exact ⟨Text.startsWith_lower_of_noColon noColon (by decide),
      Text.startsWith_lower_of_noColon noColon (by decide)⟩
  exact ⟨_, by
    simp only [cat_bytes, notHl, catPlain, notHttp, legacy,
      Bool.false_eq_true, if_false]
    rfl⟩

theorem colonless_of_segment {content_id : String}
    (segment : isCidSegment content_id = true) : ':' ∉ content_id.toList := by
  intro member
  simp only [isCidSegment, Bool.and_eq_true, List.all_eq_true] at segment
  have letter := segment.2 ':' member
  revert letter
  decide

/-- A legacy id is never read. -/
theorem cat_bytes_legacy {content_id : String} {expect_digest : Option String}
    (legacy : is_ni_or_digest content_id = false)
    (segment : isCidSegment content_id = true) (machine : Machine) :
    ∃ raised, cat_bytes net content_id expect_digest machine =
      .error raised machine :=
  cat_bytes_colonless net legacy (colonless_of_segment segment) machine

def emptyBlobUri : String := "http://n/ldp/cas/" ++ emptyDigest.hex

section Misdirection

def citedEntries : Fields := [("main.tf", .str "http://e/main.tf")]

/-- The manifest a URI names, as `put_tree` stores it. -/
def citedManifest : Bytes := sortedDocument (manifestDocument citedEntries)

/-- Another manifest the Node holds. -/
def otherManifest : Bytes := sortedDocument (manifestDocument [])

def citedDigest : Digest := sha256_hex citedManifest

def otherDigest : Digest := sha256_hex otherManifest

def citedUri : String := "http://n/ldp/cas/" ++ citedDigest.hex

/-- The index after one hashlink of the other manifest was taken in, with the
cited URI as its hint. -/
def misdirectedRows : List LocatorRow :=
  LocatorTable.register (digestRow otherDigest) citedUri none []

def misdirectedHome : Home :=
  { cas := { blobs := fun digest =>
      if digest = citedDigest then some citedManifest
      else if digest = otherDigest then some otherManifest
      else none }
    resources := fun _ _ => none
    index := .ofRows misdirectedRows }

def misdirectedMachine : Machine :=
  { home := some misdirectedHome
    disk := fun _ => none
    writes := []
    gets := 0 }

/-- The machine once the destination is made. -/
def preparedMachine : Machine :=
  { misdirectedMachine with
    disk := Function.update (fun _ => none) ["d".toList] (some .dir)
    writes := [⟨["d".toList], none⟩] }

theorem citedDigest_ne_otherDigest : otherDigest ≠ citedDigest := by
  decide +kernel

theorem citedUri_path :
    Url.path citedUri = .ok ("/ldp/cas/" ++ citedDigest.hex) ∧
      casPathDigest? ("/ldp/cas/" ++ citedDigest.hex) = some citedDigest ∧
      is_http_uri citedUri = true ∧ Text.strip citedUri = citedUri ∧
      citedUri ≠ "" ∧ '\n' ∉ citedUri.toList ∧
      citedUri.toList.getLast?.all (fun character =>
        !Text.isSpace character) = true := by
  decide +kernel

theorem misdirected_run :
    IndexRun [.intake (hashlinkWith otherDigest citedUri)]
      (.ofRows misdirectedRows) := by
  obtain ⟨_, _, http, _, nonempty, oneLine, last⟩ := citedUri_path
  have ends : ∀ character ∈ citedUri.toList.getLast?,
      Text.isSpace character = false := by
    intro character member
    rw [Option.mem_def] at member
    rw [member] at last
    simpa using last
  exact IndexRun.step (.start : IndexRun [] _)
    (step_intake_hashlink [] http nonempty oneLine ends)

theorem misdirected_manifestId :
    manifestId (some (.ofRows misdirectedRows)) citedUri none =
      .ok (to_ni otherDigest) := by
  obtain ⟨_, _, http, stripped, nonempty, _, _⟩ := citedUri_path
  have notHl := notHashlink_of_http http
  have found : (LocatorIndex.ofRows misdirectedRows).find_content_id_for_uri
      citedUri = .ok (some (to_ni otherDigest)) := by
    rw [LocatorTable.find_content_id_for_uri_ofRows, stripped,
      if_neg nonempty]
    simp [misdirectedRows, LocatorTable.register, LocatorRow.add, digestRow,
      LocatorTable.blank]
  simp only [manifestId, notHl, http, found, Bool.false_eq_true, if_false,
    if_true, Except.bind, bind]
  simp [Option.filter, to_ni_ne_empty]

end Misdirection

end AddressStore

end Cats
