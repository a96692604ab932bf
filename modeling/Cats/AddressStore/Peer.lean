import Cats.AddressStore.Agreement
import Cats.AddressStore.Get
import Cats.Cas.Tree
import Cats.Posix.Planned

/-!
# Fetching a tree another Node holds

A manifest is fetched by the locator that names its Node, but the ids inside
it name no Node.  A Node that holds nothing and knows no locator can read none
of them, nor the manifest itself by its bare id.
-/

namespace Cats

open Effect

namespace AddressStore

/-- A Node with no blobs and no locators. -/
structure Fresh (machine : Machine) (stores : Home) : Prop where
  home : machine.home = some stores
  cas : stores.cas.blobs = fun _ => none
  index : stores.index = .empty

/-- The network serves a blob under `/ldp/cas` of a Node. -/
structure BlobServed (net : Network) (digest : Digest) (base_url : String)
    (data : Bytes) : Prop where
  http : is_http_uri (cas_ldp_uri digest base_url) = true
  path : Url.path (cas_ldp_uri digest base_url) = .ok (cas_ldp_path digest)
  oneLine : '\n' ∉ base_url.toList
  answer : ∀ gets, net.answer gets (cas_ldp_uri digest base_url) = some data

/-- A store whose blobs are all served. -/
def ServedAt (net : Network) (store : CasHttpStore) (base_url : String) :
    Prop :=
  ∀ digest data, store.blobs digest = some data →
    BlobServed net digest base_url data

/-- The disk lets a directory be made at a path. -/
structure Vacant (machine : Machine) (dest_path : String) : Prop where
  nonempty : dest_path ≠ ""
  noNul : ∀ part ∈ Posix.parts dest_path, Disk.hasNul part = false
  clear : ∀ way, way <+: Posix.parts dest_path → way ≠ [] → ∀ data,
    machine.inode? (way.foldl Posix.enter []) ≠ some (.file data)

/-- `get` returns, and has written every file of the directory at its relative
path and nothing else. -/
def FetchesTree (net : Network) (machine : Machine) (locator dest_path : String)
    (files : List (String × Bytes)) : Prop :=
  ∃ after written,
    AddressStore.get net locator dest_path none machine = .ok () after ∧
    Wrote machine after written ∧
    written.Perm (files.map fun file =>
      (Posix.resolve (Posix.join dest_path file.1), file.2))

variable {net : Network} {machine : Machine} {stores : Home}
  {dest_path : String}

theorem casPathDigest?_cas_ldp_path (digest : Digest) :
    casPathDigest? (cas_ldp_path digest) = some digest := by
  have after : pathAfter? "/ldp/cas/" (cas_ldp_path digest) =
      some digest.hex := by
    have shape : (cas_ldp_path digest).toList =
        "/ldp/cas/".toList ++ digest.hex.toList := by
      simp [cas_ldp_path]
    have starts : "/ldp/cas/".toList.isPrefixOf
        ("/ldp/cas/".toList ++ digest.hex.toList) = true :=
      List.isPrefixOf_iff_prefix.mpr (List.prefix_append _ _)
    rw [pathAfter?, shape, Json.after?, if_pos starts, List.drop_left]
    simp
  unfold casPathDigest?
  rw [after]
  simp [digest.valid]

theorem Fresh.of_home (fresh : Fresh machine stores) {other : Machine}
    (same : other.home = machine.home) : Fresh other stores where
  home := same.trans fresh.home
  cas := fresh.cas
  index := fresh.index

/-- Neither the store nor a locator has the bytes of an id. -/
theorem locate_absent (fresh : Fresh machine stores) (digest : Digest) :
    locate net (to_ni digest) machine = .ok none machine := by
  have stored : cas_local_bytes machine.home (to_ni digest) = .ok none := by
    rw [fresh.home]
    simp [cas_local_bytes, fresh.cas]
  have located : stores.index.lookup_uris (to_ni digest) = .ok [] := by
    rw [fresh.index]
    simp [LocatorIndex.lookup_uris, LocatorIndex.empty, LocatorIndex.file?,
      bind, Except.bind]
  have looked : cas_locator_bytes net (to_ni digest) machine =
      .ok none machine := by
    unfold cas_locator_bytes
    rw [bind_run_ok (get_run machine)]
    simp only [fresh.home, located, Act.lift]
    rw [bind_run_ok (pure_run [] machine)]
    rfl
  unfold locate
  rw [bind_run_ok (get_run machine), stored]
  simp only [Act.lift]
  rw [bind_run_ok (pure_run none machine)]
  exact looked

/-- An id without a locator is not read. -/
theorem cat_bytes_absent (fresh : Fresh machine stores) (digest : Digest)
    {value : Bytes} {after : Machine} :
    cat_bytes net (to_ni digest) none machine ≠ .ok value after := by
  intro read
  obtain ⟨notHttp, notHl, isDigest⟩ :=
    notUri_of_from_ni (from_ni_to_ni digest)
  simp only [cat_bytes, notHl, catPlain, notHttp, isDigest,
    Bool.false_eq_true, if_false, if_true, catDigest] at read
  rw [bind_run_ok (locate_absent fresh digest)] at read
  simp at read

section Served

variable {base_url : String} {raw : Bytes}

theorem fetchUri_peer (fresh : Fresh machine stores)
    (served : BlobServed net (sha256_hex raw) base_url raw) :
    fetchUri net (cas_ldp_uri (sha256_hex raw) base_url) machine =
      .ok (raw, none) { machine with gets := machine.gets + 1 } := by
  have nothing : local_ldp_bytes machine.home
      (cas_ldp_uri (sha256_hex raw) base_url) = .ok none := by
    rw [fresh.home]
    simp only [local_ldp_bytes, served.path, localLdp,
      casPathDigest?_cas_ldp_path, fresh.cas, bind, Except.bind,
      Option.map_none]
  have answered : urlopen net (cas_ldp_uri (sha256_hex raw) base_url) machine =
      .ok raw { machine with gets := machine.gets + 1 } := by
    unfold urlopen
    rw [bind_run_ok (get_run machine)]
    simp only [served.answer machine.gets]
    rfl
  unfold fetchUri
  rw [bind_run_ok (get_run machine), nothing]
  simp only [Act.lift]
  rw [bind_run_ok (pure_run none machine)]
  simp only []
  rw [bind_run_ok answered]
  rfl

/-- The manifest itself is read by the locator that names its Node. -/
theorem cat_bytes_peer (fresh : Fresh machine stores)
    (served : BlobServed net (sha256_hex raw) base_url raw) :
    cat_bytes net (cas_ldp_uri (sha256_hex raw) base_url) none machine =
      .ok raw { machine with gets := machine.gets + 1 } := by
  have http := served.http
  have resolved : resolve_expect_digest (machine.home.map Home.index)
      (cas_ldp_uri (sha256_hex raw) base_url) none =
      .ok (some (sha256_hex raw)) := by
    simp [resolve_expect_digest, Option.filter, served.path,
      casPathDigest?_cas_ldp_path, bind, Except.bind]
  simp only [cat_bytes, notHashlink_of_http http, catPlain, http,
    Bool.false_eq_true, if_false, if_true, catHttp]
  rw [bind_run_ok (fetchUri_peer fresh served)]
  simp only []
  rw [bind_run_ok (get_run _), resolved]
  simp only [Act.lift]
  rw [bind_run_ok (pure_run _ _)]
  simp

/-- The hashlink of a served blob reads back. -/
theorem from_hl_peer {digest : Digest}
    (served : BlobServed net digest base_url raw) :
    Text.strip (hashlinkWith digest (cas_ldp_uri digest base_url)) =
        hashlinkWith digest (cas_ldp_uri digest base_url) ∧
      is_hl (hashlinkWith digest (cas_ldp_uri digest base_url)) = true ∧
      from_hl (hashlinkWith digest (cas_ldp_uri digest base_url)) =
        .ok (to_ni digest, [cas_ldp_uri digest base_url]) := by
  have text : (cas_ldp_uri digest base_url).toList =
      (Text.rstripSlash base_url).toList ++
        ("/ldp/cas/".toList ++ digest.hex.toList) := by
    simp [cas_ldp_uri, cas_ldp_path]
  have hexNonempty : digest.hex.toList ≠ [] := by
    intro empty
    have length := digest.length
    simp [empty] at length
  apply from_hl_hashlinkWith
  · intro empty
    have chars := congrArg String.toList empty
    rw [text] at chars
    simp at chars
  · intro member
    rw [text, List.mem_append, List.mem_append] at member
    rcases member with base | scheme | hex
    · apply served.oneLine
      have inside : '\n' ∈ base_url.toList.rdropWhile (· = '/') := by
        simpa [Text.rstripSlash] using base
      exact (List.rdropWhile_prefix _ _).subset inside
    · simp at scheme
    · have digit := digest.isDigit '\n' hex
      simp [Hex.isDigit, Hex.digits] at digit
  · intro character last
    rw [text, ← List.append_assoc,
      List.getLast?_append_of_ne_nil _ hexNonempty] at last
    exact Digest.isSpace_of_hex (digest.isDigit character (List.mem_of_getLast? last))

theorem cat_bytes_peer_hashlink (fresh : Fresh machine stores)
    (served : BlobServed net (sha256_hex raw) base_url raw) :
    cat_bytes net (hashlinkWith (sha256_hex raw)
        (cas_ldp_uri (sha256_hex raw) base_url)) none machine =
      .ok raw { machine with gets := machine.gets + 1 } := by
  obtain ⟨stripped, linked, parsed⟩ := from_hl_peer served
  have hinted : attempt (fetch_hint_uri net
      (cas_ldp_uri (sha256_hex raw) base_url)) machine =
      .ok (some raw) { machine with gets := machine.gets + 1 } := by
    unfold attempt
    apply tryCatch_run_ok
    have fetched : fetch_hint_uri net (cas_ldp_uri (sha256_hex raw) base_url)
        machine = .ok raw { machine with gets := machine.gets + 1 } := by
      unfold fetch_hint_uri
      rw [bind_run_ok (fetchUri_peer fresh served)]
      rfl
    rw [bind_run_ok fetched]
    rfl
  unfold cat_bytes
  rw [if_pos linked, stripped, parsed]
  simp only [Act.lift]
  rw [bind_run_ok (pure_run _ _)]
  simp only [from_ni_to_ni]
  rw [bind_run_ok (pure_run _ _)]
  have hints : hintBytes net (hashlinkWith (sha256_hex raw)
      (cas_ldp_uri (sha256_hex raw) base_url)) (sha256_hex raw)
      [cas_ldp_uri (sha256_hex raw) base_url] machine =
      .ok (some raw) { machine with gets := machine.gets + 1 } := by
    simp only [hintBytes, served.http, if_true]
    rw [bind_run_ok hinted]
    simp
  rw [bind_run_ok hints]
  rfl

end Served

theorem materialize_tree_expands {id : String} {after : Machine}
    (ran : materialize_tree net id dest_path machine = .ok () after) :
    ∃ listing middle expanded prepared,
      cat_bytes net id none machine = .ok listing middle ∧
      readManifest? listing = some expanded ∧
      prepared.home = machine.home ∧
      writeEntries net dest_path expanded prepared = .ok () after := by
  obtain ⟨listing, middle, listed, parsing⟩ := bind_ok ran
  obtain ⟨expanded, checked, parsed, making⟩ := bind_ok parsing
  obtain ⟨_, ready, opened, writing⟩ := bind_ok making
  obtain ⟨manifest, sameState⟩ := lift_ok parsed
  rw [sameState] at opened
  have quiet := same_of_ok (reads_cat_bytes net id none) listed
  have root := wrote_of_ok (Disk.fileless_mkdirParents _) opened
  exact ⟨listing, middle, expanded, ready, listed, manifestOf_ok manifest,
    root.home.trans quiet.home, writing⟩

/-- A `get` that returns and first read a manifest ends in writing the entries
of the manifest it expands. -/
theorem get_expands {locator : String} {raw : Bytes}
    {entries : Fields} {fetched after : Machine}
    (read : cat_bytes net locator none machine = .ok raw fetched)
    (manifest : readManifest? raw = some entries)
    (ran : AddressStore.get net locator dest_path none machine =
      .ok () after) :
    ∃ id start listing middle expanded prepared,
      manifestId (machine.home.map Home.index) locator none = .ok id ∧
      start.home = machine.home ∧
      cat_bytes net id none start = .ok listing middle ∧
      readManifest? listing = some expanded ∧
      prepared.home = machine.home ∧
      writeEntries net dest_path expanded prepared = .ok () after := by
  have quiet := same_of_ok (reads_cat_bytes net locator none) read
  unfold AddressStore.get at ran
  split_ifs at ran
  · rw [bind_run_ok read] at ran
    simp only [manifest] at ran
    unfold expandManifest at ran
    rw [bind_run_ok (get_run fetched)] at ran
    obtain ⟨id, chosen, picked, ran⟩ := bind_ok ran
    obtain ⟨_, prepared, made, ran⟩ := bind_ok ran
    obtain ⟨picked, chosenSame⟩ := lift_ok picked
    rw [chosenSame] at made
    rw [quiet.home] at picked
    have dirs := wrote_of_ok (Disk.fileless_makedirs dest_path) made
    obtain ⟨listing, middle, expanded, ready, listed, parsed, same, writing⟩ :=
      materialize_tree_expands ran
    exact ⟨id, prepared, listing, middle, expanded, ready, picked,
      dirs.home.trans quiet.home, listed, parsed,
      same.trans (dirs.home.trans quiet.home), writing⟩
  · simp at ran

/-- No entry that names a digest is written on a fresh Node. -/
theorem writeEntries_absent (fresh : Fresh machine stores)
    {entries : Fields} (sound : DigestEntries entries) {after : Machine}
    (ran : writeEntries net dest_path entries machine = .ok () after) :
    entries = [] := by
  cases entries with
  | nil => rfl
  | cons entry entries =>
      obtain ⟨rel, value⟩ := entry
      obtain ⟨digest, id⟩ := sound.named (rel, value) List.mem_cons_self
      dsimp only at id
      simp only [writeEntries, id] at ran
      cases safe : safePath? rel with
      | none => simp [safe] at ran
      | some path =>
          simp only [safe] at ran
          obtain ⟨_, prepared, made, ran⟩ := bind_ok ran
          obtain ⟨data, middle, read, _⟩ := bind_ok ran
          have dirs := wrote_of_ok (Disk.fileless_mkdirParents _) made
          exact absurd read (cat_bytes_absent (fresh.of_home dirs.home) digest)

/-- What the disk may hold while a vacant directory is made. -/
def vacantPlan (vacant : Vacant machine dest_path) : Plan where
  dir path := machine.inode? path = some .dir ∨
    ∃ way, way <+: Posix.parts dest_path ∧ way ≠ [] ∧
      path = way.foldl Posix.enter []
  file path := ∃ data, machine.inode? path = some (.file data)
  apart path directory file := by
    obtain ⟨data, found⟩ := file
    rcases directory with old | ⟨way, before, nonempty, rfl⟩
    · rw [old] at found
      cases found
    · exact vacant.clear way before nonempty data found

/-- On a fresh Node a served manifest is expanded under its own locator. -/
theorem manifestId_peer (fresh : Fresh machine stores) {base_url : String}
    {raw : Bytes} (served : BlobServed net (sha256_hex raw) base_url raw) :
    manifestId (machine.home.map Home.index)
      (cas_ldp_uri (sha256_hex raw) base_url) none =
      .ok (cas_ldp_uri (sha256_hex raw) base_url) := by
  have http := served.http
  simp [manifestId, notHashlink_of_http http, http, fresh.home, fresh.index,
    find_nothing, Option.filter, bind, Except.bind]

/-- A manifest without entries is expanded. -/
theorem get_peer_empty (fresh : Fresh machine stores) {base_url : String}
    {raw : Bytes} (served : BlobServed net (sha256_hex raw) base_url raw)
    (manifest : readManifest? raw = some [])
    (vacant : Vacant machine dest_path) :
    ∃ after, AddressStore.get net (cas_ldp_uri (sha256_hex raw) base_url)
      dest_path none machine = .ok () after := by
  have kept : Kept (vacantPlan vacant) (some stores) (fun _ => False)
      (fun _ _ => False) { machine with gets := machine.gets + 1 } := by
    constructor
    · exact fresh.home
    · exact fun _ found => .inl found
    · exact fun _ data found => ⟨data, found⟩
    · exact fun _ impossible => impossible.elim
    · exact fun _ _ impossible => impossible.elim
  have planned : ∀ way, way <+: Posix.parts dest_path → way ≠ [] →
      (vacantPlan vacant).dir (way.foldl Posix.enter []) :=
    fun way before nonempty => .inr ⟨way, before, nonempty, rfl⟩
  obtain ⟨_, prepared, made, keptPrepared⟩ := Disk.runs_makedirs
    vacant.nonempty vacant.noNul planned _ kept
  have readAgain := cat_bytes_peer (fresh.of_home
    (keptPrepared.home.trans fresh.home.symm)) served
  have keptRead : Kept (vacantPlan vacant) (some stores) _ _
      { prepared with gets := prepared.gets + 1 } :=
    keptPrepared.same ⟨rfl, rfl, rfl⟩
  obtain ⟨_, ready, opened, -⟩ := Disk.runs_mkdirParents vacant.noNul planned _
    keptRead
  have expanded : AddressStore.materialize_tree net
      (cas_ldp_uri (sha256_hex raw) base_url) dest_path prepared =
      .ok () ready := by
    unfold AddressStore.materialize_tree
    rw [bind_run_ok readAgain, manifestOf_of_read manifest]
    simp only [Act.lift]
    rw [bind_run_ok (pure_run _ _), bind_run_ok opened]
    rfl
  refine ⟨ready, ?_⟩
  unfold AddressStore.get
  rw [served.http, Bool.true_or, Bool.true_or, if_pos rfl,
    bind_run_ok (cat_bytes_peer fresh served), manifest]
  simp only [expandManifest]
  rw [bind_run_ok (get_run _), manifestId_peer fresh served]
  simp only [Act.lift]
  rw [bind_run_ok (pure_run _ _), bind_run_ok made]
  exact expanded

/-- A `get` of a served manifest by its locator reads that manifest again, and
can write only entries that name no digest. -/
theorem fetched_plain_empty (fresh : Fresh machine stores) {base_url : String}
    {raw : Bytes} (served : BlobServed net (sha256_hex raw) base_url raw)
    {entries : Fields} (manifest : readManifest? raw = some entries)
    (sound : DigestEntries entries) {after : Machine}
    (ran : AddressStore.get net (cas_ldp_uri (sha256_hex raw) base_url)
      dest_path none machine = .ok () after) :
    entries = [] := by
  obtain ⟨name, start, listing, middle, expanded, prepared, picked, same,
    listed, parsed, ready, writing⟩ :=
    get_expands (cat_bytes_peer fresh served) manifest ran
  rw [manifestId_peer fresh served] at picked
  obtain rfl := Except.ok.inj picked
  rw [cat_bytes_peer (fresh.of_home same) served] at listed
  obtain ⟨rfl, -⟩ := EStateM.Result.ok.inj listed
  rw [manifest] at parsed
  obtain rfl := Option.some.inj parsed
  exact writeEntries_absent (fresh.of_home ready) sound writing

/-- A `get` of a served manifest by its hashlink goes on with the bare id, and
that is not read. -/
theorem not_fetched_hashlink (fresh : Fresh machine stores) {base_url : String}
    {raw : Bytes} (served : BlobServed net (sha256_hex raw) base_url raw)
    {entries : Fields} (manifest : readManifest? raw = some entries)
    {after : Machine} :
    AddressStore.get net (hashlinkWith (sha256_hex raw)
        (cas_ldp_uri (sha256_hex raw) base_url)) dest_path none machine ≠
      .ok () after := by
  intro ran
  obtain ⟨name, start, listing, middle, expanded, prepared, picked, same,
    listed, -⟩ :=
    get_expands (cat_bytes_peer_hashlink fresh served) manifest ran
  obtain ⟨stripped, isLink, parsedLink⟩ := from_hl_peer served
  simp only [manifestId, isLink, if_true, stripped, parsedLink, Except.map,
    Except.ok.injEq] at picked
  subst picked
  exact absurd listed (cat_bytes_absent (fresh.of_home same) _)

/-- Expanding a manifest without entries writes no file. -/
theorem wrote_nothing (fresh : Fresh machine stores) {base_url : String}
    {raw : Bytes} (served : BlobServed net (sha256_hex raw) base_url raw)
    (manifest : readManifest? raw = some []) {after : Machine}
    (ran : AddressStore.get net (cas_ldp_uri (sha256_hex raw) base_url)
      dest_path none machine = .ok () after) :
    Wrote machine after [] := by
  obtain ⟨first, fetched, read, outcome⟩ := get_ok net ran
  rw [cat_bytes_peer fresh served] at read
  obtain ⟨rfl, -⟩ := EStateM.Result.ok.inj read
  rcases outcome with ⟨notManifest, -⟩ | ⟨name, start, listing, middle,
    expanded, written, picked, same, listed, parsed, entriesWritten, wrote⟩
  · rw [manifest] at notManifest
    cases notManifest
  · rw [manifestId_peer fresh served] at picked
    obtain rfl := Except.ok.inj picked
    rw [cat_bytes_peer (fresh.of_home same) served] at listed
    obtain ⟨rfl, -⟩ := EStateM.Result.ok.inj listed
    rw [manifest] at parsed
    obtain rfl := Option.some.inj parsed
    cases entriesWritten
    exact wrote

/-- A tree that one Node put is fetched whole by a fresh one only when it has no
files and is named by the plain locator of its manifest. -/
theorem peer_tree_fetched_iff {store stored : CasHttpStore}
    {directory : Directory} {ignore : String → Bool} {digest : Digest}
    (put : put_tree store directory ignore = .ok (to_ni digest, stored))
    {base_url : String} (served : ServedAt net stored base_url)
    (fresh : Fresh machine stores) (vacant : Vacant machine dest_path)
    {locator : String}
    (given : locator = cas_ldp_uri digest base_url ∨
      locator = hashlinkWith digest (cas_ldp_uri digest base_url)) :
    FetchesTree net machine locator dest_path (directory.files ignore) ↔
      locator = cas_ldp_uri digest base_url ∧
        directory.files ignore = [] := by
  obtain ⟨raw, entries, id, blob, manifest, sound, empty⟩ := put_tree_ok put
  obtain rfl := to_ni_injective id
  have blobServed := served _ _ blob
  constructor
  · intro fetches
    obtain ⟨after, written, ran, -, -⟩ := fetches
    rcases given with plain | linked
    · rw [plain] at ran
      exact ⟨plain,
        empty.mp (fetched_plain_empty fresh blobServed manifest sound ran)⟩
    · rw [linked] at ran
      exact absurd ran (not_fetched_hashlink fresh blobServed manifest)
  · intro condition
    obtain ⟨plain, noFiles⟩ := condition
    rw [empty.mpr noFiles] at manifest
    obtain ⟨after, ran⟩ := get_peer_empty fresh blobServed manifest vacant
    rw [plain, noFiles]
    exact ⟨after, [], ran, wrote_nothing fresh blobServed manifest ran,
      by simp⟩

section Examples

def freshMachine : Machine := bareMachine (some .empty)

/-- A network with the blobs of one store under `http://a`. -/
def peerNetwork (store : CasHttpStore) : Network where
  answer _ uri :=
    match Url.path uri with
    | .ok path => (casPathDigest? path).bind store.blobs
    | .error _ => none

theorem fresh_freshMachine :
    ∃ stores, Fresh freshMachine stores :=
  ⟨_, { home := rfl, cas := rfl, index := rfl }⟩

theorem vacant_freshMachine : Vacant freshMachine "/d" where
  nonempty := by decide
  noNul := by decide
  clear way before nonempty data := by
    intro found
    by_cases root : way.foldl Posix.enter [] = []
    · simp [Machine.inode?, root] at found
    · simp [Machine.inode?, root, freshMachine, bareMachine] at found

theorem blobServed_peerNetwork {store : CasHttpStore} {digest : Digest}
    {data : Bytes} (stored : store.blobs digest = some data)
    (http : is_http_uri (cas_ldp_uri digest "http://a") = true)
    (path : Url.path (cas_ldp_uri digest "http://a") =
      .ok (cas_ldp_path digest)) :
    BlobServed (peerNetwork store) digest "http://a" data where
  http := http
  path := path
  oneLine := by decide
  answer gets := by
    simp [peerNetwork, path, casPathDigest?_cas_ldp_path, stored]

def emptyManifestDigest : Digest :=
  ⟨"e4e65b6b350528586ee91b46fd8e75ccf871865601ea9f845641fff103a79969",
    by decide +kernel⟩

def emptyManifest : Bytes := sortedDocument (manifestDocument [])

def emptyTreeStore : CasHttpStore where
  blobs := Function.update (fun _ => none) emptyManifestDigest
    (some emptyManifest)

theorem sha256_emptyManifest : sha256_hex emptyManifest = emptyManifestDigest := by
  decide +kernel

theorem put_emptyTree : put_tree .empty (.node [] []) (fun _ => false) =
    .ok (to_ni emptyManifestDigest, emptyTreeStore) := by
  have built : build_manifest_entries [] = .ok (manifestDocument []) := rfl
  have files : putFiles .empty []
      (Directory.files (.node [] []) (fun _ => false)) =
      .ok ([], .empty) := rfl
  have stores : CasHttpStore.empty.put emptyManifest =
      .ok (to_ni emptyManifestDigest, emptyTreeStore) := by
    simp only [CasHttpStore.put, CasHttpStore.empty, sha256_emptyManifest]
    rfl
  simp only [put_tree, files, built, bind, Except.bind]
  exact stores

theorem served_emptyTree :
    ServedAt (peerNetwork emptyTreeStore) emptyTreeStore "http://a" := by
  intro digest data stored
  have one : digest = emptyManifestDigest := by
    by_contra other
    simp [emptyTreeStore, Function.update_of_ne other] at stored
  subst one
  exact blobServed_peerNetwork stored (by decide +kernel) (by decide +kernel)

def oneFileTree : Directory := .node [("a", [])] []

def oneFileManifest : Bytes :=
  sortedDocument (manifestDocument [("a", .str (to_ni emptyDigest))])

def oneFileManifestDigest : Digest :=
  ⟨"3bd972c606c89a383ff19ee7eb3e2a7695a660494119fa2fc4fc1eb8b6f3e863",
    by decide +kernel⟩

def oneFileStore : CasHttpStore where
  blobs := Function.update
    (Function.update (fun _ => none) emptyDigest (some []))
    oneFileManifestDigest (some oneFileManifest)

theorem sha256_nothing : sha256_hex [] = emptyDigest := by
  decide +kernel

theorem sha256_oneFileManifest :
    sha256_hex oneFileManifest = oneFileManifestDigest := by
  decide +kernel

theorem oneFile_digests : oneFileManifestDigest ≠ emptyDigest := by
  decide +kernel

theorem put_oneFileTree : put_tree .empty oneFileTree (fun _ => false) =
    .ok (to_ni oneFileManifestDigest, oneFileStore) := by
  have listed : oneFileTree.files (fun _ => false) = [("a", [])] := by
    simp [Directory.files, oneFileTree, Directory.walk, Directory.walkAll,
      relName]
  have safe : safePath? "a" = some "a" := by decide +kernel
  have built : build_manifest_entries [("a", .str (to_ni emptyDigest))] =
      .ok (manifestDocument [("a", .str (to_ni emptyDigest))]) := by
    simp only [build_manifest_entries, cleanEntries, safe, isDigestId,
      is_ni_or_digest_to_ni, if_true, bind, Except.bind]
    rfl
  have first : CasHttpStore.empty.put [] = .ok (to_ni emptyDigest,
      ⟨Function.update (fun _ => none) emptyDigest (some [])⟩) := by
    simp only [CasHttpStore.put, CasHttpStore.empty, sha256_nothing]
  have second : CasHttpStore.put
      ⟨Function.update (fun _ => none) emptyDigest (some [])⟩
      oneFileManifest =
      .ok (to_ni oneFileManifestDigest, oneFileStore) := by
    simp only [CasHttpStore.put, sha256_oneFileManifest,
      Function.update_of_ne oneFile_digests]
    rfl
  simp only [put_tree, listed, putFiles, first, bind, Except.bind, Fields.set,
    built]
  exact second

theorem served_oneFileTree :
    ServedAt (peerNetwork oneFileStore) oneFileStore "http://a" := by
  intro digest data stored
  by_cases manifest : digest = oneFileManifestDigest
  · subst manifest
    exact blobServed_peerNetwork stored (by decide +kernel) (by decide +kernel)
  · have blob : digest = emptyDigest := by
      by_contra other
      simp [oneFileStore, Function.update_of_ne manifest,
        Function.update_of_ne other] at stored
    subst blob
    exact blobServed_peerNetwork stored (by decide +kernel) (by decide +kernel)

/-- A directory with one file is not fetched from the Node that put it. -/
theorem peer_tree_not_fetched :
    ¬ ∀ (net : Network) (store stored : CasHttpStore) (directory : Directory)
      (ignore : String → Bool) (digest : Digest),
      put_tree store directory ignore = .ok (to_ni digest, stored) →
      ∀ (base_url : String), ServedAt net stored base_url →
      ∀ (machine : Machine) (stores : Home), Fresh machine stores →
      ∀ (dest_path : String), Vacant machine dest_path →
      FetchesTree net machine (cas_ldp_uri digest base_url) dest_path
          (directory.files ignore) ∧
        FetchesTree net machine
          (hashlinkWith digest (cas_ldp_uri digest base_url)) dest_path
          (directory.files ignore) := by
  intro complete
  obtain ⟨stores, fresh⟩ := fresh_freshMachine
  obtain ⟨after, written, ran, -, -⟩ := (complete (peerNetwork oneFileStore)
    .empty oneFileStore oneFileTree (fun _ => false) oneFileManifestDigest
    put_oneFileTree "http://a" served_oneFileTree freshMachine stores fresh "/d"
    vacant_freshMachine).1
  obtain ⟨raw, entries, id, blob, manifest, sound, empty⟩ :=
    put_tree_ok put_oneFileTree
  have named := to_ni_injective id
  rw [named] at ran
  have noEntries := fetched_plain_empty fresh (served_oneFileTree _ _ blob)
    manifest sound ran
  have listed : oneFileTree.files (fun _ => false) = [("a", [])] := by
    simp [Directory.files, oneFileTree, Directory.walk, Directory.walkAll,
      relName]
  have nothing := empty.mp noEntries
  rw [listed] at nothing
  cases nothing

/-- The empty directory is fetched by its plain locator. -/
theorem peer_tree_fetched_empty :
    FetchesTree (peerNetwork emptyTreeStore) freshMachine
      (cas_ldp_uri emptyManifestDigest "http://a") "/d" [] := by
  obtain ⟨stores, fresh⟩ := fresh_freshMachine
  exact (peer_tree_fetched_iff put_emptyTree served_emptyTree fresh
    vacant_freshMachine (.inl rfl)).mpr ⟨rfl, rfl⟩

end Examples

end AddressStore

end Cats
