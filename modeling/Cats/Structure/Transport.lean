import Cats.AddressStore.Get
import Cats.Cas.Materialize

/-!
# Moving a directory through the store

`migrate` expands a directory into a temporary place and puts it again.  With
it stand the laws a directory id is relied on for: it restores the directory,
it comes back when the directory is put again, and it tells directories apart.
-/

namespace Cats

open Effect

namespace Transport

/-- `_is_cas_content_id(content_id)`. -/
def is_cas_content_id (content_id : String) : Bool :=
  Text.startsWith content_id "ni:" || Text.startsWith content_id "http://" ||
    Text.startsWith content_id "https://" ||
    isHexSha256 (Text.lower content_id)

/-- `_legacy_cid_unsupported(content_id)`. -/
def legacy_cid_unsupported (content_id : String) : Raised :=
  .runtimeError
    s!"Legacy CID {Text.repr content_id} is unsupported (§6s); remint to ni: / HTTP uri"

/-- The stores of the Node. -/
def localHome : Act Home := do
  let machine ← (MonadState.get : Act Machine)
  match machine.home with
  | some home => pure home
  | none => throw (.runtimeError "CATS_HOME is required")

/-- `_cas_materialize(content_id, dest_dir, cats_home=cats_home)`. -/
def cas_materialize (net : Network) (content_id dest_dir : String) :
    Act Unit :=
  if is_http_uri content_id then AddressStore.get net content_id dest_dir
  else do
    let home ← localHome
    let raw ← CasTree.fetch home.cas (.str content_id)
    match readManifest? raw with
    | some _ =>
        CasTree.materialize_tree (CasTree.fetch home.cas) content_id dest_dir
    | none => do
        Disk.makedirs dest_dir
        Disk.writeFile (Posix.join dest_dir "payload.bin") raw

/-- How the host lists a directory. -/
abbrev Walk := Machine → Path → Directory

/-- What is listed is what is there. -/
def Walk.Faithful (walk : Walk) : Prop :=
  ∀ machine root, (∃ directory, Lists root directory machine) →
    Lists root (walk machine root) machine

/-- `_cas_put_tree(directory, cats_home=cats_home)`. -/
def cas_put_tree (walk : Walk) (base_url directory : String) : Act String := do
  let home ← localHome
  let machine ← (MonadState.get : Act Machine)
  if machine.inode? (Posix.resolve directory) ≠ some .dir then
    throw ⟨.notADirectoryError, directory⟩
  else do
    let put ← Act.lift (put_tree home.cas
      (walk machine (Posix.resolve directory)) fun _ => false)
    let index ← Act.lift (home.index.put_cas_node_locator put.1 base_url
      (some "application/json"))
    modify fun machine =>
      { machine with home := some { home with cas := put.2, index := index } }
    pure put.1

/-- `TransportContext.migrate(input_dir_id)`: the id, with the name of the
temporary directory's `data_…`. -/
def migrate (net : Network) (walk : Walk) (base_url temporary data_name
    input_dir_id : String) : Act (String × String) :=
  if is_cas_content_id input_dir_id then do
    let dest := Posix.join temporary data_name
    Disk.mkdtemp temporary
    -- `with tempfile.TemporaryDirectory(…)`
    let content_id ← tryCatch (do
        cas_materialize net input_dir_id dest
        cas_put_tree walk base_url dest)
      fun raised => do
        Disk.rmtree temporary
        throw raised
    Disk.rmtree temporary
    pure (content_id, data_name)
  else throw (legacy_cid_unsupported input_dir_id)

section Laws

/-- No path of a directory has a backslash. -/
def NoBackslash (directory : Directory) : Prop :=
  PlainPaths directory.allFiles

/-- Two directories are one file map. -/
def SameMap (left right : Directory) : Prop :=
  ∀ path data, (path, data) ∈ left.fileMap ↔ (path, data) ∈ right.fileMap

/-- What the id of a stored directory is good for. -/
structure Restored (directory : Directory) (content_id : String)
    (stored : CasHttpStore) : Prop where
  materialized : ∀ dest_dir machine, EmptyDir dest_dir machine →
    ∃ after, CasTree.materialize_tree (CasTree.fetch stored) content_id
        dest_dir machine = .ok () after ∧
      Lists (Posix.resolve dest_dir) directory after
  again : ∀ dest_dir machine after other, EmptyDir dest_dir machine →
    CasTree.materialize_tree (CasTree.fetch stored) content_id dest_dir
      machine = .ok () after →
    Lists (Posix.resolve dest_dir) other after →
    ∃ kept, put_tree stored other (fun _ => false) = .ok (content_id, kept)
  migrated : ∀ net walk base_url temporary data_name machine made home index,
    Walk.Faithful walk → machine.home = some home → home.cas = stored →
    home.index.put_cas_node_locator content_id base_url
      (some "application/json") = .ok index →
    Disk.mkdtemp temporary machine = .ok () made →
    EmptyDir (Posix.join temporary data_name) made →
    ∃ after, migrate net walk base_url temporary data_name content_id machine =
      .ok (content_id, data_name) after

/-- A directory is stored, and its id restores it. -/
def RoundTrips (store : CasHttpStore) (directory : Directory) : Prop :=
  ∃ content_id stored, put_tree store directory (fun _ => false) =
      .ok (content_id, stored) ∧ Restored directory content_id stored

/-- The laws of directory ids, for two directories. -/
structure TreeLaws (store : CasHttpStore) (left right : Directory) : Prop where
  first : RoundTrips store left
  second : RoundTrips store right
  ids : ∀ leftId rightId leftStore rightStore,
    put_tree store left (fun _ => false) = .ok (leftId, leftStore) →
    put_tree store right (fun _ => false) = .ok (rightId, rightStore) →
    (leftId = rightId ↔ SameMap left right)

/-- The bytes in play, of which no two have one sha256. -/
structure InPlay (seen : Set Bytes) (directory : Directory) : Prop where
  data : ∀ file ∈ directory.allFiles, file.2 ∈ seen
  manifest : treeDocument directory.allFiles ∈ seen

end Laws

section Plain

variable {seen : Set Bytes} {store : CasHttpStore} {directory : Directory}

/-- One map, the same files. -/
theorem allFiles_perm {left right : Directory} (leftProper : left.Proper)
    (rightProper : right.Proper) (same : SameMap left right) :
    left.allFiles.Perm right.allFiles := by
  have covers : ∀ {some others : Directory}, SameMap some others →
      ∀ file ∈ some.allFiles, file ∈ others.allFiles := by
    intro some others equal file member
    obtain ⟨other, among, alike⟩ := List.mem_map.mp
      ((equal _ _).mp (List.mem_map.mpr ⟨file, member, rfl⟩))
    rw [Prod.mk.injEq] at alike
    rwa [← Prod.ext (components_injective alike.1) alike.2]
  have swapped : SameMap right left := fun path data => (same path data).symm
  rw [List.perm_ext_iff_of_nodup
    (List.Nodup.of_map _ (Directory.nodup_files_names leftProper))
    (List.Nodup.of_map _ (Directory.nodup_files_names rightProper))]
  intro file
  exact ⟨covers same file, covers swapped file⟩

theorem sameMap_of_perm {left right : Directory}
    (same : left.allFiles.Perm right.allFiles) : SameMap left right :=
  fun _ _ => (same.map _).mem_iff

theorem treeId_eq_of_perm {left right : Directory} (proper : left.Proper)
    (same : left.allFiles.Perm right.allFiles) :
    treeId left.allFiles = treeId right.allFiles := by
  have entries : (treeEntries left.allFiles).Perm
      (treeEntries right.allFiles) := same.map _
  have keys := (digestEntries_treeEntries
    (@Directory.nodup_files_names left (fun _ => false) proper)).nodup
  unfold treeId treeDocument
  rw [Json.sortKeysFields_eq_of_perm keys entries]

theorem inPlay_of_perm {left right : Directory} (proper : left.Proper)
    (same : left.allFiles.Perm right.allFiles) (inPlay : InPlay seen left) :
    InPlay seen right := by
  have entries : (treeEntries left.allFiles).Perm
      (treeEntries right.allFiles) := same.map _
  have keys := (digestEntries_treeEntries
    (@Directory.nodup_files_names left (fun _ => false) proper)).nodup
  constructor
  · intro file member
    exact inPlay.data file (same.mem_iff.mpr member)
  · have document := inPlay.manifest
    unfold treeDocument at document ⊢
    rwa [Json.sortKeysFields_eq_of_perm keys entries] at document

/-- A directory without backslashes is put under its id. -/
theorem put_tree_of_plain (proper : directory.Proper)
    (plain : NoBackslash directory) (within : store.Within seen)
    (apart : Set.InjOn sha256_hex seen) (inPlay : InPlay seen directory) :
    ∃ stored, put_tree store directory (fun _ => false) =
        .ok (treeId directory.allFiles, stored) ∧
      TreeStored seen store stored directory.allFiles :=
  put_tree_plain proper plain within apart inPlay.data inPlay.manifest

/-- So is any other listing of it. -/
theorem put_tree_again {stored : CasHttpStore} {other : Directory}
    (proper : directory.Proper) (plain : NoBackslash directory)
    (within : stored.Within seen) (apart : Set.InjOn sha256_hex seen)
    (inPlay : InPlay seen directory) (otherProper : other.Proper)
    (same : SameMap directory other) :
    ∃ kept, put_tree stored other (fun _ => false) =
      .ok (treeId directory.allFiles, kept) := by
  have perm := allFiles_perm proper otherProper same
  have plainOther : NoBackslash other := fun file member =>
    plain file (perm.mem_iff.mpr member)
  obtain ⟨kept, put, _⟩ := put_tree_of_plain otherProper plainOther within
    apart (inPlay_of_perm proper perm inPlay)
  exact ⟨kept, by rw [treeId_eq_of_perm proper perm, put]⟩

theorem sameMap_of_lists {machine : Machine} {root : Path}
    {left right : Directory} (first : Lists root left machine)
    (second : Lists root right machine) : SameMap left right :=
  fun path data => (first.files path data).symm.trans (second.files path data)

end Plain

section Restoring

variable {seen : Set Bytes} {store stored : CasHttpStore}
  {directory : Directory}

/-- A stored directory is expanded where nothing lies. -/
theorem materialize_plain (proper : directory.Proper)
    (plain : NoBackslash directory)
    (whole : TreeStored seen store stored directory.allFiles)
    {dest_dir : String} {machine : Machine}
    (empty : EmptyDir dest_dir machine) :
    ∃ after, CasTree.materialize_tree (CasTree.fetch stored)
        (treeId directory.allFiles) dest_dir machine = .ok () after ∧
      after.home = machine.home ∧
      after.inode? (Posix.resolve dest_dir) = some .dir ∧
      Lists (Posix.resolve dest_dir) directory after := by
  obtain ⟨after, ran, home, there, files⟩ :=
    materialize_stored proper plain whole empty
  exact ⟨after, ran, home, there, proper, files⟩

theorem localHome_run {machine : Machine} {home : Home}
    (there : machine.home = some home) :
    localHome machine = .ok home machine := by
  unfold localHome
  rw [bind_run_ok (get_run machine), there]
  rfl

theorem is_cas_content_id_to_ni (digest : Digest) :
    is_cas_content_id (to_ni digest) = true := by
  have ni : Text.startsWith (to_ni digest) "ni:" = true := by
    rw [Text.startsWith_iff, toList_to_ni]
    exact ⟨"///sha-256;".toList ++ Base64Url.encode digest.bytes, rfl⟩
  rw [is_cas_content_id, ni, Bool.true_or, Bool.true_or, Bool.true_or]

theorem home_mkdtemp {path : String} {machine after : Machine}
    (ran : Disk.mkdtemp path machine = .ok () after) :
    after.home = machine.home := by
  unfold Disk.mkdtemp at ran
  rw [bind_run_ok (get_run machine)] at ran
  split_ifs at ran
  · cases ran
  · cases ran
    rfl
  · cases ran

theorem cas_materialize_manifest (net : Network) {machine : Machine}
    {home : Home} {dest_dir : String} (proper : directory.Proper)
    (there : machine.home = some home)
    (whole : TreeStored seen store home.cas directory.allFiles) :
    cas_materialize net (treeId directory.allFiles) dest_dir machine =
      CasTree.materialize_tree (CasTree.fetch home.cas)
        (treeId directory.allFiles) dest_dir machine := by
  have manifest : CasTree.fetch home.cas (.str (treeId directory.allFiles)) =
      pure (treeDocument directory.allFiles) :=
    CasTree.fetch_to_ni whole.manifest
  have listed := readManifest?_treeDocument
    (@Directory.nodup_files_names directory (fun _ => false) proper)
  have local_ : is_http_uri (treeId directory.allFiles) = false :=
    isHttp_to_ni _
  unfold cas_materialize
  rw [local_, if_neg Bool.false_ne_true, bind_run_ok (localHome_run there),
    manifest, pure_bind, listed]

/-- What lies at a place is put under the id of the directory it is. -/
theorem cas_put_tree_listed {machine : Machine} {home : Home} {walk : Walk}
    {base_url place : String} {index : LocatorIndex}
    (faithful : walk.Faithful) (proper : directory.Proper)
    (plain : NoBackslash directory) (apart : Set.InjOn sha256_hex seen)
    (inPlay : InPlay seen directory) (there : machine.home = some home)
    (within : home.cas.Within seen)
    (isDir : machine.inode? (Posix.resolve place) = some .dir)
    (lists : Lists (Posix.resolve place) directory machine)
    (indexed : home.index.put_cas_node_locator (treeId directory.allFiles)
      base_url (some "application/json") = .ok index) :
    ∃ after, cas_put_tree walk base_url place machine =
      .ok (treeId directory.allFiles) after := by
  have walked := faithful machine (Posix.resolve place) ⟨directory, lists⟩
  obtain ⟨kept, put⟩ := put_tree_again proper plain within apart inPlay
    walked.proper (sameMap_of_lists lists walked)
  unfold cas_put_tree
  rw [bind_run_ok (localHome_run there), bind_run_ok (get_run machine),
    if_neg (not_not.mpr isDir), put]
  dsimp only [Act.lift]
  rw [pure_bind]
  dsimp only
  rw [indexed]
  exact ⟨_, rfl⟩

/-- The id of a directory without backslashes restores it. -/
theorem restored_of_plain (proper : directory.Proper)
    (plain : NoBackslash directory) (apart : Set.InjOn sha256_hex seen)
    (inPlay : InPlay seen directory)
    (whole : TreeStored seen store stored directory.allFiles) :
    Restored directory (treeId directory.allFiles) stored where
  materialized dest_dir machine empty := by
    obtain ⟨after, ran, _, _, lists⟩ := materialize_plain proper plain whole empty
    exact ⟨after, ran, lists⟩
  again dest_dir machine after other empty ran lists := by
    obtain ⟨same, again, _, _, listed⟩ :=
      materialize_plain proper plain whole empty
    rw [ran] at again
    cases again
    exact put_tree_again proper plain whole.within apart inPlay lists.proper
      (sameMap_of_lists listed lists)
  migrated net walk base_url temporary data_name machine made home index
      faithful there cas indexed temp empty := by
    have homeMade : made.home = some home := by
      rw [home_mkdtemp temp, there]
    have wholeHome : TreeStored seen store home.cas directory.allFiles := by
      rw [cas]
      exact whole
    obtain ⟨expanded, ran, kept, isDir, lists⟩ :=
      materialize_plain proper plain wholeHome empty
    rw [← cas_materialize_manifest net proper homeMade wholeHome] at ran
    obtain ⟨after, put⟩ := cas_put_tree_listed faithful proper plain apart inPlay
      (kept.trans homeMade) wholeHome.within isDir lists indexed
    have body : (do
        cas_materialize net (treeId directory.allFiles)
          (Posix.join temporary data_name)
        cas_put_tree walk base_url (Posix.join temporary data_name) :
          Act String) made = .ok (treeId directory.allFiles) after :=
      (bind_run_ok ran).trans put
    have cas_id := is_cas_content_id_to_ni
      (sha256_hex (treeDocument directory.allFiles))
    unfold migrate
    rw [treeId] at body ⊢
    rw [cas_id, if_pos rfl, bind_run_ok temp,
      bind_run_ok (tryCatch_run_ok body)]
    exact ⟨_, rfl⟩

end Restoring

section Backslashes

theorem fileless_fetch (store : CasHttpStore) (cid : Json) :
    Fileless (CasTree.fetch store cid) := by
  intro machine
  cases cid with
  | str id =>
      unfold CasTree.fetch
      dsimp only
      cases store.get id with
      | error raised => exact Wrote.refl machine
      | ok found =>
          cases found with
          | none => exact Wrote.refl machine
          | some data => exact Wrote.refl machine
  | _ => exact Wrote.refl machine

/-- A place some safe path leads to. -/
def SafePlace (dest_dir : String) (place : Path) : Prop :=
  ∃ rel path, safePath? rel = some path ∧
    place = Posix.resolve (Posix.join dest_dir path)

theorem writeEntries_places {fetch_bytes : Json → Act Bytes}
    (fileless : ∀ cid, Fileless (fetch_bytes cid)) {dest_dir : String}
    {entries : Fields} {machine after : Machine}
    (ran : CasTree.writeEntries fetch_bytes dest_dir entries machine =
      .ok () after) :
    ∃ written, Wrote machine after written ∧
      ∀ place ∈ written.map Prod.fst, SafePlace dest_dir place := by
  induction entries generalizing machine with
  | nil =>
      cases ran
      refine ⟨[], Wrote.refl _, ?_⟩
      intro place member
      cases member
  | cons entry entries induction =>
      obtain ⟨rel, file_id⟩ := entry
      rw [CasTree.writeEntries] at ran
      cases safe : safePath? rel with
      | none =>
          rw [safe] at ran
          cases ran
      | some path =>
          rw [safe] at ran
          obtain ⟨_, made, dirs, ran⟩ := bind_ok ran
          obtain ⟨data, fetched, got, ran⟩ := bind_ok ran
          obtain ⟨_, stored, wrote, rest⟩ := bind_ok ran
          obtain ⟨written, later, places⟩ := induction rest
          have before := (wrote_of_ok (Disk.fileless_mkdirParents _) dirs).trans_nil
            (wrote_of_ok (fileless file_id) got)
          refine ⟨_, (before.trans (Disk.writeFile_ok wrote)).trans later, ?_⟩
          intro place member
          rw [List.nil_append, List.map_append, List.mem_append] at member
          rcases member with here | deeper
          · exact ⟨rel, path, safe, List.mem_singleton.mp here⟩
          · exact places place deeper

theorem materialize_places {store : CasHttpStore} {content_id dest_dir : String}
    {machine after : Machine}
    (ran : CasTree.materialize_tree (CasTree.fetch store) content_id dest_dir
      machine = .ok () after) :
    ∃ written, Wrote machine after written ∧
      ∀ place ∈ written.map Prod.fst, SafePlace dest_dir place := by
  obtain ⟨raw, fetched, got, ran⟩ := bind_ok ran
  obtain ⟨entries, checked, parsed, ran⟩ := bind_ok ran
  obtain ⟨_, made, dirs, ran⟩ := bind_ok ran
  have sameState := (lift_ok parsed).2
  rw [sameState] at dirs
  obtain ⟨written, later, places⟩ :=
    writeEntries_places (fileless_fetch store) ran
  have before := (wrote_of_ok (fileless_fetch store _) got).trans_nil
    (wrote_of_ok (Disk.fileless_mkdirParents _) dirs)
  exact ⟨written, before.trans later, places⟩

theorem cleanPath_noBackslash (rel : String) :
    '\\' ∉ (cleanPath rel).toList := by
  intro member
  rw [cleanPath, String.toList_ofList] at member
  obtain ⟨character, _, same⟩ :=
    List.mem_map.mp ((List.dropWhile_sublist _).subset member)
  split_ifs at same with backslash
  · cases same
  · exact backslash same

theorem mem_of_mem_parts {text : String} {part : List Char}
    {character : Char} (member : part ∈ Posix.parts text)
    (inside : character ∈ part) (notSlash : character ≠ '/') :
    character ∈ text.toList := by
  have between := Posix.infix_of_mem_splitOn (List.mem_filter.mp member).1
  have spelled : character ∈ '/' :: (part ++ ['/']) :=
    List.mem_cons_of_mem _ (List.mem_append_left _ inside)
  rcases List.mem_cons.mp (between.subset spelled) with slash | deeper
  · exact absurd slash notSlash
  · rcases List.mem_append.mp deeper with found | slash
    · exact found
    · exact absurd (List.mem_singleton.mp slash) notSlash

/-- No place below the destination has a backslash. -/
theorem noBackslash_of_safePlace {dest_dir : String} {path : Path}
    (place : SafePlace dest_dir (Posix.resolve dest_dir ++ path)) :
    ∀ part ∈ path, '\\' ∉ part := by
  obtain ⟨rel, cleaned, safe, same⟩ := place
  obtain ⟨relative, stays⟩ := safePath?_some safe
  have leading : ∀ part ∈ Posix.parts cleaned,
      Posix.leads part = true ∧ part ≠ ['.', '.'] := by
    intro part member
    exact ⟨(List.mem_filter.mp member).2, fun climbs => stays (climbs ▸ member)⟩
  rw [Posix.resolve_join dest_dir relative, Posix.resolveFrom_eq_foldl,
    foldl_enter_leading _ leading] at same
  intro part member backslash
  rw [List.append_cancel_left same] at member
  have found := mem_of_mem_parts member backslash (by decide)
  unfold safePath? at safe
  split_ifs at safe
  cases safe
  exact cleanPath_noBackslash rel found

/-- What is laid out again has no backslash. -/
theorem noBackslash_of_materialized {store : CasHttpStore}
    {directory : Directory} {content_id dest_dir : String}
    {machine after : Machine} (empty : EmptyDir dest_dir machine)
    (ran : CasTree.materialize_tree (CasTree.fetch store) content_id dest_dir
      machine = .ok () after)
    (lists : Lists (Posix.resolve dest_dir) directory after) :
    NoBackslash directory := by
  obtain ⟨written, wrote, places⟩ := materialize_places ran
  intro file member backslash
  obtain ⟨nonempty, named⟩ :=
    Directory.names_of_mem_files lists.proper member
  have there := (lists.files (components file.1) file.2).mpr
    (List.mem_map.mpr ⟨file, member, rfl⟩)
  have nothing : machine.file? (Posix.resolve dest_dir ++ components file.1) =
      none := by
    rw [Machine.file?, empty.below _ nonempty]
  have placed : Posix.resolve dest_dir ++ components file.1 ∈
      written.map Prod.fst := by
    by_contra absent
    rw [wrote.files, overlay_of_notMem absent, nothing] at there
    cases there
  obtain ⟨part, among, found⟩ :=
    Posix.exists_part_of_mem backslash (by decide) (by decide)
  rw [parts_of_names named] at among
  exact noBackslash_of_safePlace (places _ placed) part among found

end Backslashes

section Exactly

/-- A disk with nothing on it. -/
def bareDisk : Machine where
  home := none
  disk _ := none
  writes := []
  gets := 0

theorem inode_bareDisk {path : Path} (some : path ≠ []) :
    bareDisk.inode? path = none := if_neg some

theorem emptyDir_bareDisk : EmptyDir "/d" bareDisk where
  noNul := by decide
  way way inside some := by
    have parts : Posix.parts "/d" = [['d']] := by decide
    rw [parts] at inside
    have whole : way = [['d']] := by
      cases way with
      | nil => exact absurd rfl some
      | cons part rest =>
          obtain ⟨same, below⟩ := List.cons_prefix_cons.mp inside
          rw [same, List.prefix_nil.mp below]
    apply Or.inr
    rw [whole]
    exact List.prefix_refl _
  clear path data _ there := by
    by_cases top : path = []
    · rw [top, Machine.inode?, if_pos rfl] at there
      cases there
    · rw [inode_bareDisk top] at there
      cases there
  below path some := by
    apply inode_bareDisk
    exact List.append_ne_nil_of_right_ne_nil _ some

theorem noBackslash_of_roundTrips {store : CasHttpStore}
    {directory : Directory} (trips : RoundTrips store directory) :
    NoBackslash directory := by
  obtain ⟨content_id, stored, _, restored⟩ := trips
  obtain ⟨after, ran, lists⟩ :=
    restored.materialized "/d" bareDisk emptyDir_bareDisk
  exact noBackslash_of_materialized emptyDir_bareDisk ran lists

/-- Directory ids keep their laws exactly for directories without
backslashes. -/
theorem treeLaws_iff {seen : Set Bytes} {store : CasHttpStore}
    {left right : Directory} (leftProper : left.Proper)
    (rightProper : right.Proper) (within : store.Within seen)
    (apart : Set.InjOn sha256_hex seen) (leftBytes : InPlay seen left)
    (rightBytes : InPlay seen right) :
    TreeLaws store left right ↔ NoBackslash left ∧ NoBackslash right := by
  constructor
  · intro laws
    exact ⟨noBackslash_of_roundTrips laws.first,
      noBackslash_of_roundTrips laws.second⟩
  · intro plain
    obtain ⟨leftStored, leftPut, leftWhole⟩ :=
      put_tree_of_plain leftProper plain.1 within apart leftBytes
    obtain ⟨rightStored, rightPut, rightWhole⟩ :=
      put_tree_of_plain rightProper plain.2 within apart rightBytes
    refine ⟨⟨_, _, leftPut, restored_of_plain leftProper plain.1 apart leftBytes
      leftWhole⟩, ⟨_, _, rightPut, restored_of_plain rightProper plain.2 apart
      rightBytes rightWhole⟩, ?_⟩
    intro leftId rightId leftStore rightStore first second
    rw [leftPut] at first
    rw [rightPut] at second
    cases first
    cases second
    constructor
    · intro same
      have documents := apart leftBytes.manifest rightBytes.manifest
        (to_ni_injective same)
      apply sameMap_of_perm
      exact (treeDocument_eq_iff apart leftBytes.data rightBytes.data
        (Directory.nodup_files_names leftProper)
        (Directory.nodup_files_names rightProper)).mp documents
    · intro same
      exact treeId_eq_of_perm leftProper
        (allFiles_perm leftProper rightProper same)

end Exactly

section Small

/-- A directory of one file with the byte 1. -/
def oneFile (name : String) : Directory := .node [(name, [1])] []

def noFile : Directory := .node [] []

theorem proper_noFile : noFile.Proper := by
  refine ⟨?_, List.nodup_nil, trivial⟩
  intro file member
  cases member

theorem proper_oneFile {name : String} (named : FileName name) :
    (oneFile name).Proper := by
  refine ⟨?_, List.nodup_singleton name, trivial⟩
  intro file member
  rw [List.mem_singleton.mp member]
  exact named

theorem fileName_a : FileName "a" where
  nonempty := by decide
  notDot := by decide
  notParent := by decide
  noSlash := by decide
  noNul := by decide

theorem fileName_backslash : FileName "a\\b" where
  nonempty := by decide
  notDot := by decide
  notParent := by decide
  noSlash := by decide
  noNul := by decide

theorem within_empty (seen : Set Bytes) : CasHttpStore.empty.Within seen where
  intact := CasHttpStore.intact_empty
  seen digest data held := by cases held

/-- The bytes of a list, of which no two have one sha256. -/
theorem injOn_of_list {all : List Bytes}
    (different : ∀ left ∈ all, ∀ right ∈ all,
      sha256_hex left = sha256_hex right → left = right) :
    Set.InjOn sha256_hex { data | data ∈ all } :=
  fun _ first _ second same => different _ first _ second same

def oneFileBytes (name : String) : List Bytes :=
  [[1], treeDocument (oneFile name).allFiles, treeDocument noFile.allFiles]

theorem inPlay_oneFile (name : String) :
    InPlay { data | data ∈ oneFileBytes name } (oneFile name) where
  data file member := by
    rw [List.mem_singleton.mp member]
    exact List.mem_cons_self
  manifest := List.mem_cons_of_mem _ List.mem_cons_self

theorem inPlay_noFile (name : String) :
    InPlay { data | data ∈ oneFileBytes name } noFile where
  data file member := by cases member
  manifest := List.mem_cons_of_mem _ (List.mem_cons_of_mem _ List.mem_cons_self)

theorem treeLaws_iff_small :
    TreeLaws .empty (oneFile "a") noFile ↔
      NoBackslash (oneFile "a") ∧ NoBackslash noFile :=
  treeLaws_iff (proper_oneFile fileName_a) proper_noFile (within_empty _)
    (@injOn_of_list (oneFileBytes "a") (by decide +kernel))
    (inPlay_oneFile "a") (inPlay_noFile "a")

/-- The file `a\b` comes back as `a/b`. -/
theorem backslash_lost : ¬ ∀ (seen : Set Bytes) (store : CasHttpStore)
    (left right : Directory), left.Proper → right.Proper →
    store.Within seen → Set.InjOn sha256_hex seen → InPlay seen left →
    InPlay seen right → TreeLaws store left right := by
  intro laws
  have broken := laws _ .empty (oneFile "a\\b") noFile
    (proper_oneFile fileName_backslash) proper_noFile (within_empty _)
    (@injOn_of_list (oneFileBytes "a\\b") (by decide +kernel))
    (inPlay_oneFile _) (inPlay_noFile _)
  have plain := noBackslash_of_roundTrips broken.first
  exact plain ("a\\b", [1]) List.mem_cons_self (by decide)

end Small

end Transport

end Cats
