import Cats.Cas.FileMap
import Cats.Cas.Interrupted
import Cats.Codec.JsonSort
import Mathlib.Data.Set.Function

/-!
# The id of a directory

The manifest of a directory lists its files by path and digest, sorted, so the
id depends on the file map only and determines it.  That holds where no path
has a backslash: the manifest writes a slash for each.  The bytes in play are
taken to have distinct digests.
-/

namespace Cats

/-- Whole blobs of the bytes in play. -/
structure CasHttpStore.Within (seen : Set Bytes) (store : CasHttpStore) :
    Prop where
  intact : store.Intact
  seen : ∀ digest data, store.blobs digest = some data → data ∈ seen

/-- What a store holds, another holds too. -/
def CasHttpStore.Grows (store after : CasHttpStore) : Prop :=
  ∀ digest data, store.blobs digest = some data →
    after.blobs digest = some data

namespace CasHttpStore

theorem Grows.refl (store : CasHttpStore) : Grows store store :=
  fun _ _ held => held

theorem Grows.trans {first second third : CasHttpStore}
    (start : Grows first second) (rest : Grows second third) :
    Grows first third :=
  fun digest data held => rest digest data (start digest data held)

variable {seen : Set Bytes} {store : CasHttpStore}

/-- What is put into a store without a collision is there afterwards. -/
theorem Within.put (within : Within seen store)
    (apart : Set.InjOn sha256_hex seen) {data : Bytes} (known : data ∈ seen) :
    ∃ after, store.put data = .ok (to_ni (sha256_hex data), after) ∧
      Within seen after ∧ Grows store after ∧
      after.blobs (sha256_hex data) = some data := by
  have existing : ∀ old, store.blobs (sha256_hex data) = some old →
      old = data := by
    intro old held
    exact apart (within.seen _ _ held) known (within.intact _ _ held)
  have succeeds : ∃ after, store.put data =
      .ok (to_ni (sha256_hex data), after) := by
    unfold CasHttpStore.put
    dsimp only
    cases held : store.blobs (sha256_hex data) with
    | none => exact ⟨_, rfl⟩
    | some old =>
        dsimp only
        rw [if_pos (existing old held)]
        exact ⟨_, rfl⟩
  obtain ⟨after, stored⟩ := succeeds
  have blobs := (put_ok stored).2
  refine ⟨after, stored, ⟨?_, ?_⟩, ?_, ?_⟩
  · intro digest found held
    rw [blobs] at held
    by_cases same : digest = sha256_hex data
    · rw [same, Function.update_self, Option.some.injEq] at held
      rw [same, held]
    · rw [Function.update_of_ne same] at held
      exact within.intact digest found held
  · intro digest found held
    rw [blobs] at held
    by_cases same : digest = sha256_hex data
    · rw [same, Function.update_self, Option.some.injEq] at held
      exact held ▸ known
    · rw [Function.update_of_ne same] at held
      exact within.seen digest found held
  · intro digest found held
    rw [blobs]
    by_cases same : digest = sha256_hex data
    · rw [same] at held
      rw [same, Function.update_self, existing found held]
    · rw [Function.update_of_ne same, held]
  · rw [blobs, Function.update_self]

end CasHttpStore

/-- The entries of the manifest of some files. -/
def treeEntries (files : List (String × Bytes)) : Fields :=
  files.map fun file => (file.1, .str (to_ni (sha256_hex file.2)))

/-- The manifest of some files, as it is stored. -/
def treeDocument (files : List (String × Bytes)) : Bytes :=
  sortedDocument (manifestDocument (Json.sortKeysFields (treeEntries files)))

/-- No path of some files has a backslash. -/
def PlainPaths (files : List (String × Bytes)) : Prop :=
  ∀ file ∈ files, '\\' ∉ file.1.toList

section Paths

theorem cleanPath_plain {rel : String} (plain : '\\' ∉ rel.toList)
    (relative : rel.toList.head? ≠ some '/') : cleanPath rel = rel := by
  have kept : (rel.toList.map fun character =>
      if character = '\\' then '/' else character) = rel.toList := by
    have each : ∀ character ∈ rel.toList,
        (if character = '\\' then '/' else character) = id character := by
      intro character member
      have different : character ≠ '\\' := fun same => plain (same ▸ member)
      rw [if_neg different, id]
    rw [List.map_congr_left each, List.map_id]
  have whole : rel.toList.dropWhile (· = '/') = rel.toList := by
    cases text : rel.toList with
    | nil => rfl
    | cons character rest =>
        rw [text] at relative
        have different : character ≠ '/' := fun same => relative (by rw [same]; rfl)
        rw [List.dropWhile_cons, if_neg (by simpa using different)]
  rw [cleanPath, kept, whole, String.ofList_toList]

/-- Between slashes stands a component. -/
theorem mem_splitOn_of_infix {text component : List Char}
    (plain : '/' ∉ component)
    (between : '/' :: (component ++ ['/']) <:+: '/' :: (text ++ ['/'])) :
    component ∈ Text.splitOn '/' text ∨ component = [] := by
  obtain ⟨left, right, whole⟩ := between
  have outer := congrArg (Text.splitOn '/') whole
  have inner : left ++ '/' :: (component ++ ['/']) ++ right =
      left ++ '/' :: (component ++ '/' :: right) := by simp
  have ended : '/' :: (text ++ ['/']) = [] ++ '/' :: (text ++ '/' :: []) := rfl
  rw [inner, ended, Posix.splitOn_append, Posix.splitOn_append,
    Posix.splitOn_of_notMem plain, Posix.splitOn_append,
    Posix.splitOn_append] at outer
  have member : component ∈ Text.splitOn '/' [] ++
      (Text.splitOn '/' text ++ Text.splitOn '/' []) := by
    rw [← outer]
    simp
  rw [Text.splitOn] at member
  simp only [List.mem_append, List.mem_singleton] at member
  rcases member with empty | deeper | empty
  · exact .inr empty
  · exact .inl deeper
  · exact .inr empty

/-- A path of proper names without backslashes is an entry as it is. -/
theorem safePath?_plain {rel : String} (plain : '\\' ∉ rel.toList)
    (named : ∀ part ∈ components rel, FileName (String.ofList part)) :
    safePath? rel = some rel := by
  have parts : ∀ part ∈ Text.splitOn '/' rel.toList, part ≠ [] ∧
      part ≠ ['.', '.'] := by
    intro part member
    have name := named part member
    have nonempty := name.nonempty
    have notParent := name.notParent
    rw [String.toList_ofList] at nonempty notParent
    exact ⟨nonempty, notParent⟩
  have relative : rel.toList.head? ≠ some '/' := by
    intro absolute
    obtain ⟨rest, text⟩ := List.head?_eq_some_iff.mp absolute
    have first : [] ∈ Text.splitOn '/' rel.toList := by
      rw [text, Text.splitOn, if_pos rfl]
      exact List.mem_cons_self
    exact (parts [] first).1 rfl
  have filled : rel ≠ "" := by
    intro empty
    have first : [] ∈ Text.splitOn '/' rel.toList := by
      rw [empty]
      exact List.mem_cons_self
    exact (parts [] first).1 rfl
  have noClimb : ∀ text, text ∈ Text.splitOn '/' rel.toList →
      text ≠ ['.', '.'] := fun text member => (parts text member).2
  have notUp : Text.startsWith rel "../" = false := by
    rw [Bool.eq_false_iff, ne_eq, Text.startsWith_iff]
    intro climbs
    obtain ⟨rest, text⟩ := climbs
    have shape : rel.toList = ['.', '.'] ++ '/' :: rest := by
      rw [← text]
      rfl
    apply noClimb ['.', '.'] _ rfl
    rw [shape, Posix.splitOn_append]
    exact List.mem_append_left _ List.mem_cons_self
  have noParent : Text.occursIn "/../".toList
      ('/' :: (rel.toList ++ ['/'])) = false := by
    rw [Bool.eq_false_iff, ne_eq, Text.occursIn_iff]
    intro between
    have spelled : "/../".toList = '/' :: (['.', '.'] ++ ['/']) := rfl
    rw [spelled] at between
    rcases mem_splitOn_of_infix (by decide) between with member | empty
    · exact noClimb _ member rfl
    · cases empty
  have safe : isUnsafe rel = false := by
    rw [isUnsafe, notUp, noParent, Bool.or_false, Bool.or_false,
      decide_eq_false filled]
  rw [safePath?, cleanPath_plain plain relative, safe,
    if_neg Bool.false_ne_true]

end Paths

section Entries

variable {files : List (String × Bytes)}

theorem isDigestId_to_ni (digest : Digest) :
    isDigestId (.str (to_ni digest)) = true := by
  rw [isDigestId]
  exact is_ni_or_digest_to_ni digest

theorem keys_treeEntries (files : List (String × Bytes)) :
    (treeEntries files).keys = files.map Prod.fst := by
  rw [Fields.keys, treeEntries, List.map_map]
  rfl

theorem putFiles_within {seen : Set Bytes} {store : CasHttpStore}
    {entries : Fields} (within : store.Within seen)
    (apart : Set.InjOn sha256_hex seen) (known : ∀ file ∈ files, file.2 ∈ seen)
    (distinct : (entries.keys ++ files.map Prod.fst).Nodup) :
    ∃ stored, putFiles store entries files =
        .ok (entries ++ treeEntries files, stored) ∧
      stored.Within seen ∧ store.Grows stored ∧
      ∀ file ∈ files, stored.blobs (sha256_hex file.2) = some file.2 := by
  induction files generalizing store entries with
  | nil =>
      refine ⟨store, ?_, within, .refl store, fun file member => ?_⟩
      · rw [putFiles, treeEntries, List.map_nil, List.append_nil]
      · cases member
  | cons file files induction =>
      obtain ⟨rel, data⟩ := file
      obtain ⟨after, put, withinAfter, grows, here⟩ :=
        within.put apart (known (rel, data) List.mem_cons_self)
      have fresh : rel ∉ entries.keys := by
        intro member
        exact (List.nodup_append.mp distinct).2.2 rel member rel
          List.mem_cons_self rfl
      have appended := @Fields.set_of_notMem _ _
        (.str (to_ni (sha256_hex data))) fresh
      have next : ((entries.set rel
          (.str (to_ni (sha256_hex data)))).keys ++
            files.map Prod.fst).Nodup := by
        rw [appended, Fields.keys, List.map_append, List.append_assoc]
        exact distinct
      obtain ⟨stored, rest, withinStored, growsLater, held⟩ :=
        induction withinAfter
          (fun other member => known other (List.mem_cons_of_mem _ member)) next
      refine ⟨stored, ?_, withinStored, grows.trans growsLater, ?_⟩
      · rw [putFiles, put]
        dsimp only [bind, Except.bind]
        rw [rest, appended, treeEntries, treeEntries, List.map_cons,
          List.append_assoc]
        rfl
      · intro other member
        rcases List.mem_cons.mp member with first | later
        · rw [first]
          exact growsLater _ _ here
        · exact held other later

theorem cleanEntries_safe {cleaned entries : Fields}
    (safe : ∀ entry ∈ entries, safePath? entry.1 = some entry.1 ∧
      isDigestId entry.2 = true)
    (distinct : (cleaned.keys ++ Fields.keys entries).Nodup) :
    cleanEntries cleaned entries = .ok (cleaned ++ entries) := by
  induction entries generalizing cleaned with
  | nil => rw [cleanEntries, List.append_nil]
  | cons entry entries induction =>
      obtain ⟨rel, value⟩ := entry
      obtain ⟨path, digest⟩ := safe (rel, value) List.mem_cons_self
      dsimp only at path digest
      have fresh : rel ∉ cleaned.keys := by
        intro member
        exact (List.nodup_append.mp distinct).2.2 rel member rel
          List.mem_cons_self rfl
      have appended := @Fields.set_of_notMem _ _ value fresh
      have next : ((cleaned.set rel value).keys ++
          Fields.keys entries).Nodup := by
        rw [appended, Fields.keys, List.map_append, List.append_assoc]
        exact distinct
      rw [cleanEntries, path]
      dsimp only
      rw [if_pos digest, induction (fun other member =>
        safe other (List.mem_cons_of_mem _ member)) next, appended,
        List.append_assoc]
      rfl

end Entries

section Listing

variable {files : List (String × Bytes)}

/-- The entries of a manifest as they are read back. -/
def listing (files : List (String × Bytes)) : Fields :=
  Json.sortKeysFields (treeEntries files)

theorem digestEntries_treeEntries (distinct : (files.map Prod.fst).Nodup) :
    DigestEntries (treeEntries files) where
  nodup := by
    rw [keys_treeEntries]
    exact distinct
  named entry member := by
    obtain ⟨file, _, rfl⟩ := List.mem_map.mp member
    exact ⟨sha256_hex file.2, rfl⟩

theorem listing_perm (files : List (String × Bytes)) :
    (listing files).Perm (treeEntries files) := by
  have same : (treeEntries files).map (fun field =>
      (field.1, Json.sortKeys field.2)) = treeEntries files := by
    rw [treeEntries, List.map_map]
    rfl
  have sorted := Json.sortKeysFields_perm (treeEntries files)
  rwa [same] at sorted

theorem sortKeysFields_listing (distinct : (files.map Prod.fst).Nodup) :
    Json.sortKeysFields (listing files) = listing files := by
  have keys : (listing files).keys.Nodup :=
    (digestEntries_treeEntries distinct).sortKeys.nodup
  exact Json.sortKeysFields_eq_of_perm keys (listing_perm files)

/-- The stored manifest lists the files. -/
theorem readManifest?_treeDocument (distinct : (files.map Prod.fst).Nodup) :
    readManifest? (treeDocument files) = some (listing files) := by
  have valid := (digestEntries_treeEntries distinct).sortKeys.sortKeys.wellFormed
  rw [treeDocument, readManifest?_sortedDocument valid]
  exact congrArg some (sortKeysFields_listing distinct)

theorem mem_listing {entry : String × Json} :
    entry ∈ listing files ↔
      ∃ file ∈ files, entry = (file.1, .str (to_ni (sha256_hex file.2))) := by
  rw [(listing_perm files).mem_iff, treeEntries, List.mem_map]
  constructor
  · intro found
    obtain ⟨file, member, same⟩ := found
    exact ⟨file, member, same.symm⟩
  · intro found
    obtain ⟨file, member, same⟩ := found
    exact ⟨file, member, same.symm⟩

/-- The manifest does not depend on the order of the files. -/
theorem treeDocument_perm {left right : List (String × Bytes)}
    (distinct : (left.map Prod.fst).Nodup) (same : left.Perm right) :
    treeDocument left = treeDocument right := by
  have entries : (treeEntries left).Perm (treeEntries right) := same.map _
  have keys : (treeEntries left).keys.Nodup :=
    (digestEntries_treeEntries distinct).nodup
  rw [treeDocument, treeDocument, Json.sortKeysFields_eq_of_perm keys entries]

/-- Equal manifests list the same files, and the order of the files does not
matter. -/
theorem treeDocument_eq_iff {seen : Set Bytes}
    {left right : List (String × Bytes)} (apart : Set.InjOn sha256_hex seen)
    (leftKnown : ∀ file ∈ left, file.2 ∈ seen)
    (rightKnown : ∀ file ∈ right, file.2 ∈ seen)
    (leftDistinct : (left.map Prod.fst).Nodup)
    (rightDistinct : (right.map Prod.fst).Nodup) :
    treeDocument left = treeDocument right ↔ left.Perm right := by
  have covers : ∀ {some others : List (String × Bytes)},
      (∀ file ∈ some, file.2 ∈ seen) → (∀ file ∈ others, file.2 ∈ seen) →
      listing some = listing others → ∀ file ∈ some, file ∈ others := by
    intro some others someKnown othersKnown same file member
    have entry := mem_listing.mpr ⟨file, member, rfl⟩
    rw [same] at entry
    obtain ⟨other, among, equal⟩ := mem_listing.mp entry
    rw [Prod.mk.injEq, Json.str.injEq] at equal
    have data := apart (someKnown file member) (othersKnown other among)
      (to_ni_injective equal.2)
    rwa [Prod.ext equal.1 data]
  constructor
  · intro same
    have read := readManifest?_treeDocument leftDistinct
    rw [same, readManifest?_treeDocument rightDistinct,
      Option.some.injEq] at read
    rw [List.perm_ext_iff_of_nodup (List.Nodup.of_map _ leftDistinct)
      (List.Nodup.of_map _ rightDistinct)]
    intro file
    exact ⟨covers leftKnown rightKnown read.symm file,
      covers rightKnown leftKnown read file⟩
  · exact treeDocument_perm leftDistinct

end Listing

section Tree

variable {seen : Set Bytes} {store : CasHttpStore} {directory : Directory}
  {ignore : String → Bool}

/-- What `put_tree` leaves of a directory: its id and its blobs. -/
structure TreeStored (seen : Set Bytes) (store stored : CasHttpStore)
    (files : List (String × Bytes)) : Prop where
  within : stored.Within seen
  grows : store.Grows stored
  blobs : ∀ file ∈ files, stored.blobs (sha256_hex file.2) = some file.2
  manifest : stored.blobs (sha256_hex (treeDocument files)) =
    some (treeDocument files)

/-- The id of some files. -/
def treeId (files : List (String × Bytes)) : String :=
  to_ni (sha256_hex (treeDocument files))

/-- A directory without backslashes is stored whole. -/
theorem put_tree_plain (proper : directory.Proper)
    (plain : PlainPaths (directory.files ignore))
    (within : store.Within seen) (apart : Set.InjOn sha256_hex seen)
    (known : ∀ file ∈ directory.files ignore, file.2 ∈ seen)
    (document : treeDocument (directory.files ignore) ∈ seen) :
    ∃ stored, put_tree store directory ignore =
        .ok (treeId (directory.files ignore), stored) ∧
      TreeStored seen store stored (directory.files ignore) := by
  have distinct := @Directory.nodup_files_names directory ignore proper
  obtain ⟨middle, put, withinMiddle, grows, blobs⟩ :=
    @putFiles_within _ seen store [] within apart known distinct
  have safe : ∀ entry ∈ treeEntries (directory.files ignore),
      safePath? entry.1 = some entry.1 ∧ isDigestId entry.2 = true := by
    intro entry member
    obtain ⟨file, among, same⟩ := List.mem_map.mp member
    have names := Directory.names_of_mem_files proper among
    have path := safePath?_plain (plain file among) names.2
    rw [← same]
    exact ⟨path, isDigestId_to_ni _⟩
  have cleaned : cleanEntries [] (treeEntries (directory.files ignore)) =
      .ok (treeEntries (directory.files ignore)) := by
    apply cleanEntries_safe safe
    rw [keys_treeEntries]
    exact distinct
  obtain ⟨stored, last, withinStored, growsLast, here⟩ :=
    withinMiddle.put apart document
  refine ⟨stored, ?_, withinStored, grows.trans growsLast, ?_, here⟩
  · unfold put_tree build_manifest_entries
    rw [put]
    dsimp only [bind, Except.bind]
    rw [List.nil_append, cleaned]
    dsimp only
    exact last
  · intro file member
    exact growsLast _ _ (blobs file member)

end Tree

end Cats
