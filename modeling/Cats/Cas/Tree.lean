import Cats.Cas.Manifest

/-!
# Putting a directory into the store

`put_tree` stores every file it does not ignore and then a manifest that names
the blobs by relative path.
-/

namespace Cats

/-- A directory as `os.walk` lists it: its files, then its directories. -/
inductive Directory where
  | node (files : List (String × Bytes)) (dirs : List (String × Directory))

/-- `name if rel_dir == '.' else f'{rel_dir}/{name}'`. -/
def relName (rel_dir name : String) : String :=
  if rel_dir = "." then name else rel_dir ++ "/" ++ name

mutual

/-- The files `os.walk` visits below a directory, by relative path. -/
def Directory.walk (ignore : String → Bool) (rel_dir : String) :
    Directory → List (String × Bytes)
  | .node files dirs =>
      (files.map fun file => (relName rel_dir file.1, file.2)).filter
        (fun file => !ignore file.1) ++ Directory.walkAll ignore rel_dir dirs

def Directory.walkAll (ignore : String → Bool) (rel_dir : String) :
    List (String × Directory) → List (String × Bytes)
  | [] => []
  | (name, directory) :: dirs =>
      (if ignore (relName rel_dir name) then []
        else Directory.walk ignore (relName rel_dir name) directory) ++
        Directory.walkAll ignore rel_dir dirs

end

/-- The files of a directory that `put_tree` stores. -/
def Directory.files (directory : Directory) (ignore : String → Bool) :
    List (String × Bytes) := directory.walk ignore "."

/-- `entries[rel] = store.put(full.read_bytes())` for every file. -/
def putFiles (store : CasHttpStore) (entries : Fields) :
    List (String × Bytes) → Except Raised (Fields × CasHttpStore)
  | [] => .ok (entries, store)
  | (rel, data) :: files => do
      let (content_id, stored) ← store.put data
      putFiles stored (entries.set rel (.str content_id)) files

def isDigestId : Json → Bool
  | .str content_id => is_ni_or_digest content_id
  | _ => false

/-- The loop of `build_manifest_entries`. -/
def cleanEntries (cleaned : Fields) : Fields → Except Raised Fields
  | [] => .ok cleaned
  | (rel, content_id) :: entries =>
      match safePath? rel with
      | none => .error (.valueError
          s!"unsafe manifest path: {Text.repr rel}")
      | some path =>
          if isDigestId content_id then
            cleanEntries (cleaned.set path content_id) entries
          else .error (.valueError
            s!"manifest entry must be ni:/digest: {content_id.repr}")

/-- `build_manifest_entries(entries)`. -/
def build_manifest_entries (entries : Fields) : Except Raised Json := do
  let cleaned ← cleanEntries [] entries
  .ok (manifestDocument (Json.sortKeysFields cleaned))

/-- `put_tree(store, directory, ignore=ignore)`: the manifest's id and the
store left behind. -/
def put_tree (store : CasHttpStore) (directory : Directory)
    (ignore : String → Bool) : Except Raised (String × CasHttpStore) := do
  let (entries, stored) ← putFiles store [] (directory.files ignore)
  let manifest ← build_manifest_entries entries
  stored.put (sortedDocument manifest)

namespace Fields

theorem mem_set {fields : Fields} {key : String} {value : Json}
    {field : String × Json} (member : field ∈ fields.set key value) :
    field = (key, value) ∨ field ∈ fields := by
  induction fields with
  | nil => exact .inl (by simpa [set] using member)
  | cons first rest induction =>
      obtain ⟨name, old⟩ := first
      by_cases same : name = key
      · rw [set, if_pos same, List.mem_cons] at member
        rcases member with new | later
        · exact .inl new
        · exact .inr (List.mem_cons_of_mem _ later)
      · rw [set, if_neg same, List.mem_cons] at member
        rcases member with here | later
        · exact .inr (here ▸ List.mem_cons_self)
        · rcases induction later with new | old
          · exact .inl new
          · exact .inr (List.mem_cons_of_mem _ old)

theorem set_ne_nil (fields : Fields) (key : String) (value : Json) :
    fields.set key value ≠ [] := by
  cases fields with
  | nil => simp [set]
  | cons first rest =>
      obtain ⟨name, old⟩ := first
      by_cases same : name = key
      · simp [set, same]
      · simp [set, same]

end Fields

/-- Entries by distinct names, each the id of a digest. -/
structure DigestEntries (entries : Fields) : Prop where
  nodup : entries.keys.Nodup
  named : ∀ entry ∈ entries, ∃ digest, entry.2 = .str (to_ni digest)

namespace DigestEntries

theorem nil : DigestEntries [] where
  nodup := List.nodup_nil
  named := by simp

theorem set {entries : Fields} (sound : DigestEntries entries) (name : String)
    {value : Json} {digest : Digest} (id : value = .str (to_ni digest)) :
    DigestEntries (entries.set name value) where
  nodup := Fields.nodup_keys_set name value sound.nodup
  named entry member := by
    rcases Fields.mem_set member with new | old
    · exact ⟨digest, by rw [new, id]⟩
    · exact sound.named entry old

/-- Sorting keeps the entries. -/
theorem sortKeys {entries : Fields} (sound : DigestEntries entries) :
    DigestEntries (Json.sortKeysFields entries) := by
  constructor
  · exact (Json.sortKeysFields_keys_perm entries).nodup_iff.mpr sound.nodup
  · have named := sound.named
    clear sound
    induction entries with
    | nil => simp [Json.sortKeysFields]
    | cons first rest induction =>
        obtain ⟨name, value⟩ := first
        intro entry member
        rw [Json.sortKeysFields] at member
        rcases List.mem_cons.mp
          ((Json.insertField_perm _ _).mem_iff.mp member) with here | later
        · obtain ⟨digest, id⟩ := named (name, value) List.mem_cons_self
          refine ⟨digest, ?_⟩
          dsimp only at id
          rw [here, id]
          rfl
        · exact induction (fun other inside =>
            named other (List.mem_cons_of_mem _ inside)) entry later

theorem wellFormed {entries : Fields} (sound : DigestEntries entries) :
    (Json.obj entries).wellFormed = true := by
  simp only [Json.wellFormed, Bool.and_eq_true, decide_eq_true_eq]
  constructor
  · exact sound.nodup
  · have named := sound.named
    clear sound
    induction entries with
    | nil => rfl
    | cons first rest induction =>
        obtain ⟨name, value⟩ := first
        obtain ⟨digest, id⟩ := named (name, value) List.mem_cons_self
        dsimp only at id
        simp only [Json.wellFormedFields, id, Json.wellFormed, Bool.true_and]
        exact induction fun other inside =>
          named other (List.mem_cons_of_mem _ inside)

end DigestEntries

theorem putFiles_ok {store stored : CasHttpStore} {entries put : Fields}
    {files : List (String × Bytes)} (sound : DigestEntries entries)
    (ran : putFiles store entries files = .ok (put, stored)) :
    DigestEntries put ∧ (put = [] ↔ entries = [] ∧ files = []) := by
  induction files generalizing store entries with
  | nil =>
      simp only [putFiles, Except.ok.injEq, Prod.mk.injEq] at ran
      obtain ⟨rfl, _⟩ := ran
      exact ⟨sound, by simp⟩
  | cons file files induction =>
      obtain ⟨rel, data⟩ := file
      obtain ⟨⟨content_id, after⟩, stores, rest⟩ := Raised.bind_returns ran
      have id := (CasHttpStore.put_ok stores).1
      obtain ⟨later, empty⟩ :=
        induction (sound.set rel (congrArg Json.str id)) rest
      refine ⟨later, ?_⟩
      rw [empty]
      simp [Fields.set_ne_nil]

theorem cleanEntries_ok {cleaned entries result : Fields}
    (soundCleaned : DigestEntries cleaned)
    (named : ∀ entry ∈ entries, ∃ digest, entry.2 = .str (to_ni digest))
    (ran : cleanEntries cleaned entries = .ok result) :
    DigestEntries result ∧ (result = [] ↔ cleaned = [] ∧ entries = []) := by
  induction entries generalizing cleaned with
  | nil =>
      obtain rfl := Except.ok.inj ran
      exact ⟨soundCleaned, by simp⟩
  | cons entry entries induction =>
      obtain ⟨rel, value⟩ := entry
      obtain ⟨digest, id⟩ := named (rel, value) List.mem_cons_self
      dsimp only at id
      rw [cleanEntries] at ran
      cases safe : safePath? rel with
      | none => simp [safe] at ran
      | some path =>
          simp only [safe] at ran
          split_ifs at ran
          obtain ⟨later, empty⟩ := induction (soundCleaned.set path id)
            (fun other inside => named other (List.mem_cons_of_mem _ inside))
            ran
          refine ⟨later, ?_⟩
          rw [empty]
          simp [Fields.set_ne_nil]

/-- What a returned `put_tree` stored last: a manifest whose entries name
blobs by digest, and which is empty only for a directory without files. -/
theorem put_tree_ok {store stored : CasHttpStore} {directory : Directory}
    {ignore : String → Bool} {content_id : String}
    (ran : put_tree store directory ignore = .ok (content_id, stored)) :
    ∃ raw entries, content_id = to_ni (sha256_hex raw) ∧
      stored.blobs (sha256_hex raw) = some raw ∧
      readManifest? raw = some entries ∧ DigestEntries entries ∧
      (entries = [] ↔ directory.files ignore = []) := by
  obtain ⟨⟨put, middle⟩, files, rest⟩ := Raised.bind_returns ran
  obtain ⟨manifest, built, stores⟩ := Raised.bind_returns rest
  obtain ⟨cleaned, clean, document⟩ := Raised.bind_returns built
  obtain rfl := Except.ok.inj document
  obtain ⟨sound, empty⟩ := putFiles_ok DigestEntries.nil files
  obtain ⟨soundCleaned, emptyCleaned⟩ :=
    cleanEntries_ok DigestEntries.nil sound.named clean
  obtain ⟨id, blobs⟩ := CasHttpStore.put_ok stores
  refine ⟨_, _, id, ?_, readManifest?_sortedDocument
    soundCleaned.sortKeys.sortKeys.wellFormed, soundCleaned.sortKeys.sortKeys,
    ?_⟩
  · rw [blobs]
    exact Function.update_self ..
  · rw [Json.sortKeysFields_eq_nil_iff, Json.sortKeysFields_eq_nil_iff,
      emptyCleaned, empty]
    simp

end Cats
