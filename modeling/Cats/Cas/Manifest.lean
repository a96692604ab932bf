import Cats.Posix.Files
import Cats.AddressStore.Verified

/-!
# Directory manifests

A manifest maps relative paths to file ids.  `materialize_tree` fetches the
manifest and then each file, and lays the files out under a directory; a path
that could leave it is refused before anything is written there.
-/

namespace Cats

open Effect

def manifestType : String := "CasDirectoryManifest"

/-- The entries of a value that is a directory manifest, by
`is_directory_manifest`. -/
def manifestEntries? (obj : Json) : Option Fields :=
  match obj with
  | .obj fields =>
      if Fields.get? fields "@type" = some (.str manifestType) then
        match Fields.get? fields "entries" with
        | some (.obj entries) => some entries
        | _ => none
      else none
  | _ => none

/-- `is_directory_manifest(obj)`. -/
def is_directory_manifest (obj : Json) : Bool := (manifestEntries? obj).isSome

/-- The document of a directory manifest, by `build_manifest_entries`. -/
def manifestDocument (entries : Fields) : Json :=
  .obj [("@type", .str manifestType), ("entries", .obj entries)]

/-- The manifest some bytes spell. -/
def readManifest? (raw : Bytes) : Option Fields :=
  ((Utf8.decode raw).bind Json.loads).bind manifestEntries?

/-- A manifest as `put_tree` stores it lists its entries by name. -/
theorem readManifest?_sortedDocument {entries : Fields}
    (valid : (Json.obj (Json.sortKeysFields entries)).wellFormed = true) :
    readManifest? (sortedDocument (manifestDocument entries)) =
      some (Json.sortKeysFields entries) := by
  have sorted : (manifestDocument entries).sortKeys =
      manifestDocument (Json.sortKeysFields entries) := by
    simp [manifestDocument, Json.sortKeys, Json.sortKeysFields,
      Json.insertField]
  have whole : (manifestDocument
      (Json.sortKeysFields entries)).wellFormed = true := by
    have inner := valid
    simp only [manifestDocument, Json.wellFormed, Json.wellFormedFields,
      Bool.and_eq_true, decide_eq_true_eq] at inner ⊢
    exact ⟨by simp, trivial, inner, trivial⟩
  have read := Json.loads_decode_dumps .indented whole ['\n']
    (List.all_eq_true.mp rfl)
  simp only [readManifest?, sortedDocument, sorted, read, Option.bind_some]
  simp [manifestEntries?, manifestDocument]

/-- `rel.replace('\\', '/').lstrip('/')`. -/
def cleanPath (rel : String) : String :=
  String.ofList ((rel.toList.map fun character =>
    if character = '\\' then '/' else character).dropWhile (· = '/'))

/-- `not path or path.startswith('../') or '/../' in f'/{path}/'`. -/
def isUnsafe (path : String) : Bool :=
  path = "" || Text.startsWith path "../" ||
    Text.occursIn "/../".toList ('/' :: (path.toList ++ ['/']))

/-- The path an entry is written to, when it is one. -/
def safePath? (rel : String) : Option String :=
  if isUnsafe (cleanPath rel) then none else some (cleanPath rel)

/-- A safe path is relative and does not climb. -/
theorem safePath?_some {rel path : String}
    (safe : safePath? rel = some path) :
    Text.startsWith path "/" = false ∧ ['.', '.'] ∉ Posix.parts path := by
  unfold safePath? at safe
  split_ifs at safe with dangerous
  simp only [Option.some.injEq] at safe
  subst safe
  have sound := Bool.eq_false_iff.mpr dangerous
  simp only [isUnsafe, Bool.or_eq_false_iff] at sound
  constructor
  · rw [Bool.eq_false_iff, ne_eq, Text.startsWith_iff]
    intro absolute
    have stop := List.head?_dropWhile_not (fun character => character = '/')
      (rel.toList.map fun character =>
        if character = '\\' then '/' else character)
    obtain ⟨tail, whole⟩ := absolute
    simp only [cleanPath, String.toList_ofList] at whole
    rw [← whole] at stop
    simp at stop
  · intro climbs
    have member := (List.mem_filter.mp climbs).1
    have between := Posix.infix_of_mem_splitOn member
    have occurs := Text.occursIn_iff.mpr between
    rw [show '/' :: (['.', '.'] ++ ['/']) = "/../".toList from rfl] at occurs
    rw [sound.2] at occurs
    exact nomatch occurs

namespace AddressStore

variable (net : Network)

/-- `fetch_bytes(file_id)`; only a string can name content. -/
def fetchEntry (file_id : Json) : Act Bytes :=
  match file_id with
  | .str id => cat_bytes net id
  | other => throw (legacy_cid_unsupported other.repr)

/-- The loop of `materialize_tree` over the entries. -/
def writeEntries (dest_dir : String) : Fields → Act Unit
  | [] => pure ()
  | (rel, file_id) :: entries =>
      match safePath? rel with
      | none => throw (.valueError s!"unsafe manifest path: {Text.repr rel}")
      | some path => do
          Disk.mkdirParents (Posix.parts (Posix.join dest_dir path)).dropLast
          let data ← fetchEntry net file_id
          Disk.writeFile (Posix.join dest_dir path) data
          writeEntries dest_dir entries

/-- `json.loads(raw.decode('utf-8'))` and the check that it is a manifest. -/
def manifestOf (content_id : String) (raw : Bytes) : Except Raised Fields := do
  let value ← readJson raw
  match manifestEntries? value with
  | some entries => .ok entries
  | none => .error (.valueError
      s!"not a CasDirectoryManifest: {Text.repr content_id}")

/-- `materialize_tree(self.cat_bytes, content_id, dest_dir)`. -/
def materialize_tree (content_id dest_dir : String) : Act Unit := do
  let raw ← cat_bytes net content_id
  let entries ← Act.lift (manifestOf content_id raw)
  Disk.mkdirParents (Posix.parts dest_dir)
  writeEntries net dest_dir entries

theorem manifestOf_ok {content_id : String} {raw : Bytes} {entries : Fields}
    (read : manifestOf content_id raw = .ok entries) :
    readManifest? raw = some entries := by
  unfold manifestOf readJson readText at read
  cases decoded : Utf8.decode raw with
  | none => simp [decoded, Except.bind, bind] at read
  | some text =>
      cases loaded : Json.loads text with
      | none => simp [decoded, loaded, Except.bind, bind] at read
      | some value =>
          cases manifest : manifestEntries? value with
          | none =>
              simp [decoded, loaded, manifest, Except.bind, bind] at read
          | some found =>
              simp only [decoded, loaded, manifest, Except.bind, bind,
                Except.ok.injEq] at read
              simp [readManifest?, decoded, loaded, manifest, read]

theorem manifestOf_of_read {content_id : String} {raw : Bytes}
    {entries : Fields} (read : readManifest? raw = some entries) :
    manifestOf content_id raw = .ok entries := by
  obtain ⟨value, parsed, manifest⟩ := Option.bind_eq_some_iff.mp read
  obtain ⟨text, decoded, loaded⟩ := Option.bind_eq_some_iff.mp parsed
  simp only [manifestOf, readJson, readText, decoded, loaded, manifest,
    Except.bind, bind]

/-- A file stands for an entry: it lies at the entry's path and, where the
entry names a digest, its bytes hash to it. -/
structure EntryWritten (dest_dir : String) (entry : String × Json)
    (file : Path × Bytes) : Prop where
  safe : ∃ path, safePath? entry.1 = some path ∧
    file.1 = Posix.resolve (Posix.join dest_dir path)
  verified : ∃ id, entry.2 = .str id ∧
    ∀ digest, NamesDigest digest id → sha256_hex file.2 = digest

/-- The entries are written one after the other. -/
theorem writeEntries_ok {dest_dir : String} {entries : Fields}
    {machine after : Machine}
    (ran : writeEntries net dest_dir entries machine = .ok () after) :
    ∃ written, List.Forall₂ (EntryWritten dest_dir) entries written ∧
      Wrote machine after written := by
  induction entries generalizing machine with
  | nil =>
      simp only [writeEntries, pure_run, EStateM.Result.ok.injEq] at ran
      exact ⟨[], .nil, ran.2 ▸ Wrote.refl machine⟩
  | cons entry entries induction =>
      obtain ⟨rel, file_id⟩ := entry
      simp only [writeEntries] at ran
      cases safe : safePath? rel with
      | none => simp [safe] at ran
      | some path =>
          simp only [safe] at ran
          obtain ⟨_, prepared, made, ran⟩ := bind_ok ran
          obtain ⟨data, fetched, got, ran⟩ := bind_ok ran
          obtain ⟨_, stored, wrote, rest⟩ := bind_ok ran
          obtain ⟨written, entriesWritten, later⟩ := induction rest
          have madeDirs := wrote_of_ok (Disk.fileless_mkdirParents _) made
          cases file_id with
          | str id =>
              have quiet := Wrote.of_same
                (same_of_ok (reads_cat_bytes net id none) got)
              refine ⟨(Posix.resolve (Posix.join dest_dir path), data) ::
                written, .cons ?_ entriesWritten, ?_⟩
              · exact
                  { safe := ⟨path, safe, rfl⟩
                    verified := ⟨id, rfl, fun digest names =>
                      ensures_cat_bytes net (.named names) _ _ _ got⟩ }
              · exact ((madeDirs.trans_nil quiet).trans
                  (Disk.writeFile_ok wrote)).trans later
          | _ => simp [fetchEntry] at got

/-- What a returned materialisation fetched and wrote. -/
theorem materialize_tree_ok {content_id dest_dir : String}
    {machine after : Machine}
    (ran : materialize_tree net content_id dest_dir machine = .ok () after) :
    ∃ raw middle entries written,
      cat_bytes net content_id none machine = .ok raw middle ∧
      readManifest? raw = some entries ∧
      List.Forall₂ (EntryWritten dest_dir) entries written ∧
      Wrote machine after written := by
  obtain ⟨raw, fetched, got, parsing⟩ := bind_ok ran
  obtain ⟨entries, checked, parsed, making⟩ := bind_ok parsing
  obtain ⟨_, made, dirs, writing⟩ := bind_ok making
  obtain ⟨manifest, sameState⟩ := lift_ok parsed
  rw [sameState] at dirs
  obtain ⟨written, entriesWritten, wrote⟩ := writeEntries_ok net writing
  have quiet := Wrote.of_same
    (same_of_ok (reads_cat_bytes net content_id none) got)
  exact ⟨raw, fetched, entries, written, got, manifestOf_ok manifest,
    entriesWritten,
    (quiet.trans_nil (wrote_of_ok (Disk.fileless_mkdirParents _) dirs)).trans
      wrote⟩

end AddressStore

end Cats
