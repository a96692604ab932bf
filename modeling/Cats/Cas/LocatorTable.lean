import Cats.Cas.Locators

/-!
# What a locator index records

A table is the list of rows the index files stand for.  `put` on the files is
`register` on the table, and the reverse lookup is a search through the rows.
So an index that started empty names exactly the pairs that were registered.
-/

namespace Cats

namespace LocatorIndex

theorem file?_write_self (files : List (String × Bytes)) (key : String)
    (data : Bytes) :
    file? ⟨write files key data⟩ key = some data := by
  induction files with
  | nil => simp [file?, write]
  | cons file files induction =>
      by_cases same : file.1 = key
      · simp [file?, write, same]
      · simpa [file?, write, same] using induction

theorem file?_write_of_ne {key other : String} (apart : other ≠ key)
    (files : List (String × Bytes)) (data : Bytes) :
    file? ⟨write files key data⟩ other = file? ⟨files⟩ other := by
  induction files with
  | nil => simp [file?, write, Ne.symm apart]
  | cons file files induction =>
      by_cases same : file.1 = key
      · simp [file?, write, same, Ne.symm apart]
      · by_cases here : file.1 = other
        · simp [file?, write, here, apart]
        · simpa [file?, write, same, here] using induction

end LocatorIndex

structure Locator where
  uri : String
  media_type : Option String
  deriving DecidableEq

/-- One file of the index: an id in canonical form and its locators. -/
structure LocatorRow where
  content_id : String
  key : String
  locators : List Locator
  canonical : LocatorIndex.canonical_id content_id = .ok content_id
  keyed : content_id_fs_key content_id = .ok key

namespace Locator

/-- The locator as a sorted document spells it. -/
def json (locator : Locator) : Json :=
  match locator.media_type with
  | some media => .obj [("media_type", .str media), ("uri", .str locator.uri)]
  | none => .obj [("uri", .str locator.uri)]

@[simp] theorem getKey_uri (locator : Locator) :
    locator.json.getKey "uri" = .ok (some (.str locator.uri)) := by
  unfold json
  cases locator.media_type <;> rfl

theorem wellFormed_items (locators : List Locator) :
    Json.wellFormedItems (locators.map json) = true := by
  induction locators with
  | nil => rfl
  | cons locator locators induction =>
      have first : locator.json.wellFormed = true := by
        unfold json
        cases locator.media_type <;>
          simp [Json.wellFormed, Json.wellFormedFields]
      simp [Json.wellFormedItems, first, induction]

theorem sortKeys_json (locator : Locator) :
    locator.json.sortKeys = locator.json := by
  unfold json
  cases locator.media_type <;>
    simp [Json.sortKeys, Json.sortKeysFields, Json.insertField]

theorem sortKeys_items (locators : List Locator) :
    Json.sortKeysItems (locators.map json) = locators.map json := by
  induction locators with
  | nil => rfl
  | cons locator locators induction =>
      simp [Json.sortKeysItems, sortKeys_json, induction]

/-- The locator an entry becomes; an empty media type is not written. -/
def ofEntry (uri : String) (media_type : Option String) : Locator :=
  { uri := uri
    media_type := media_type.filter (· ≠ "") }

@[simp] theorem ofEntry_uri (uri : String) (media_type : Option String) :
    (ofEntry uri media_type).uri = uri := rfl

theorem sortKeys_entry (uri : String) (media_type : Option String) :
    (LocatorIndex.entry uri media_type).sortKeys =
      (ofEntry uri media_type).json := by
  cases media_type with
  | none =>
      simp [LocatorIndex.entry, ofEntry, json, Json.sortKeys,
        Json.sortKeysFields, Json.insertField]
  | some media =>
      by_cases blank : media = ""
      · simp [LocatorIndex.entry, ofEntry, json, blank, Json.sortKeys,
          Json.sortKeysFields, Json.insertField, Option.filter]
      · simp [LocatorIndex.entry, ofEntry, json, blank, Json.sortKeys,
          Json.sortKeysFields, Json.insertField, Option.filter]

theorem hasUri_json (uri : String) (locators : List Locator) :
    LocatorIndex.hasUri uri (locators.map json) =
      .ok (locators.any (·.uri = uri)) := by
  induction locators with
  | nil => rfl
  | cons locator locators induction =>
      by_cases same : locator.uri = uri
      · simp [LocatorIndex.hasUri, same, Except.bind, bind]
      · simp [LocatorIndex.hasUri, same, induction, Except.bind, bind]

end Locator

/-- The document a row is stored as. -/
def rowDocument (content_id : String) (locators : List Locator) : Json :=
  .obj [("content_id", .str content_id),
    ("locators", .arr (locators.map Locator.json))]

theorem wellFormed_rowDocument (content_id : String)
    (locators : List Locator) :
    (rowDocument content_id locators).wellFormed = true := by
  simp [rowDocument, Json.wellFormed, Json.wellFormedFields,
    Locator.wellFormed_items]

theorem sortKeys_rowDocument (content_id : String) (locators : List Locator) :
    (rowDocument content_id locators).sortKeys =
      rowDocument content_id locators := by
  simp [rowDocument, Json.sortKeys, Json.sortKeysFields, Json.insertField,
    Locator.sortKeys_items]

/-- A stored document with sorted, well-formed content reads back. -/
theorem readJson_sortedDocument {value : Json}
    (valid : value.sortKeys.wellFormed = true) :
    readJson (sortedDocument value) = .ok value.sortKeys := by
  have read := Json.loads_decode_dumps .indented valid ['\n']
    (List.all_eq_true.mp rfl)
  obtain ⟨text, decoded, loaded⟩ := Option.bind_eq_some_iff.mp read
  simp only [readJson, readText, sortedDocument, decoded, loaded,
    Except.bind, bind]

theorem readJson_mintedBytes {obj : Json} (valid : obj.wellFormed = true) :
    readJson (mintedBytes obj) = .ok obj := by
  have read := Json.loads_decode_dumps .standard valid ['\n']
    (List.all_eq_true.mp rfl)
  obtain ⟨text, decoded, loaded⟩ := Option.bind_eq_some_iff.mp read
  simp only [readJson, readText, mintedBytes, decoded, loaded, Except.bind,
    bind]

theorem readJson_rowDocument (content_id : String) (locators : List Locator) :
    readJson (sortedDocument (rowDocument content_id locators)) =
      .ok (rowDocument content_id locators) := by
  have sorted := sortKeys_rowDocument content_id locators
  have read := readJson_sortedDocument
    (show (rowDocument content_id locators).sortKeys.wellFormed = true by
      rw [sorted]
      exact wellFormed_rowDocument content_id locators)
  rwa [sorted] at read

/-- The locators of a stored document. -/
theorem locatorsOf_rowDocument (content_id : String)
    (locators : List Locator) :
    LocatorIndex.locatorsOf (rowDocument content_id locators) =
      .ok (locators.map Locator.json) := by
  cases locators with
  | nil => rfl
  | cons locator locators =>
      simp [LocatorIndex.locatorsOf, rowDocument, Json.getKey, Json.truthy,
        Json.iterate, Except.bind, bind]

namespace LocatorRow

def bytes (row : LocatorRow) : Bytes :=
  sortedDocument (rowDocument row.content_id row.locators)

def file (row : LocatorRow) : String × Bytes := (row.key, row.bytes)

theorem strip_content_id (row : LocatorRow) :
    Text.strip row.content_id ≠ "" := by
  intro empty
  have keyed := row.keyed
  simp [content_id_fs_key, empty] at keyed

/-- A row is named by a digest or by a legacy id, and its key says which. -/
theorem shape (row : LocatorRow) :
    (∃ digest, row.content_id = to_ni digest ∧ row.key = digest.hex) ∨
      (is_ni_or_digest row.content_id = false ∧
        isCidSegment row.content_id = true ∧ row.key = row.content_id) := by
  have canonical := row.canonical
  have keyed := row.keyed
  by_cases digest : is_ni_or_digest row.content_id = true
  · simp only [LocatorIndex.canonical_id, digest, if_true] at canonical
    cases read : from_ni row.content_id with
    | error raised => simp [read, Except.map] at canonical
    | ok found =>
        simp only [read, Except.map, Except.ok.injEq] at canonical
        rw [← canonical, content_id_fs_key_to_ni] at keyed
        exact .inl ⟨found, canonical.symm, (Except.ok.inj keyed).symm⟩
  · rw [Bool.not_eq_true] at digest
    simp only [LocatorIndex.canonical_id, digest, Bool.false_eq_true,
      if_false, Except.ok.injEq] at canonical
    have nonempty := row.strip_content_id
    simp only [content_id_fs_key, canonical, digest, Bool.false_eq_true,
      if_false] at keyed nonempty
    rw [if_neg nonempty] at keyed
    split_ifs at keyed with segment
    exact .inr ⟨digest, segment, (Except.ok.inj keyed).symm⟩

/-- Canonical ids with one key are one id. -/
theorem content_id_eq_of_key {left right : LocatorRow}
    (same : left.key = right.key) : left.content_id = right.content_id := by
  rcases left.shape with ⟨digest, leftId, leftKey⟩ | ⟨leftCid, _, leftKey⟩ <;>
    rcases right.shape with
      ⟨other, rightId, rightKey⟩ | ⟨rightCid, _, rightKey⟩
  · have sameHex : digest.hex = other.hex := by
      rw [← leftKey, same, rightKey]
    rw [leftId, rightId, Digest.ext_hex sameHex]
  · rw [← rightKey, ← same, leftKey, is_ni_or_digest_hex] at rightCid
    exact Bool.noConfusion rightCid
  · rw [← leftKey, same, rightKey, is_ni_or_digest_hex] at leftCid
    exact Bool.noConfusion leftCid
  · rw [← leftKey, same, rightKey]

/-- Add a locator in front, unless its URI is there. -/
def add (row : LocatorRow) (uri : String) (media_type : Option String) :
    LocatorRow :=
  if row.locators.any (·.uri = uri) then row
  else { row with locators := Locator.ofEntry uri media_type :: row.locators }

theorem add_content_id (row : LocatorRow) (uri : String)
    (media_type : Option String) :
    (row.add uri media_type).content_id = row.content_id := by
  unfold add
  split_ifs <;> rfl

theorem add_key (row : LocatorRow) (uri : String)
    (media_type : Option String) :
    (row.add uri media_type).key = row.key := by
  unfold add
  split_ifs <;> rfl

theorem mem_add_uri (row : LocatorRow) (uri : String)
    (media_type : Option String) (other : String) :
    other ∈ (row.add uri media_type).locators.map Locator.uri ↔
      other = uri ∨ other ∈ row.locators.map Locator.uri := by
  unfold add
  split_ifs with present
  · simp only [List.any_eq_true, decide_eq_true_eq] at present
    obtain ⟨locator, member, same⟩ := present
    constructor
    · exact .inr
    · rintro (rfl | member')
      · exact List.mem_map.mpr ⟨locator, member, same⟩
      · exact member'
  · simp

/-- What `put` writes for a row is the row with the locator added. -/
theorem registered_rowDocument (row : LocatorRow) (uri : String)
    (media_type : Option String) :
    (LocatorIndex.registered (rowDocument row.content_id row.locators)
        row.content_id uri media_type).map sortedDocument =
      .ok (row.add uri media_type).bytes := by
  simp only [LocatorIndex.registered, rowDocument, Fields.get?_cons,
    if_true, Option.getD_some, String.reduceEq, if_false, Json.iterate,
    Locator.hasUri_json, Except.bind, bind]
  unfold add
  split_ifs with present
  · simp only [Fields.set, String.reduceEq, if_false, if_true, Except.map]
    rfl
  · simp only [Fields.set, String.reduceEq, if_false, if_true, Except.map,
      bytes, rowDocument, sortedDocument, Json.sortKeys, Json.sortKeysFields,
      Json.sortKeysItems, Locator.sortKeys_items, Locator.sortKeys_entry,
      List.map_cons]
    rw [Locator.sortKeys_json]

end LocatorRow

/-- The index whose files hold these rows. -/
def LocatorIndex.ofRows (rows : List LocatorRow) : LocatorIndex :=
  { files := rows.map LocatorRow.file }

namespace LocatorTable

/-- Some row of this id has the URI. -/
def Names (rows : List LocatorRow) (content_id uri : String) : Prop :=
  ∃ row ∈ rows, row.content_id = content_id ∧
    uri ∈ row.locators.map Locator.uri

/-- A row for an id that has no file yet. -/
def blank (content_id key : String)
    (canonical : LocatorIndex.canonical_id content_id = .ok content_id)
    (keyed : content_id_fs_key content_id = .ok key) : LocatorRow :=
  { content_id := content_id
    key := key
    locators := []
    canonical := canonical
    keyed := keyed }

/-- Register a locator with the row of its id. -/
def register (fresh : LocatorRow) (uri : String) (media_type : Option String) :
    List LocatorRow → List LocatorRow
  | [] => [fresh.add uri media_type]
  | row :: rows =>
      if row.key = fresh.key then row.add uri media_type :: rows
      else row :: register fresh uri media_type rows

theorem file?_ofRows (rows : List LocatorRow) (key : String) :
    (LocatorIndex.ofRows rows).file? key =
      (rows.find? (·.key = key)).map LocatorRow.bytes := by
  induction rows with
  | nil => rfl
  | cons row rows induction =>
      by_cases same : row.key = key
      · simp [LocatorIndex.file?, LocatorIndex.ofRows, LocatorRow.file, same]
      · simpa [LocatorIndex.file?, LocatorIndex.ofRows, LocatorRow.file,
          same] using induction

theorem write_file (fresh : LocatorRow) (uri : String)
    (media_type : Option String) (rows : List LocatorRow) {data : Bytes}
    (found : ∀ row, rows.find? (·.key = fresh.key) = some row →
      data = (row.add uri media_type).bytes)
    (missing : rows.find? (·.key = fresh.key) = none →
      data = (fresh.add uri media_type).bytes) :
    LocatorIndex.write (rows.map LocatorRow.file) fresh.key data =
      (register fresh uri media_type rows).map LocatorRow.file := by
  induction rows with
  | nil =>
      simp only [List.map_nil, LocatorIndex.write, register, List.map_cons,
        LocatorRow.file, LocatorRow.add_key, missing rfl]
  | cons row rows induction =>
      by_cases same : row.key = fresh.key
      · have written := found row (by simp [same])
        simp only [List.map_cons, LocatorRow.file, LocatorIndex.write, same,
          if_true, register, LocatorRow.add_key, written]
      · have later := induction
          (fun other located => found other (by simpa [same] using located))
          (fun none => missing (by simpa [same] using none))
        simp only [List.map_cons, LocatorRow.file, LocatorIndex.write, same,
          if_false, register]
        rw [later]

/-- `put` on the files is `register` on the rows. -/
theorem put_ofRows (rows : List LocatorRow) (fresh : LocatorRow)
    (unused : fresh.locators = []) {content_id : String}
    (same : LocatorIndex.canonical_id content_id = .ok fresh.content_id)
    (uri : String) (media_type : Option String) :
    (LocatorIndex.ofRows rows).put content_id uri media_type =
      .ok (LocatorIndex.ofRows (register fresh uri media_type rows)) := by
  simp only [LocatorIndex.put, same, fresh.keyed, Except.bind, bind,
    file?_ofRows]
  cases located : rows.find? (·.key = fresh.key) with
  | none =>
      have written := fresh.registered_rowDocument uri media_type
      rw [unused] at written
      cases updated : LocatorIndex.registered
          (rowDocument fresh.content_id []) fresh.content_id uri media_type with
      | error raised => simp [updated, Except.map] at written
      | ok document =>
          simp only [updated, Except.map, Except.ok.injEq] at written
          have shape : Json.obj [("content_id", .str fresh.content_id),
              ("locators", .arr [])] = rowDocument fresh.content_id [] := rfl
          simp only [Option.map_none, shape, updated, LocatorIndex.ofRows,
            Except.ok.injEq, LocatorIndex.mk.injEq]
          exact write_file fresh uri media_type rows
            (fun row found => by rw [located] at found; cases found)
            (fun _ => written)
  | some row =>
      have sameKey : row.key = fresh.key := by
        simpa using List.find?_some located
      have sameId := LocatorRow.content_id_eq_of_key sameKey
      have written := row.registered_rowDocument uri media_type
      cases updated : LocatorIndex.registered
          (rowDocument row.content_id row.locators) row.content_id uri
          media_type with
      | error raised => simp [updated, Except.map] at written
      | ok document =>
          simp only [updated, Except.map, Except.ok.injEq] at written
          simp only [Option.map_some, LocatorRow.bytes, readJson_rowDocument,
            ← sameId, updated, LocatorIndex.ofRows, Except.ok.injEq,
            LocatorIndex.mk.injEq]
          exact write_file fresh uri media_type rows
            (fun other found => by
              rw [located] at found
              cases found
              exact written)
            (fun none => by rw [located] at none; cases none)

theorem names_register (fresh : LocatorRow) (unused : fresh.locators = [])
    (uri : String) (media_type : Option String) (rows : List LocatorRow)
    (content_id other : String) :
    Names (register fresh uri media_type rows) content_id other ↔
      Names rows content_id other ∨
        content_id = fresh.content_id ∧ other = uri := by
  induction rows with
  | nil =>
      simp only [Names, register, List.mem_singleton, exists_eq_left,
        LocatorRow.add_content_id, LocatorRow.mem_add_uri, unused,
        List.map_nil, List.not_mem_nil, or_false, false_and, exists_false,
        false_or]
      constructor
      · rintro ⟨rfl, rfl⟩
        exact ⟨rfl, rfl⟩
      · rintro ⟨rfl, rfl⟩
        exact ⟨rfl, rfl⟩
  | cons row rows induction =>
      by_cases same : row.key = fresh.key
      · have sameId := LocatorRow.content_id_eq_of_key same
        simp only [Names, register, same, if_true, List.mem_cons,
          exists_eq_or_imp, LocatorRow.add_content_id, LocatorRow.mem_add_uri]
        constructor
        · rintro (⟨rfl, rfl | member⟩ | later)
          · exact .inr ⟨sameId, rfl⟩
          · exact .inl (.inl ⟨rfl, member⟩)
          · exact .inl (.inr later)
        · rintro ((⟨rfl, member⟩ | later) | ⟨rfl, rfl⟩)
          · exact .inl ⟨rfl, .inr member⟩
          · exact .inr later
          · exact .inl ⟨sameId, .inl rfl⟩
      · simp only [Names, register, same, if_false, List.mem_cons,
          exists_eq_or_imp] at induction ⊢
        rw [induction, or_assoc]

section Lookup

variable (target : String)

theorem scanLocators_json (row : LocatorRow) (locators : List Locator) :
    LocatorIndex.scanLocators target (some (.str row.content_id))
        (locators.map Locator.json) =
      .ok (if target ∈ locators.map Locator.uri then some row.content_id
        else none) := by
  induction locators with
  | nil => rfl
  | cons locator locators induction =>
      have nonempty := row.strip_content_id
      by_cases same : locator.uri = target
      · simp [LocatorIndex.scanLocators, same, nonempty, row.canonical,
          Except.map, Except.bind, bind]
      · have different : target ≠ locator.uri := Ne.symm same
        simp only [List.map_cons, LocatorIndex.scanLocators,
          Locator.getKey_uri, Except.bind, bind, Option.some.injEq,
          Json.str.injEq, same, if_false, induction, List.mem_cons,
          different, false_or]

/-- The reverse lookup is a search through the rows. -/
theorem scanFiles_ofRows (rows : List LocatorRow) :
    LocatorIndex.scanFiles target (rows.map LocatorRow.file) =
      .ok ((rows.find? fun row => target ∈ row.locators.map Locator.uri).map
        LocatorRow.content_id) := by
  induction rows with
  | nil => rfl
  | cons row rows induction =>
      have content_id : (rowDocument row.content_id row.locators).getKey
          "content_id" = .ok (some (.str row.content_id)) := rfl
      simp only [List.map_cons, LocatorIndex.scanFiles, LocatorRow.file,
        LocatorRow.bytes, readJson_rowDocument, locatorsOf_rowDocument,
        content_id,
        Except.bind, bind, scanLocators_json]
      by_cases member : target ∈ row.locators.map Locator.uri
      · simp only [member, if_true, decide_true, List.find?_cons_of_pos,
          Option.map_some]
      · simp only [member, if_false, decide_false, Bool.false_eq_true,
          not_false_eq_true, List.find?_cons_of_neg]
        exact induction

end Lookup

theorem find_content_id_for_uri_ofRows (rows : List LocatorRow)
    (uri : String) :
    (LocatorIndex.ofRows rows).find_content_id_for_uri uri =
      .ok (if Text.strip uri = "" then none
        else (rows.find? fun row =>
          Text.strip uri ∈ row.locators.map Locator.uri).map
            LocatorRow.content_id) := by
  by_cases blank : Text.strip uri = ""
  · simp only [LocatorIndex.find_content_id_for_uri, blank, if_true]
  · simp only [LocatorIndex.find_content_id_for_uri, blank, if_false]
    exact scanFiles_ofRows (Text.strip uri) rows

/-- An id the lookup returns is recorded for that URI. -/
theorem names_of_find {rows : List LocatorRow} {uri content_id : String}
    (found : (LocatorIndex.ofRows rows).find_content_id_for_uri uri =
      .ok (some content_id)) : Names rows content_id (Text.strip uri) := by
  rw [find_content_id_for_uri_ofRows, Except.ok.injEq] at found
  split_ifs at found
  obtain ⟨row, located, rfl⟩ := Option.map_eq_some_iff.mp found
  exact ⟨row, List.mem_of_find?_eq_some located, rfl,
    by simpa using List.find?_some located⟩

end LocatorTable

end Cats
