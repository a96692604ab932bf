import Cats.Cas.Inlined
import Cats.Registry.Record
import Cats.Registry.Runs

/-!
# The projection of a stored record

`project_record` shows a record without its `*_cid` keys: the URI of a stem where
there is one, and otherwise its id, under the key of now or the legacy key.  A put
drops the legacy keys; it takes the BOM, Order and data ids over to the keys of
now, and no others.  So an id stays visible exactly when its key of now, or its
URI, was there beside the legacy key.
-/

namespace Cats

open Effect

namespace BomRegistry

section Projecting

/-- `bool(record.get(key))`. -/
def given (record : Fields) (key : String) : Bool :=
  (orNone (record.get? key)).truthy

/-- `if record.get(name) or record.get(legacy): out[name] = …`. -/
def idSlot (record : Fields) (name legacy : String) : Fields :=
  let value := valueOr (orNone (record.get? name)) (orNone (record.get? legacy))
  if value.truthy then [(name, value)] else []

/-- `if record.get(uri): out[uri] = record[uri]`, and what stands at its `elif`. -/
def uriSlot (record : Fields) (uri : String) (otherwise : Fields) : Fields :=
  if given record uri then [(uri, orNone (record.get? uri))] else otherwise

/-- The optional stems of a projection. -/
def slots (record : Fields) : Fields :=
  idSlot record "input_data" "input_data_cid" ++
  idSlot record "function" "function_cid" ++
  idSlot record "structure" "structure_cid" ++
  uriSlot record "ingress_data_uri"
    (idSlot record "ingress_data" "ingress_data_cid") ++
  uriSlot record "integration_data_uri"
    (idSlot record "integration_data" "integration_data_cid") ++
  uriSlot record "data_stages_uri" (uriSlot record "data_stages" []) ++
  uriSlot record "seed_uri" (idSlot record "seed" "seed_cid") ++
  uriSlot record "runtime_sbom_uri"
    (idSlot record "runtime_sbom" "runtime_sbom_cid") ++
  uriSlot record "function_sbom_uri"
    (idSlot record "function_sbom" "function_sbom_cid") ++
  uriSlot record "structure_sbom_uri"
    (idSlot record "structure_sbom" "structure_sbom_cid") ++
  uriSlot record "input_data_sbom_uri"
    (idSlot record "input_data_sbom" "input_data_sbom_cid")

/-- The locators, and what the record has of them itself. -/
def addresses (record loc : Fields) : Fields :=
  [("invoice_uri", valueOr (orNone (record.get? "invoice_uri"))
      (orNone (loc.get? "invoice_uri"))),
    ("order_uri", valueOr (orNone (record.get? "order_uri"))
      (orNone (loc.get? "order_uri"))),
    ("data_uri", orNone (record.get? "data_uri")),
    ("node_did", orNone (record.get? "node_did")),
    ("locators", .obj
      [("bom_ldp_uri", orNone (loc.get? "bom_ldp_uri")),
        ("bom_solid_uri", orNone (loc.get? "bom_solid_uri")),
        ("invoice_uri", valueOr (orNone (loc.get? "invoice_uri"))
          (orNone (record.get? "invoice_uri"))),
        ("order_uri", valueOr (orNone (loc.get? "order_uri"))
          (orNone (record.get? "order_uri")))])]

/-- `{k: v for k, v in out.items() if v is not None}`. -/
def present (out : Fields) : Fields :=
  out.filter fun field => field.2 ≠ .null

/-- An id that may be missing. -/
def idEntry (name : String) (id : Option String) : Fields :=
  present [(name, ofText id)]

/-- What is shown of a record with the three ids. -/
def projection (bom_id order_id data_id : Option String)
    (record loc : Fields) : Fields :=
  idEntry "content_id" bom_id ++ present (addresses record loc) ++
    idEntry "order" order_id ++ idEntry "data" data_id ++ slots record

/-- `record.get('locators') or {}`, where the program goes on to call `get`. -/
def locatorsOf (record : Fields) : Except Raised Fields :=
  let value := orNone (record.get? "locators")
  if value.truthy then value.mapping else .ok []

/-- `project_record(record)`. -/
def project_record (record : Fields) : Except Raised Fields := do
  let loc ← locatorsOf record
  .ok (projection (record_bom_id record) (record_order_id record)
    (record_data_id record) record loc)

end Projecting

section ReadBack

/-- Sorting the keys of a value does not change whether it is empty. -/
theorem truthy_sortKeys (value : Json) :
    value.sortKeys.truthy = value.truthy := by
  cases value with
  | arr items =>
      cases items with
      | nil => rfl
      | cons item items => rfl
  | obj fields =>
      have empty := Json.sortKeysFields_eq_nil_iff fields
      show (!(Json.sortKeysFields fields).isEmpty) = !fields.isEmpty
      rw [Bool.eq_iff_iff]
      simp [empty]
  | _ => rfl

theorem orNone_map_sortKeys (value : Option Json) :
    orNone (value.map Json.sortKeys) = (orNone value).sortKeys := by
  cases value with
  | none => rfl
  | some value => rfl

theorem valueOr_sortKeys (first second : Json) :
    valueOr first.sortKeys second.sortKeys = (valueOr first second).sortKeys := by
  unfold valueOr
  rw [truthy_sortKeys]
  split_ifs
  · rfl
  · rfl

/-- `after` holds what `before` holds, with the keys of the values sorted. -/
def ReadsBack (before after : Fields) : Prop :=
  ∀ key, after.get? key = (before.get? key).map Json.sortKeys

theorem get?_append (left right : Fields) (key : String) :
    Fields.get? (left ++ right) key =
      (left.get? key).or (right.get? key) := by
  induction left with
  | nil => rfl
  | cons field left induction =>
      obtain ⟨name, value⟩ := field
      rw [List.cons_append, Fields.get?_cons, Fields.get?_cons, induction]
      split_ifs
      · rfl
      · rfl

theorem ReadsBack.nil : ReadsBack [] [] := fun _ => rfl

theorem ReadsBack.single (name : String) (value : Json) :
    ReadsBack [(name, value)] [(name, value.sortKeys)] := by
  intro key
  rw [Fields.get?_cons, Fields.get?_cons]
  split_ifs
  · rfl
  · rfl

theorem ReadsBack.append {left left' right right' : Fields}
    (first : ReadsBack left left') (second : ReadsBack right right') :
    ReadsBack (left ++ right) (left' ++ right') := by
  intro key
  rw [get?_append, get?_append, first key, second key]
  cases left.get? key with
  | none => rfl
  | some value => rfl

variable {record kept : Fields}

theorem given_of_read {key : String}
    (read : kept.get? key = (record.get? key).map Json.sortKeys) :
    given kept key = given record key := by
  unfold given
  rw [read, orNone_map_sortKeys, truthy_sortKeys]

/-- An id reads back if its key does, and the legacy key does or is not needed. -/
theorem readsBack_idSlot {name legacy : String}
    (read : kept.get? name = (record.get? name).map Json.sortKeys)
    (spare : kept.get? legacy = (record.get? legacy).map Json.sortKeys ∨
      kept.get? legacy = none ∧ (given record legacy = true →
        given record name = true)) :
    ReadsBack (idSlot record name legacy) (idSlot kept name legacy) := by
  have same : (valueOr (orNone (kept.get? name)) (orNone (kept.get? legacy))).truthy =
        (valueOr (orNone (record.get? name)) (orNone (record.get? legacy))).truthy ∧
      ((valueOr (orNone (record.get? name))
          (orNone (record.get? legacy))).truthy = true →
        valueOr (orNone (kept.get? name)) (orNone (kept.get? legacy)) =
          (valueOr (orNone (record.get? name))
            (orNone (record.get? legacy))).sortKeys) := by
    rcases spare with spare | ⟨dropped, needless⟩
    · rw [read, spare, orNone_map_sortKeys, orNone_map_sortKeys,
        valueOr_sortKeys, truthy_sortKeys]
      exact ⟨rfl, fun _ => rfl⟩
    · rw [read, dropped, orNone_map_sortKeys]
      unfold valueOr
      rw [truthy_sortKeys]
      by_cases here : (orNone (record.get? name)).truthy = true
      · rw [if_pos here, if_pos here, truthy_sortKeys]
        exact ⟨rfl, fun _ => rfl⟩
      · rw [if_neg here, if_neg here]
        have missing : (orNone (record.get? legacy)).truthy = false := by
          rw [Bool.eq_false_iff]
          intro there
          exact here (needless there)
        rw [missing]
        exact ⟨rfl, fun impossible => nomatch impossible⟩
  unfold idSlot
  dsimp only
  rw [same.1]
  split_ifs with there
  · rw [same.2 there]
    exact ReadsBack.single name _
  · exact ReadsBack.nil

theorem readsBack_uriSlot {uri : String} {before after : Fields}
    (read : kept.get? uri = (record.get? uri).map Json.sortKeys)
    (otherwise : given record uri = false → ReadsBack before after) :
    ReadsBack (uriSlot record uri before) (uriSlot kept uri after) := by
  unfold uriSlot
  rw [given_of_read read]
  split_ifs with there
  · rw [read, orNone_map_sortKeys]
    exact ReadsBack.single uri _
  · exact otherwise (Bool.eq_false_iff.mpr there)

theorem readsBack_present {before : Fields} :
    ReadsBack (present before)
      (present (before.map fun field => (field.1, field.2.sortKeys))) := by
  induction before with
  | nil => exact ReadsBack.nil
  | cons field before induction =>
      obtain ⟨name, value⟩ := field
      have nulls : value.sortKeys = .null ↔ value = .null := by
        cases value with
        | _ => simp [Json.sortKeys]
      by_cases null : value = .null
      · subst value
        exact induction
      · have sorted : value.sortKeys ≠ .null := fun same =>
          null (nulls.mp same)
        simp only [present, List.map_cons, List.filter_cons, null, sorted,
          ne_eq, not_false_eq_true, decide_true, if_true]
        exact ReadsBack.append (ReadsBack.single name value) induction

/-- The addresses read back if their keys do. -/
theorem addresses_of_read {loc kept_loc : Fields}
    (read : ∀ key ∈ ["invoice_uri", "order_uri", "data_uri", "node_did"],
      kept.get? key = (record.get? key).map Json.sortKeys)
    (located : ∀ key, kept_loc.get? key = (loc.get? key).map Json.sortKeys) :
    addresses kept kept_loc = (addresses record loc).map
      fun field => (field.1, field.2.sortKeys) := by
  have sorted : ∀ bom_ldp bom_solid invoice order : Json,
      (Json.obj [("bom_ldp_uri", bom_ldp), ("bom_solid_uri", bom_solid),
        ("invoice_uri", invoice), ("order_uri", order)]).sortKeys =
      .obj [("bom_ldp_uri", bom_ldp.sortKeys),
        ("bom_solid_uri", bom_solid.sortKeys),
        ("invoice_uri", invoice.sortKeys), ("order_uri", order.sortKeys)] := by
    intro bom_ldp bom_solid invoice order
    simp [Json.sortKeys, Json.sortKeysFields, Json.insertField]
  unfold addresses
  simp only [List.map_cons, List.map_nil, sorted, ← valueOr_sortKeys,
    ← orNone_map_sortKeys, located, read "invoice_uri" (by simp),
    read "order_uri" (by simp), read "data_uri" (by simp),
    read "node_did" (by simp)]

end ReadBack

section Storing

variable {record kept : Fields} {bom_id order_id data_id : String}

theorem get?_eraseAll (keys : List String) (fields : Fields) (key : String) :
    Fields.get? (keys.foldl Fields.erase fields) key =
      if key ∈ keys then none else fields.get? key := by
  induction keys generalizing fields with
  | nil => rfl
  | cons name keys induction =>
      rw [List.foldl_cons, induction]
      by_cases same : name = key
      · subst name
        rw [Fields.get?_erase_self, if_pos List.mem_cons_self, ite_self]
      · have member : key ∈ name :: keys ↔ key ∈ keys := by
          rw [List.mem_cons]
          constructor
          · intro either
            exact either.resolve_left (Ne.symm same)
          · exact Or.inr
        rw [Fields.get?_erase_of_ne _ same]
        simp only [member]

/-- The three keys that a put sets. -/
def idKeys : List String := ["content_id", "order", "data"]

theorem get?_storedRecord {key : String} (other : key ∉ idKeys) :
    (storedRecord record bom_id order_id data_id).get? key =
      if key ∈ legacyKeys then none else record.get? key := by
  simp only [idKeys, List.mem_cons, List.not_mem_nil, or_false, not_or] at other
  unfold storedRecord
  rw [Fields.get?_set_of_ne _ (Ne.symm other.2.2),
    Fields.get?_set_of_ne _ (Ne.symm other.2.1),
    Fields.get?_set_of_ne _ (Ne.symm other.1), get?_eraseAll]

/-- What was put and read again: the legacy keys are gone, the ids are set, and the
rest is there. -/
structure Restored (record kept : Fields) : Prop where
  now : ∀ key, key ∉ idKeys ∧ key ∉ legacyKeys →
    kept.get? key = (record.get? key).map Json.sortKeys
  dropped : ∀ key ∈ legacyKeys, kept.get? key = none

theorem restored_storedRecord (valid : (Json.obj record).wellFormed = true) :
    Restored record
      (Json.sortKeysFields (storedRecord record bom_id order_id data_id)) := by
  have nodup := (Json.wellFormed_obj_iff.mp
    (wellFormed_storedRecord valid bom_id order_id data_id)).1
  have apart : ∀ key ∈ legacyKeys, key ∉ idKeys := by decide
  constructor
  · intro key now
    rw [Json.get?_sortKeysFields nodup, get?_storedRecord now.1, if_neg now.2]
  · intro key legacy
    rw [Json.get?_sortKeysFields nodup, get?_storedRecord (apart key legacy),
      if_pos legacy]
    rfl

/-- The keys of now and their legacy keys, where there is no URI. -/
def droppedIds : List (String × String) :=
  [("input_data", "input_data_cid"), ("function", "function_cid"),
    ("structure", "structure_cid")]

/-- The URI, the key of now and the legacy key. -/
def droppedUris : List (String × String × String) :=
  [("ingress_data_uri", "ingress_data", "ingress_data_cid"),
    ("integration_data_uri", "integration_data", "integration_data_cid"),
    ("seed_uri", "seed", "seed_cid"),
    ("runtime_sbom_uri", "runtime_sbom", "runtime_sbom_cid")]

/-- No id is shown only because of a legacy key that a put drops. -/
structure Kept (record : Fields) : Prop where
  ids : ∀ slot ∈ droppedIds, given record slot.2 = true →
    given record slot.1 = true
  uris : ∀ slot ∈ droppedUris, given record slot.2.2 = true →
    given record slot.1 = true ∨ given record slot.2.1 = true

namespace Restored

variable (restored : Restored record kept)

include restored

theorem droppedId (all : Kept record) (name legacy : String)
    (member : (name, legacy) ∈ droppedIds) :
    ReadsBack (idSlot record name legacy) (idSlot kept name legacy) := by
  have keys : ∀ slot ∈ droppedIds, (slot.1 ∉ idKeys ∧ slot.1 ∉ legacyKeys) ∧
      slot.2 ∈ legacyKeys := by decide
  obtain ⟨now, old⟩ := keys _ member
  apply readsBack_idSlot (restored.now name now)
  exact .inr ⟨restored.dropped legacy old, all.ids _ member⟩

theorem droppedUri (all : Kept record) (uri name legacy : String)
    (member : (uri, name, legacy) ∈ droppedUris) :
    ReadsBack (uriSlot record uri (idSlot record name legacy))
      (uriSlot kept uri (idSlot kept name legacy)) := by
  have keys : ∀ slot ∈ droppedUris, (slot.1 ∉ idKeys ∧ slot.1 ∉ legacyKeys) ∧
      (slot.2.1 ∉ idKeys ∧ slot.2.1 ∉ legacyKeys) ∧ slot.2.2 ∈ legacyKeys := by
    decide
  obtain ⟨address, now, old⟩ := keys _ member
  apply readsBack_uriSlot (restored.now uri address)
  intro without
  apply readsBack_idSlot (restored.now name now)
  refine .inr ⟨restored.dropped legacy old, ?_⟩
  intro there
  have either := all.uris _ member there
  rw [without] at either
  exact either.resolve_left Bool.false_ne_true

/-- The stems whose legacy key a put keeps. -/
theorem keptUri (uri name legacy : String)
    (address : uri ∉ idKeys ∧ uri ∉ legacyKeys)
    (now : name ∉ idKeys ∧ name ∉ legacyKeys)
    (old : legacy ∉ idKeys ∧ legacy ∉ legacyKeys) :
    ReadsBack (uriSlot record uri (idSlot record name legacy))
      (uriSlot kept uri (idSlot kept name legacy)) := by
  apply readsBack_uriSlot (restored.now uri address)
  intro without
  apply readsBack_idSlot (restored.now name now)
  exact .inl (restored.now legacy old)

theorem dataStages :
    ReadsBack
      (uriSlot record "data_stages_uri" (uriSlot record "data_stages" []))
      (uriSlot kept "data_stages_uri" (uriSlot kept "data_stages" [])) := by
  apply readsBack_uriSlot (restored.now _ (by decide))
  intro without
  apply readsBack_uriSlot (restored.now _ (by decide))
  intro absent
  exact ReadsBack.nil

/-- The slots of a record that is kept read back. -/
theorem slots (all : Kept record) : ReadsBack (slots record) (slots kept) := by
  have ids := ((restored.droppedId all "input_data" "input_data_cid"
      (by simp [droppedIds])).append
    (restored.droppedId all "function" "function_cid"
      (by simp [droppedIds]))).append
    (restored.droppedId all "structure" "structure_cid" (by simp [droppedIds]))
  have stages := ((ids.append
    (restored.droppedUri all "ingress_data_uri" "ingress_data"
      "ingress_data_cid" (by simp [droppedUris]))).append
    (restored.droppedUri all "integration_data_uri" "integration_data"
      "integration_data_cid" (by simp [droppedUris]))).append
    restored.dataStages
  have nests := (stages.append
    (restored.droppedUri all "seed_uri" "seed" "seed_cid"
      (by simp [droppedUris]))).append
    (restored.droppedUri all "runtime_sbom_uri" "runtime_sbom"
      "runtime_sbom_cid" (by simp [droppedUris]))
  exact ((nests.append
    (restored.keptUri "function_sbom_uri" "function_sbom" "function_sbom_cid"
      (by decide) (by decide) (by decide))).append
    (restored.keptUri "structure_sbom_uri" "structure_sbom"
      "structure_sbom_cid" (by decide) (by decide) (by decide))).append
    (restored.keptUri "input_data_sbom_uri" "input_data_sbom"
      "input_data_sbom_cid" (by decide) (by decide) (by decide))

end Restored

section Shown

/-- What a slot of an id shows. -/
def shownId (record : Fields) (name legacy : String) : Option Json :=
  let value := valueOr (orNone (record.get? name)) (orNone (record.get? legacy))
  if value.truthy then some value else none

theorem get?_idSlot (record : Fields) (name legacy key : String) :
    (idSlot record name legacy).get? key =
      if name = key then shownId record name legacy else none := by
  unfold idSlot shownId
  dsimp only
  split_ifs with there same same
  · rw [Fields.get?_cons, if_pos same]
  · rw [Fields.get?_cons, if_neg same, Fields.get?_nil]
  · rfl
  · rfl

theorem get?_uriSlot_of_ne {uri key : String} (apart : uri ≠ key)
    (record otherwise : Fields) (without : otherwise.get? key = none) :
    (uriSlot record uri otherwise).get? key = none := by
  unfold uriSlot
  split_ifs
  · rw [Fields.get?_cons, if_neg apart, Fields.get?_nil]
  · exact without

theorem get?_uriSlot_id {uri name : String} (apart : uri ≠ name)
    (record : Fields) (legacy : String) :
    (uriSlot record uri (idSlot record name legacy)).get? name =
      if given record uri then none else shownId record name legacy := by
  unfold uriSlot
  split_ifs
  · rw [Fields.get?_cons, if_neg apart, Fields.get?_nil]
  · rw [get?_idSlot, if_pos rfl]

theorem get?_dataStages {key : String} (address : "data_stages_uri" ≠ key)
    (apart : "data_stages" ≠ key) (record : Fields) :
    (uriSlot record "data_stages_uri" (uriSlot record "data_stages" [])).get?
      key = none := by
  apply get?_uriSlot_of_ne address
  apply get?_uriSlot_of_ne apart
  rfl

theorem get?_slots_id {name legacy : String}
    (member : (name, legacy) ∈ droppedIds) (record : Fields) :
    (BomRegistry.slots record).get? name = shownId record name legacy := by
  simp only [droppedIds, List.mem_cons, Prod.mk.injEq, List.not_mem_nil,
    or_false] at member
  obtain ⟨rfl, rfl⟩ | ⟨rfl, rfl⟩ | ⟨rfl, rfl⟩ := member <;>
  simp [BomRegistry.slots, get?_append, get?_idSlot, get?_uriSlot_of_ne,
    get?_dataStages]

theorem get?_slots_uri {uri name legacy : String}
    (member : (uri, name, legacy) ∈ droppedUris) (record : Fields) :
    (BomRegistry.slots record).get? name =
      if given record uri then none else shownId record name legacy := by
  simp only [droppedUris, List.mem_cons, Prod.mk.injEq, List.not_mem_nil,
    or_false] at member
  obtain ⟨rfl, rfl, rfl⟩ | ⟨rfl, rfl, rfl⟩ | ⟨rfl, rfl, rfl⟩ | ⟨rfl, rfl, rfl⟩ :=
    member <;>
  simp [BomRegistry.slots, get?_append, get?_idSlot, get?_uriSlot_of_ne,
    get?_uriSlot_id, get?_dataStages]

theorem shownId_ne_none {name legacy : String} :
    shownId record name legacy ≠ none ↔
      given record name = true ∨ given record legacy = true := by
  unfold shownId given valueOr
  dsimp only
  by_cases here : (orNone (record.get? name)).truthy = true
  · rw [if_pos here, if_pos here]
    simp [here]
  · rw [if_neg here]
    simp [here]

/-- A record is kept if every id that its slots show is shown of what is read. -/
theorem Restored.isKept (restored : Restored record kept)
    (shows : ∀ key, (BomRegistry.slots record).get? key ≠ none →
      (∃ slot ∈ droppedIds, key = slot.1) ∨ (∃ slot ∈ droppedUris, key = slot.2.1) →
      (BomRegistry.slots kept).get? key ≠ none) : Kept record := by
  have still : ∀ {name legacy : String}, name ∉ idKeys ∧ name ∉ legacyKeys →
      legacy ∈ legacyKeys → shownId kept name legacy ≠ none →
      given record name = true := by
    intro name legacy now old there
    rcases shownId_ne_none.mp there with here | before
    · rw [given_of_read (restored.now name now)] at here
      exact here
    · unfold given at before
      rw [restored.dropped legacy old] at before
      cases before
  constructor
  · intro slot member old
    have keys : ∀ slot ∈ droppedIds, (slot.1 ∉ idKeys ∧ slot.1 ∉ legacyKeys) ∧
        slot.2 ∈ legacyKeys := by decide
    obtain ⟨now, legacy⟩ := keys slot member
    have shown := shows slot.1
      (by rw [get?_slots_id member]; exact shownId_ne_none.mpr (.inr old))
      (.inl ⟨slot, member, rfl⟩)
    rw [get?_slots_id member] at shown
    exact still now legacy shown
  · intro slot member old
    have keys : ∀ slot ∈ droppedUris, (slot.1 ∉ idKeys ∧ slot.1 ∉ legacyKeys) ∧
        (slot.2.1 ∉ idKeys ∧ slot.2.1 ∉ legacyKeys) ∧ slot.2.2 ∈ legacyKeys := by
      decide
    obtain ⟨address, now, legacy⟩ := keys slot member
    by_cases there : given record slot.1 = true
    · exact .inl there
    · right
      have same := given_of_read (restored.now slot.1 address)
      have shown := shows slot.2.1
        (by
          rw [get?_slots_uri member, if_neg there]
          exact shownId_ne_none.mpr (.inr old))
        (.inr ⟨slot, member, rfl⟩)
      rw [get?_slots_uri member, same, if_neg there] at shown
      exact still now legacy shown

end Shown

end Storing

section Stored

variable {record kept : Fields}

/-- The keys in front of the slots. -/
def addressKeys : List String :=
  ["invoice_uri", "order_uri", "data_uri", "node_did", "locators"]

theorem keys_present_addresses (loc : Fields) {key : String}
    (member : key ∈ Fields.keys (present (addresses record loc))) :
    key ∈ addressKeys := by
  obtain ⟨field, there, rfl⟩ := List.mem_map.mp member
  have listed := List.mem_map_of_mem (f := Prod.fst) (List.mem_of_mem_filter there)
  exact listed

/-- The projection with the three ids in canonical spelling. -/
def canonicalIds (entry : Entry) (out : Fields) : Fields :=
  ((out.set "content_id" (.str entry.bom.text)).set "order"
    (.str entry.order.text)).set "data" (.str entry.data.text)

theorem set_append_of_notMem {left right : Fields} {key : String}
    {value : Json} (absent : key ∉ left.keys) :
    Fields.set (left ++ right) key value = left ++ right.set key value := by
  induction left with
  | nil => rfl
  | cons field left induction =>
      obtain ⟨name, old⟩ := field
      simp only [Fields.keys, List.map_cons, List.mem_cons, not_or] at absent
      rw [List.cons_append, Fields.set, if_neg (Ne.symm absent.1),
        induction absent.2, List.cons_append]

theorem set_cons_self (key : String) (old value : Json) (rest : Fields) :
    Fields.set ((key, old) :: rest) key value = (key, value) :: rest := by
  rw [Fields.set, if_pos rfl]

theorem set_cons_of_ne {name key : String} (apart : name ≠ key)
    (old value : Json) (rest : Fields) :
    Fields.set ((name, old) :: rest) key value =
      (name, old) :: Fields.set rest key value := by
  rw [Fields.set, if_neg apart]

/-- Setting the ids of a projection is projecting with them. -/
theorem canonicalIds_projection (entry : Entry) (bom order data : String)
    (loc : Fields) :
    canonicalIds entry
        (projection (some bom) (some order) (some data) record loc) =
      projection (some entry.bom.text) (some entry.order.text)
        (some entry.data.text) record loc := by
  have noOrder : "order" ∉ Fields.keys (present (addresses record loc)) :=
    fun member => absurd (keys_present_addresses loc member) (by decide)
  have noData : "data" ∉ Fields.keys (present (addresses record loc)) :=
    fun member => absurd (keys_present_addresses loc member) (by decide)
  have shape : ∀ bom order data : String,
      projection (some bom) (some order) (some data) record loc =
        ("content_id", .str bom) :: (present (addresses record loc) ++
          ("order", .str order) :: ("data", .str data) ::
            BomRegistry.slots record) := by
    intro bom order data
    unfold projection
    simp [idEntry, present, ofText]
  have order_bom : "content_id" ≠ "order" := by decide
  have data_bom : "content_id" ≠ "data" := by decide
  have data_order : "order" ≠ "data" := by decide
  unfold canonicalIds
  rw [shape, shape, set_cons_self, set_cons_of_ne order_bom,
    set_append_of_notMem noOrder, set_cons_self, set_cons_of_ne data_bom,
    set_append_of_notMem noData, set_cons_of_ne data_order, set_cons_self]

/-- The locators read back, or are refused the same way. -/
theorem locatorsOf_restored (valid : (Json.obj record).wellFormed = true)
    (restored : Restored record kept) :
    (∃ loc kept_loc, locatorsOf record = .ok loc ∧
        locatorsOf kept = .ok kept_loc ∧
        ∀ key, kept_loc.get? key = (loc.get? key).map Json.sortKeys) ∨
      ∃ raised, locatorsOf record = .error raised ∧
        locatorsOf kept = .error raised := by
  have read := restored.now "locators" (by decide)
  unfold locatorsOf
  dsimp only
  rw [read, orNone_map_sortKeys, truthy_sortKeys]
  split_ifs with there
  · cases found : record.get? "locators" with
    | none =>
        rw [found] at there
        cases there
    | some value =>
        cases value with
        | obj loc =>
            have whole := Json.wellFormed_obj_iff.mp valid
            have member : ("locators", Json.obj loc) ∈ record :=
              Fields.mem_of_get? found
            have nodup := (Json.wellFormed_obj_iff.mp
              (whole.2 _ member)).1
            exact .inl ⟨loc, Json.sortKeysFields loc, rfl, rfl,
              fun key => Json.get?_sortKeysFields nodup key⟩
        | _ => exact .inr ⟨_, rfl, rfl⟩
  · exact .inl ⟨[], [], rfl, rfl, fun key => rfl⟩

/-- The file that was written is the one that is found. -/
theorem file?_writeBom (file : BomFile) (boms : List BomFile) :
    file? (writeBom file boms) file.stem = some file.data := by
  induction boms with
  | nil => simp [writeBom, file?]
  | cons other boms induction =>
      rw [writeBom]
      split_ifs with same
      · simp [file?]
      · have skips : file? (other :: writeBom file boms) file.stem =
            file? (writeBom file boms) file.stem := by
          simp [file?, same]
        rw [skips, induction]

theorem append_index_boms {dir : IndexDir} {key bom_id : String}
    {registry after : BomRegistry}
    (ran : append_index dir key bom_id registry = .ok () after) :
    after.boms = registry.boms := by
  cases readable : read_list (registry.lists dir key) with
  | error raised =>
      have refused : append_index dir key bom_id registry =
          .error raised registry := by
        unfold append_index
        rw [bind_run_ok (get_run registry), readable]
        rfl
      rw [refused] at ran
      cases ran
  | ok existing =>
      obtain ⟨middle, appends, boms, -⟩ :=
        @append_index_ok _ _ _ bom_id _ readable
      rw [appends] at ran
      cases ran
      exact boms

/-- A record that was put is read back, under any spelling of its BOM's id. -/
theorem get_of_put {registry after : BomRegistry} {now : Int} {stem : String}
    (valid : (Json.obj record).wellFormed = true)
    (accepted : put record now registry = .ok stem after) :
    ∃ entry, entryOf record = .ok entry ∧ ∀ key, ContentId.Spells key entry.bom →
      after.get key = .ok (some (.obj (Json.sortKeysFields
        (storedRecord record entry.bom.text entry.order.text
          entry.data.text)))) := by
  cases read : entryOf record with
  | error raised =>
      rw [put_refused read] at accepted
      cases accepted
  | ok entry =>
      refine ⟨entry, rfl, ?_⟩
      intro key spells
      rw [put_entry read] at accepted
      obtain ⟨_, first, byData, accepted⟩ := bind_ok accepted
      obtain ⟨_, second, byOrder, accepted⟩ := bind_ok accepted
      cases accepted
      have boms : after.boms =
          writeBom (recordFile record now entry) registry.boms := by
        rw [append_index_boms byOrder, append_index_boms byData]
        rfl
      have found := file?_writeBom (recordFile record now entry) registry.boms
      have readable := readJson_sortedDocument (Json.wellFormed_sortKeys _
        (wellFormed_storedRecord valid entry.bom.text entry.order.text
          entry.data.text))
      have there : file? after.boms entry.bom.key =
          some (recordFile record now entry).data := by
        rw [boms]
        exact found
      simp only [BomRegistry.get, spells.key "content_id", bind, Except.bind,
        there, recordFile, readable, Except.map, Json.sortKeys]

/-- What a put leaves of the projection: what is read is shown as before, with the
ids in canonical spelling, exactly if the record is kept. -/
structure Shown (record kept : Fields) (entry : Entry) : Prop where
  projected : ∀ out, project_record record = .ok out →
    ∃ shown, project_record kept = .ok shown ∧
      (ReadsBack (canonicalIds entry out) shown ↔ Kept record)
  refused : ∀ raised, project_record record = .error raised →
    project_record kept = .error raised

theorem recordId_of_parse {name legacy : String} {label : String}
    {id : ContentId}
    (parsed : ContentId.parse ((recordId record name legacy).getD "") label =
      .ok id) : ∃ text, recordId record name legacy = some text := by
  cases found : recordId record name legacy with
  | some text => exact ⟨text, rfl⟩
  | none =>
      rw [found] at parsed
      have empty : Text.strip "" = "" := rfl
      simp [ContentId.parse, empty] at parsed

/-- A key that is none of the ids and addresses is shown by the slots. -/
theorem get?_projection {key : String} (other : key ∉ idKeys)
    (elsewhere : key ∉ addressKeys) (bom order data : Option String)
    (loc : Fields) :
    (projection bom order data record loc).get? key =
      (BomRegistry.slots record).get? key := by
  have entries : ∀ name ∈ idKeys, ∀ id : Option String,
      (idEntry name id).get? key = none := by
    intro name member id
    rw [Fields.get?_eq_none_iff]
    intro there
    obtain ⟨field, listed, same⟩ := List.mem_map.mp there
    have filtered : field ∈ present [(name, ofText id)] := listed
    have here := List.mem_singleton.mp (List.mem_of_mem_filter filtered)
    rw [here] at same
    exact other (same ▸ member)
  have front : (present (addresses record loc)).get? key = none :=
    Fields.get?_eq_none_iff.mpr fun there =>
      elsewhere (keys_present_addresses loc there)
  unfold projection
  rw [get?_append, get?_append, get?_append, get?_append,
    entries "content_id" (by decide), entries "order" (by decide),
    entries "data" (by decide), front]
  rfl

/-- The ids and addresses read back. -/
theorem Restored.readsBack_projection (restored : Restored record kept)
    {loc kept_loc : Fields}
    (same : ∀ key, kept_loc.get? key = (loc.get? key).map Json.sortKeys)
    (all : Kept record) (bom order data : String) :
    ReadsBack (projection (some bom) (some order) (some data) record loc)
      (projection (some bom) (some order) (some data) kept kept_loc) := by
  have now : ∀ key ∈ ["invoice_uri", "order_uri", "data_uri", "node_did"],
      key ∉ idKeys ∧ key ∉ legacyKeys := by decide
  unfold projection
  rw [addresses_of_read (fun key member => restored.now key (now key member))
    same]
  exact ((((ReadsBack.single _ _).append readsBack_present).append
    (ReadsBack.single _ _)).append (ReadsBack.single _ _)).append
    (restored.slots all)

theorem Restored.readsBack_iff (restored : Restored record kept)
    {loc kept_loc : Fields}
    (same : ∀ key, kept_loc.get? key = (loc.get? key).map Json.sortKeys)
    (bom order data : String) :
    ReadsBack (projection (some bom) (some order) (some data) record loc)
        (projection (some bom) (some order) (some data) kept kept_loc) ↔
      Kept record := by
  constructor
  · intro reads
    apply restored.isKept
    intro key shown dropped
    have apart : (∀ slot ∈ droppedIds, slot.1 ∉ idKeys ∧ slot.1 ∉ addressKeys) ∧
        ∀ slot ∈ droppedUris, slot.2.1 ∉ idKeys ∧ slot.2.1 ∉ addressKeys := by
      decide
    have keys : key ∉ idKeys ∧ key ∉ addressKeys := by
      rcases dropped with ⟨slot, member, rfl⟩ | ⟨slot, member, rfl⟩
      · exact apart.1 slot member
      · exact apart.2 slot member
    have read := reads key
    rw [get?_projection keys.1 keys.2, get?_projection keys.1 keys.2] at read
    rw [read]
    intro missing
    exact shown (Option.map_eq_none_iff.mp missing)
  · intro all
    exact restored.readsBack_projection same all bom order data

theorem Restored.shown {entry : Entry}
    (valid : (Json.obj record).wellFormed = true)
    (restored : Restored record kept) (read : entryOf record = .ok entry)
    (bom : record_bom_id kept = some entry.bom.text)
    (order : record_order_id kept = some entry.order.text)
    (data : record_data_id kept = some entry.data.text) :
    Shown record kept entry := by
  rcases locatorsOf_restored valid restored with
    ⟨loc, kept_loc, located, kept_located, same⟩ | ⟨raised, before, now⟩
  · have ids := entryOf_ok read
    obtain ⟨bom_id, bomGiven⟩ := recordId_of_parse ids.1
    obtain ⟨order_id, orderGiven⟩ := recordId_of_parse ids.2.1
    obtain ⟨data_id, dataGiven⟩ := recordId_of_parse ids.2.2
    have projects : project_record record = .ok (projection (some bom_id)
        (some order_id) (some data_id) record loc) := by
      unfold project_record
      rw [located, show record_bom_id record = some bom_id from bomGiven,
        show record_order_id record = some order_id from orderGiven,
        show record_data_id record = some data_id from dataGiven]
      rfl
    have shows : project_record kept = .ok (projection (some entry.bom.text)
        (some entry.order.text) (some entry.data.text) kept kept_loc) := by
      unfold project_record
      rw [kept_located, bom, order, data]
      rfl
    constructor
    · intro out projected
      cases projects.symm.trans projected
      refine ⟨_, shows, ?_⟩
      rw [canonicalIds_projection]
      exact restored.readsBack_iff same _ _ _
    · intro raised refused
      cases projects.symm.trans refused
  · constructor
    · intro out projected
      unfold project_record at projected
      rw [before] at projected
      cases projected
    · intro other refused
      unfold project_record at refused ⊢
      rw [before] at refused
      rw [now]
      exact refused

/-- A record that was put shows what it showed, exactly if it is kept. -/
theorem put_shows_iff {registry after : BomRegistry} {now : Int}
    {stem : String} (valid : (Json.obj record).wellFormed = true)
    (accepted : put record now registry = .ok stem after) :
    ∃ entry, entryOf record = .ok entry ∧ ∃ kept,
      (∀ key, ContentId.Spells key entry.bom →
        after.get key = .ok (some (.obj kept))) ∧
      Shown record kept entry := by
  obtain ⟨entry, read, there⟩ := get_of_put valid accepted
  refine ⟨entry, read, _, there, ?_⟩
  obtain ⟨kept, readable, bom, order, data⟩ := holds_storedRecord valid entry
  rw [readJson_sortedDocument (Json.wellFormed_sortKeys _
    (wellFormed_storedRecord valid entry.bom.text entry.order.text
      entry.data.text))] at readable
  cases readable
  exact (restored_storedRecord valid).shown valid read bom order data

/-- A record with the input data under its legacy key only. -/
def legacyRecord : Fields :=
  [("content_id", .str "QmBom"), ("order", .str "QmOrder"),
    ("data", .str "QmData"), ("input_data_cid", .str "QmInput")]

/-- A record of three ids can be put into an empty registry. -/
theorem put_empty {entry : Entry} (read : entryOf record = .ok entry)
    (now : Int) : ∃ after, put record now empty = .ok entry.bom.key after := by
  have unlisted : read_list ((filed empty record now entry).lists .by_data
      entry.data.key) = .ok [] := rfl
  obtain ⟨middle, dataPut, -, -, frame⟩ :=
    @append_index_ok _ _ _ entry.bom.text _ unlisted
  have unordered : read_list (middle.lists .by_order entry.order.key) =
      .ok [] := by
    rw [frame _ _ (by simp)]
    rfl
  obtain ⟨after, orderPut, -⟩ :=
    @append_index_ok _ _ _ entry.bom.text _ unordered
  refine ⟨after, ?_⟩
  rw [put_entry read, bind_run_ok dataPut, bind_run_ok orderPut]
  rfl

theorem legacyRecord_read : ∃ entry, entryOf legacyRecord = .ok entry := by
  have accepted : (entryOf legacyRecord).toOption.isSome = true := by
    decide +kernel
  cases read : entryOf legacyRecord with
  | error raised =>
      rw [read] at accepted
      cases accepted
  | ok entry => exact ⟨entry, rfl⟩

theorem put_shows_legacyRecord :
    ∃ stem after entry kept, put legacyRecord 0 empty = .ok stem after ∧
      (∀ key, ContentId.Spells key entry.bom →
        after.get key = .ok (some (.obj kept))) ∧
      Shown legacyRecord kept entry := by
  obtain ⟨entry, read⟩ := legacyRecord_read
  obtain ⟨after, accepted⟩ := put_empty read 0
  obtain ⟨entry', -, kept, there, shown⟩ :=
    put_shows_iff (by decide +kernel) accepted
  exact ⟨_, after, entry', kept, accepted, there, shown⟩

/-- The id of the input data is shown before a put, and not after. -/
theorem put_hides_input_data :
    ∃ stem after kept out shown, put legacyRecord 0 empty = .ok stem after ∧
      after.get "QmBom" = .ok (some (.obj kept)) ∧
      project_record legacyRecord = .ok out ∧
      out.get? "input_data" = some (.str "QmInput") ∧
      project_record kept = .ok shown ∧ shown.get? "input_data" = none := by
  obtain ⟨entry, read⟩ := legacyRecord_read
  obtain ⟨after, accepted⟩ := put_empty read 0
  obtain ⟨entry', same, there⟩ := get_of_put (by decide +kernel) accepted
  have spells : ContentId.Spells "QmBom" entry'.bom :=
    ContentId.spells_of_parse (entryOf_ok same).1
  have restored : Restored legacyRecord (Json.sortKeysFields (storedRecord
      legacyRecord entry'.bom.text entry'.order.text entry'.data.text)) :=
    restored_storedRecord (by decide +kernel)
  have unlocated := restored.now "locators" (by decide)
  have shows : ∀ fields : Fields, fields.get? "locators" = none →
      project_record fields = .ok (projection (record_bom_id fields)
        (record_order_id fields) (record_data_id fields) fields []) := by
    intro fields missing
    unfold project_record locatorsOf
    rw [missing]
    rfl
  refine ⟨_, after, _, _, _, accepted, there _ spells, shows _ rfl, ?_,
    shows _ unlocated, ?_⟩
  · rw [get?_projection (by decide) (by decide),
      @get?_slots_id "input_data" "input_data_cid" (by decide) _]
    rfl
  · rw [get?_projection (by decide) (by decide),
      @get?_slots_id "input_data" "input_data_cid" (by decide) _]
    unfold shownId
    rw [restored.now "input_data" (by decide),
      restored.dropped "input_data_cid" (by decide)]
    rfl

end Stored

end BomRegistry

end Cats
