import Cats.Registry.Runs

/-!
# The registry answers for its puts

After any run that keeps a BOM id with one Order and one data id, the lists,
the records and the listing agree with each other and with the run, in every
spelling of the ids asked for.
-/

namespace Cats

open ContentId (Spells)

namespace BomRegistry

/-- The record kept under the BOM id has this data id. -/
def CarriesData (registry : BomRegistry) (content_id : String)
    (data : ContentId) : Prop :=
  ∃ record found, registry.get content_id = .ok (some (.obj record)) ∧
    record_data_id record = some found ∧ Spells found data

/-- The record kept under the BOM id has this Order id. -/
def CarriesOrder (registry : BomRegistry) (content_id : String)
    (order : ContentId) : Prop :=
  ∃ found, registry.lookup_order content_id = .ok (some found) ∧
    Spells found order

/-- A list of BOM ids: each once, in canonical spelling, the newest first put
first, and holding those that `carries` tells. -/
structure ListsNewestFirst (bom_ids : List String) (history : List Entry)
    (carries : String → Prop) : Prop where
  each_once : bom_ids.Nodup
  canonical : ∀ bom_id ∈ bom_ids, ∃ bom : ContentId, bom_id = bom.text
  newest_first : bom_ids.Sublist (history.map (·.bom.text))
  exact : ∀ {spelling : String} {bom : ContentId}, Spells spelling bom →
    (bom.text ∈ bom_ids ↔ carries spelling)

/-- What the lookups answer, whatever spelling they are asked with. -/
structure Exact (calls : List PutCall) (registry : BomRegistry) : Prop where
  lookup_bom : ∀ {key : String} {data : ContentId}, Spells key data →
    ∃ bom_ids, registry.lookup_bom key = .ok bom_ids ∧
      ListsNewestFirst bom_ids (firstPuts calls)
        fun bom_id => registry.CarriesData bom_id data
  lookup_by_order : ∀ {key : String} {order : ContentId}, Spells key order →
    ∃ bom_ids, registry.lookup_by_order key = .ok bom_ids ∧
      ListsNewestFirst bom_ids (firstPuts calls)
        fun bom_id => registry.CarriesOrder bom_id order
  list_boms : ∃ bom_ids, registry.list_boms = .ok bom_ids ∧
    bom_ids.Perm ((firstPuts calls).map (·.bom.text))
  spelling : ∀ {key other : String} {id : ContentId}, Spells key id →
    Spells other id →
      registry.get key = registry.get other ∧
      registry.lookup_order key = registry.lookup_order other ∧
      registry.lookup_bom key = registry.lookup_bom other ∧
      registry.lookup_by_order key = registry.lookup_by_order other
  resolve_unique_bom : ∀ {key : String} {data : ContentId}, Spells key data →
    (∀ bom_id, registry.resolve_unique_bom key = .ok bom_id ↔
      ∃ bom : ContentId, bom_id = bom.text ∧
        registry.CarriesData bom.text data ∧
        ∀ other : ContentId, registry.CarriesData other.text data →
          other = bom) ∧
    ((∃ bom_ids, registry.resolve_unique_bom key =
        .error (.ambiguous key bom_ids)) ↔
      ∃ bom other : ContentId, bom ≠ other ∧
        registry.CarriesData bom.text data ∧
        registry.CarriesData other.text data) ∧
    ((∃ text, registry.resolve_unique_bom key = .error (.missing text)) ↔
      ∀ bom : ContentId, ¬ registry.CarriesData bom.text data)

section Answers

variable {history : List Entry} {registry : BomRegistry}

/-- The record under a BOM id is there exactly when the BOM was put. -/
theorem Indexed.get (indexed : Indexed history registry) {key : String}
    {bom : ContentId} (spells : Spells key bom) :
    (registry.get key = .ok none ∧ bom ∉ history.map Entry.bom) ∨
      ∃ record, registry.get key = .ok (some (.obj record)) ∧
        ∃ entry ∈ history, entry.bom = bom ∧
          record_bom_id record = some entry.bom.text ∧
          record_order_id record = some entry.order.text ∧
          record_data_id record = some entry.data.text := by
  obtain ⟨entries, permuted, filed⟩ := indexed.files
  have keyed := spells.key "content_id"
  rcases file?_of_filed filed bom with
    ⟨missing, absent⟩ | ⟨data, there, entry, member, same, holds⟩
  · refine .inl ⟨?_, ?_⟩
    · simp only [BomRegistry.get, keyed, bind, Except.bind, missing]
    · exact fun put => absent ((permuted.map Entry.bom).mem_iff.mpr put)
  · obtain ⟨record, readable, ids⟩ := holds
    refine .inr ⟨record, ?_, entry, permuted.mem_iff.mp member, same, ids⟩
    simp only [BomRegistry.get, keyed, bind, Except.bind, there, readable,
      Except.map]

theorem Indexed.entry_unique (indexed : Indexed history registry)
    {entry other : Entry} (member : entry ∈ history) (there : other ∈ history)
    (same : entry.bom = other.bom) : entry = other :=
  List.inj_on_of_nodup_map indexed.distinct member there same

theorem Indexed.carriesData_iff (indexed : Indexed history registry)
    {spelling : String} {bom data : ContentId} (spells : Spells spelling bom) :
    registry.CarriesData spelling data ↔
      ∃ entry ∈ history, entry.under .by_data = data ∧ entry.bom = bom := by
  rcases indexed.get spells with
    ⟨missing, absent⟩ | ⟨record, found, entry, member, same, _, _, read⟩
  · constructor
    · rintro ⟨record, _, got, _⟩
      rw [missing] at got
      exact nomatch got
    · rintro ⟨entry, member, _, same⟩
      exact absurd (List.mem_map.mpr ⟨entry, member, same⟩) absent
  · constructor
    · rintro ⟨other, text, got, kept, spelled⟩
      rw [found] at got
      obtain rfl := Json.obj.inj (Option.some.inj (Except.ok.inj got))
      rw [read] at kept
      obtain rfl := Option.some.inj kept
      exact ⟨entry, member, (ContentId.spells_text _).unique spelled, same⟩
    · rintro ⟨other, there, rfl, also⟩
      obtain rfl := indexed.entry_unique member there (same.trans also.symm)
      exact ⟨record, _, found, read, ContentId.spells_text _⟩

theorem Indexed.carriesOrder_iff (indexed : Indexed history registry)
    {spelling : String} {bom order : ContentId} (spells : Spells spelling bom) :
    registry.CarriesOrder spelling order ↔
      ∃ entry ∈ history, entry.under .by_order = order ∧ entry.bom = bom := by
  rcases indexed.get spells with
    ⟨missing, absent⟩ | ⟨record, found, entry, member, same, _, read, _⟩
  · have none : registry.lookup_order spelling = .ok none := by
      simp only [lookup_order, missing, bind, Except.bind]
    constructor
    · rintro ⟨text, got, _⟩
      rw [none] at got
      exact nomatch got
    · rintro ⟨entry, member, _, same⟩
      exact absurd (List.mem_map.mpr ⟨entry, member, same⟩) absent
  · have kept : registry.lookup_order spelling =
        .ok (some entry.order.text) := by
      simp only [lookup_order, found, bind, Except.bind, Json.mapping,
        Except.map, read]
    constructor
    · rintro ⟨text, got, spelled⟩
      rw [kept] at got
      obtain rfl := Option.some.inj (Except.ok.inj got)
      exact ⟨entry, member, (ContentId.spells_text _).unique spelled, same⟩
    · rintro ⟨other, there, rfl, also⟩
      obtain rfl := indexed.entry_unique member there (same.trans also.symm)
      exact ⟨_, kept, ContentId.spells_text _⟩

theorem Indexed.nodup_texts (indexed : Indexed history registry) :
    (history.map (·.bom.text)).Nodup := by
  have texts := List.Nodup.map
    (fun _ _ same => ContentId.text_injective same) indexed.distinct
  rwa [List.map_map] at texts

theorem listed_sublist (dir : IndexDir) (id : ContentId) :
    (listed history dir id).Sublist (history.map (·.bom.text)) :=
  List.filter_sublist.map _

theorem Indexed.listsNewestFirst (indexed : Indexed history registry)
    {dir : IndexDir} {id : ContentId} {carries : String → Prop}
    (told : ∀ {spelling : String} {bom : ContentId}, Spells spelling bom →
      (carries spelling ↔
        ∃ entry ∈ history, entry.under dir = id ∧ entry.bom = bom)) :
    ListsNewestFirst (listed history dir id) history carries where
  each_once := (listed_sublist dir id).nodup indexed.nodup_texts
  canonical := by
    intro bom_id member
    obtain ⟨entry, _, text⟩ := List.mem_map.mp member
    exact ⟨entry.bom, text.symm⟩
  newest_first := listed_sublist dir id
  exact := fun spells => mem_listed.trans (told spells).symm

theorem Indexed.lookup_bom (indexed : Indexed history registry) {key : String}
    {data : ContentId} (spells : Spells key data) :
    registry.lookup_bom key = .ok (listed history .by_data data) := by
  simp only [BomRegistry.lookup_bom, spells.key "data", bind, Except.bind]
  exact indexed.lists .by_data data

theorem Indexed.lookup_by_order (indexed : Indexed history registry)
    {key : String} {order : ContentId} (spells : Spells key order) :
    registry.lookup_by_order key = .ok (listed history .by_order order) := by
  simp only [BomRegistry.lookup_by_order, spells.key "order", bind,
    Except.bind]
  exact indexed.lists .by_order order

theorem Indexed.list_boms (indexed : Indexed history registry) :
    ∃ bom_ids, registry.list_boms = .ok bom_ids ∧
      bom_ids.Perm (history.map (·.bom.text)) := by
  obtain ⟨entries, permuted, filed⟩ := indexed.files
  -- sorting by time permutes the listing, so the entries are permuted alike
  have sorted := List.mergeSort_perm registry.boms fun left right =>
    decide (right.mtime ≤ left.mtime)
  obtain ⟨ordered, refiled, reordered⟩ :=
    List.perm_comp_forall₂ sorted filed
  have read : ∀ {boms : List BomFile} {found : List Entry},
      List.Forall₂ Filed boms found →
      boms.mapM listedId = Except.ok (found.map (·.bom.text)) := by
    intro boms found both
    induction both with
    | nil => rfl
    | @cons file entry boms found head tail induction =>
        obtain ⟨record, readable, bom, _, _⟩ := head.2
        have first : listedId file = .ok entry.bom.text := by
          simp only [listedId, readable, bind, Except.bind, Json.mapping, bom,
            Option.getD_some]
        simp only [List.mapM_cons, first, induction, bind, Except.bind]
        rfl
  exact ⟨_, read refiled, (reordered.trans permuted).map _⟩

end Answers

section Unique

variable {registry : BomRegistry} {key : String} {data : ContentId}
  {bom_ids : List String} {history : List Entry}

/-- A resolution reads off how many BOMs the list holds. -/
theorem resolve_unique_bom_of_list
    (looked : registry.lookup_bom key = .ok bom_ids)
    (lists : ListsNewestFirst bom_ids history
      fun bom_id => registry.CarriesData bom_id data) :
    (∀ bom_id, registry.resolve_unique_bom key = .ok bom_id ↔
      ∃ bom : ContentId, bom_id = bom.text ∧
        registry.CarriesData bom.text data ∧
        ∀ other : ContentId, registry.CarriesData other.text data →
          other = bom) ∧
    ((∃ bom_ids, registry.resolve_unique_bom key =
        .error (.ambiguous key bom_ids)) ↔
      ∃ bom other : ContentId, bom ≠ other ∧
        registry.CarriesData bom.text data ∧
        registry.CarriesData other.text data) ∧
    ((∃ text, registry.resolve_unique_bom key = .error (.missing text)) ↔
      ∀ bom : ContentId, ¬ registry.CarriesData bom.text data) := by
  have exact : ∀ bom : ContentId,
      bom.text ∈ bom_ids ↔ registry.CarriesData bom.text data :=
    fun bom => lists.exact (ContentId.spells_text bom)
  simp only [← exact, resolve_unique_bom, looked]
  match bom_ids, lists.each_once, lists.canonical with
  | [], _, _ => simp
  | [bom_id], _, canonical =>
      obtain ⟨bom, rfl⟩ := canonical bom_id (by simp)
      refine ⟨?_, ?_, ?_⟩
      · intro found
        constructor
        · intro same
          obtain rfl := Except.ok.inj same
          refine ⟨bom, rfl, by simp, ?_⟩
          intro other member
          exact ContentId.text_injective (List.mem_singleton.mp member)
        · rintro ⟨only, rfl, member, _⟩
          rw [List.mem_singleton.mp member]
      · constructor
        · rintro ⟨_, impossible⟩
          exact nomatch impossible
        · rintro ⟨left, right, apart, leftMember, rightMember⟩
          exact absurd (ContentId.text_injective
            ((List.mem_singleton.mp leftMember).trans
              (List.mem_singleton.mp rightMember).symm)) apart
      · constructor
        · rintro ⟨_, impossible⟩
          exact nomatch impossible
        · intro none
          exact absurd (List.mem_singleton_self _) (none bom)
  | first :: second :: rest, each_once, canonical =>
      obtain ⟨bom, rfl⟩ := canonical first (by simp)
      obtain ⟨other, rfl⟩ := canonical second (by simp)
      have apart : bom ≠ other := by
        rintro rfl
        simp at each_once
      refine ⟨?_, ?_, ?_⟩
      · intro found
        constructor
        · intro impossible
          exact nomatch impossible
        · rintro ⟨only, rfl, _, unique⟩
          exact absurd ((unique bom (by simp)).trans
            (unique other (by simp)).symm) apart
      · constructor
        · intro _
          exact ⟨bom, other, apart, by simp, by simp⟩
        · intro _
          exact ⟨_, rfl⟩
      · constructor
        · rintro ⟨_, impossible⟩
          exact nomatch impossible
        · intro none
          exact absurd List.mem_cons_self (none bom)

end Unique

/-- After any puts that keep each BOM id with one Order and one data id, the
registry's indexes are exact. -/
theorem registry_exact (calls : List PutCall) (consistent : Consistent calls) :
    Exact calls (run calls) := by
  have indexed := run_indexed calls consistent
  have dataLists : ∀ data : ContentId,
      ListsNewestFirst (listed (firstPuts calls) .by_data data)
        (firstPuts calls) fun bom_id => (run calls).CarriesData bom_id data :=
    fun data => indexed.listsNewestFirst indexed.carriesData_iff
  constructor
  · intro key data spells
    exact ⟨_, indexed.lookup_bom spells, dataLists data⟩
  · intro key order spells
    exact ⟨_, indexed.lookup_by_order spells,
      indexed.listsNewestFirst indexed.carriesOrder_iff⟩
  · exact indexed.list_boms
  · intro key other id spells also
    refine ⟨?_, ?_, ?_, ?_⟩
    · simp only [get, spells.key, also.key]
    · simp only [lookup_order, get, spells.key, also.key]
    · simp only [lookup_bom, spells.key, also.key]
    · simp only [lookup_by_order, spells.key, also.key]
  · intro key data spells
    exact resolve_unique_bom_of_list (indexed.lookup_bom spells)
      (dataLists data)

/-- One BOM put twice, the second time with legacy keys, and another BOM on the
same data. -/
def spelledCalls : List PutCall :=
  [{ record := [("content_id", .str "QmBom"), ("order", .str "QmOrder"),
        ("data", .str "QmData")]
     now := 1
     valid := by decide +kernel },
   { record := [("bom_cid", .str "QmBom"), ("order_cid", .str "QmOrder"),
        ("data_cid", .str " QmData ")]
     now := 2
     valid := by decide +kernel },
   { record := [("content_id", .str "QmOther"), ("order", .str "QmOrder"),
        ("data", .str "QmData")]
     now := 3
     valid := by decide +kernel }]

instance (calls : List PutCall) : Decidable (Consistent calls) :=
  inferInstanceAs (Decidable (∀ entry ∈ accepted calls,
    ∀ other ∈ accepted calls, entry.bom = other.bom → entry = other))

theorem registry_exact_spellings :
    (firstPuts spelledCalls).length = 2 ∧
      Exact spelledCalls (run spelledCalls) :=
  ⟨by decide +kernel, registry_exact spelledCalls (by decide +kernel)⟩

end BomRegistry

end Cats
