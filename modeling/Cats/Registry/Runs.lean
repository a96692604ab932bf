import Cats.Cas.LocatorTable
import Cats.Registry.Store
import Mathlib.Data.List.Dedup

/-!
# Runs of puts

A run is summed up by the puts it accepted, each BOM at its first put, newest
first.  `Indexed` says that the three families of files tell that history: one
record per BOM, and in every index list the BOMs of the history that name the
key, in its order.  A put keeps it when a BOM id always comes with the same
Order and data.
-/

namespace Cats

open Effect

namespace BomRegistry

/-- The three ids a record is indexed by. -/
structure Entry where
  bom : ContentId
  order : ContentId
  data : ContentId
  deriving DecidableEq

/-- The id whose list in the directory names the BOM. -/
def Entry.under (entry : Entry) : IndexDir → ContentId
  | .by_data => entry.data
  | .by_order => entry.order

/-- The ids of a record a put accepts. -/
def entryOf (record : Fields) : Except Raised Entry := do
  let bom ← ContentId.parse ((record_bom_id record).getD "") "content_id"
  let order ← ContentId.parse ((record_order_id record).getD "") "order"
  let data ← ContentId.parse ((record_data_id record).getD "") "data"
  .ok ⟨bom, order, data⟩

/-- A call of `put`; a record is a value JSON can hold. -/
structure PutCall where
  record : Fields
  now : Int
  valid : (Json.obj record).wellFormed = true

/-- The entries of the calls that are accepted, in call order. -/
def accepted (calls : List PutCall) : List Entry :=
  calls.filterMap fun call => (entryOf call.record).toOption

/-- Each entry at its first put, newest first. -/
def firstPuts (calls : List PutCall) : List Entry :=
  (accepted calls).reverse.dedup

/-- The registry the calls leave, those that raise included. -/
def run (calls : List PutCall) : BomRegistry :=
  calls.foldl (fun registry call => final (put call.record call.now registry))
    empty

/-- A BOM id always comes with the same Order and data. -/
def Consistent (calls : List PutCall) : Prop :=
  ∀ entry ∈ accepted calls, ∀ other ∈ accepted calls,
    entry.bom = other.bom → entry = other

/-- The bytes are a record of the entry, in canonical spelling. -/
def Holds (data : Bytes) (entry : Entry) : Prop :=
  ∃ record, readJson data = .ok (.obj record) ∧
    record_bom_id record = some entry.bom.text ∧
    record_order_id record = some entry.order.text ∧
    record_data_id record = some entry.data.text

/-- The file is the entry's. -/
def Filed (file : BomFile) (entry : Entry) : Prop :=
  file.stem = entry.bom.key ∧ Holds file.data entry

/-- The BOMs the directory lists under an id. -/
def listed (history : List Entry) (dir : IndexDir) (id : ContentId) :
    List String :=
  (history.filter fun entry => entry.under dir = id).map (·.bom.text)

/-- The files tell the history. -/
structure Indexed (history : List Entry) (registry : BomRegistry) : Prop where
  distinct : (history.map Entry.bom).Nodup
  files : ∃ entries : List Entry, entries.Perm history ∧
    List.Forall₂ Filed registry.boms entries
  lists : ∀ dir (id : ContentId),
    read_list (registry.lists dir id.key) = .ok (listed history dir id)

section Documents

theorem recordId_of_text {record : Fields} {name legacy : String}
    {id : ContentId} (found : record.get? name = some (.str id.text)) :
    recordId record name legacy = some id.text := by
  simp [recordId, found, Json.truthy, ContentId.text_ne_empty]

/-- A stored record is one of its entry. -/
theorem holds_sortedDocument {stored : Fields} {entry : Entry}
    (valid : (Json.obj stored).wellFormed = true)
    (bom : stored.get? "content_id" = some (.str entry.bom.text))
    (order : stored.get? "order" = some (.str entry.order.text))
    (data : stored.get? "data" = some (.str entry.data.text)) :
    Holds (sortedDocument (.obj stored)) entry := by
  have nodup := (Json.wellFormed_obj_iff.mp valid).1
  have reads : ∀ name (text : String), stored.get? name = some (.str text) →
      Fields.get? (Json.sortKeysFields stored) name = some (.str text) := by
    intro name text found
    rw [Json.get?_sortKeysFields nodup, found]
    rfl
  refine ⟨Json.sortKeysFields stored,
    readJson_sortedDocument (Json.wellFormed_sortKeys _ valid), ?_, ?_, ?_⟩
  · exact recordId_of_text (reads _ _ bom)
  · exact recordId_of_text (reads _ _ order)
  · exact recordId_of_text (reads _ _ data)

theorem wellFormed_storedRecord {record : Fields}
    (valid : (Json.obj record).wellFormed = true)
    (bom_id order_id data_id : String) :
    (Json.obj (storedRecord record bom_id order_id data_id)).wellFormed =
      true := by
  have stripped : ∀ keys : List String, ∀ fields : Fields,
      (Json.obj fields).wellFormed = true →
      (Json.obj (keys.foldl Fields.erase fields)).wellFormed = true := by
    intro keys
    induction keys with
    | nil => intro fields start; exact start
    | cons key keys induction =>
        intro fields start
        exact induction _ (Json.wellFormed_erase start key)
  apply Json.wellFormed_set _ _ rfl
  apply Json.wellFormed_set _ _ rfl
  apply Json.wellFormed_set _ _ rfl
  exact stripped legacyKeys record valid

theorem holds_storedRecord {record : Fields}
    (valid : (Json.obj record).wellFormed = true) (entry : Entry) :
    Holds (sortedDocument (.obj (storedRecord record entry.bom.text
      entry.order.text entry.data.text))) entry := by
  apply holds_sortedDocument (wellFormed_storedRecord valid _ _ _)
  · unfold storedRecord
    rw [Fields.get?_set_of_ne _ (by decide), Fields.get?_set_of_ne _ (by decide),
      Fields.get?_set_self]
  · unfold storedRecord
    rw [Fields.get?_set_of_ne _ (by decide), Fields.get?_set_self]
  · unfold storedRecord
    rw [Fields.get?_set_self]

theorem wellFormed_texts (ids : List String) :
    (Json.arr (ids.map .str)).wellFormed = true := by
  have items : Json.wellFormedItems (ids.map .str) = true := by
    induction ids with
    | nil => rfl
    | cons id ids induction =>
        simpa [Json.wellFormedItems, Json.wellFormed] using induction
  simpa [Json.wellFormed] using items

/-- A written list is read back. -/
theorem read_list_listDocument (ids : List String) :
    read_list (some (listDocument ids)) = .ok ids := by
  have read := Json.loads_decode_dumps .indented (wellFormed_texts ids) ['\n']
    (List.all_eq_true.mp rfl)
  obtain ⟨text, decoded, loaded⟩ := Option.bind_eq_some_iff.mp read
  have texts : (ids.map Json.str).map Json.toStr = ids := by
    rw [List.map_map]
    exact (List.map_congr_left fun id member => rfl).trans (List.map_id ids)
  simp only [read_list, readJson, readText, listDocument, decoded, loaded,
    bind, Except.bind, texts]

end Documents

section Appending

variable {registry : BomRegistry} {dir : IndexDir} {key bom_id : String}
  {existing : List String}

/-- What a list holds once the BOM is appended. -/
def appended (existing : List String) (bom_id : String) : List String :=
  if bom_id ∈ existing then existing else bom_id :: existing

/-- Appending touches one list, and puts a new BOM before the others. -/
theorem append_index_ok
    (readable : read_list (registry.lists dir key) = .ok existing) :
    ∃ after, append_index dir key bom_id registry = .ok () after ∧
      after.boms = registry.boms ∧
      read_list (after.lists dir key) = .ok (appended existing bom_id) ∧
      ∀ other name, ¬ (other = dir ∧ name = key) →
        after.lists other name = registry.lists other name := by
  have start : append_index dir key bom_id registry =
      (if existing.contains bom_id then
        (pure () : Effect Raised BomRegistry Unit)
      else modify fun registry => registry.writeList dir key
        (listDocument (bom_id :: existing))) registry := by
    unfold append_index
    rw [bind_run_ok (get_run registry)]
    rw [readable, lift_ok, bind_run_ok (pure_run existing registry)]
  by_cases member : bom_id ∈ existing
  · refine ⟨registry, ?_, rfl, ?_, fun _ _ _ => rfl⟩
    · rw [start, if_pos (List.contains_iff_mem.mpr member)]
      rfl
    · rw [readable, appended, if_pos member]
  · refine ⟨registry.writeList dir key (listDocument (bom_id :: existing)), ?_,
      rfl, ?_, ?_⟩
    · rw [start, if_neg (by simpa using member)]
      exact modify_run _ _
    · rw [appended, if_neg member]
      simp only [writeList, and_self, if_true]
      exact read_list_listDocument _
    · intro other name apart
      simp only [writeList, if_neg apart]

end Appending

section Files

/-- Writing the record of an entry already filed replaces it. -/
theorem writeBom_known {boms : List BomFile} {entries : List Entry}
    (filed : List.Forall₂ Filed boms entries)
    (distinct : (entries.map Entry.bom).Nodup) {file : BomFile} {entry : Entry}
    (new : Filed file entry) (known : entry ∈ entries) :
    List.Forall₂ Filed (writeBom file boms) entries := by
  induction filed with
  | nil => simp at known
  | @cons other found boms entries head tail induction =>
      rw [List.map_cons, List.nodup_cons] at distinct
      rw [writeBom]
      rcases List.mem_cons.mp known with here | later
      · rw [here] at new
        rw [if_pos (head.1.trans new.1.symm)]
        exact List.Forall₂.cons new tail
      · have apart : other.stem ≠ file.stem := by
          intro same
          have boms := ContentId.key_injective
            ((head.1.symm.trans same).trans new.1)
          exact distinct.1 (boms ▸ List.mem_map_of_mem later)
        rw [if_neg apart]
        exact List.Forall₂.cons head (induction distinct.2 later)

/-- Writing the record of a new BOM adds it to the listing. -/
theorem writeBom_fresh {boms : List BomFile} {entries : List Entry}
    (filed : List.Forall₂ Filed boms entries) {file : BomFile} {entry : Entry}
    (new : Filed file entry) (fresh : entry.bom ∉ entries.map Entry.bom) :
    List.Forall₂ Filed (writeBom file boms) (entries ++ [entry]) := by
  induction filed with
  | nil => exact List.Forall₂.cons new List.Forall₂.nil
  | @cons other found boms entries head tail induction =>
      simp only [List.map_cons, List.mem_cons, not_or] at fresh
      have apart : other.stem ≠ file.stem := by
        intro same
        exact fresh.1 (ContentId.key_injective
          ((head.1.symm.trans same).trans new.1)).symm
      rw [writeBom, if_neg apart]
      exact List.Forall₂.cons head (induction fresh.2)

/-- The file of a BOM is there exactly when the BOM is. -/
theorem file?_of_filed {boms : List BomFile} {entries : List Entry}
    (filed : List.Forall₂ Filed boms entries) (id : ContentId) :
    (file? boms id.key = none ∧ id ∉ entries.map Entry.bom) ∨
      ∃ data, file? boms id.key = some data ∧
        ∃ entry ∈ entries, entry.bom = id ∧ Holds data entry := by
  induction filed with
  | nil => exact .inl ⟨rfl, by simp⟩
  | @cons other found boms entries head tail induction =>
      by_cases same : other.stem = id.key
      · have here : found.bom = id :=
          ContentId.key_injective (head.1.symm.trans same)
        refine .inr ⟨other.data, ?_, found, List.mem_cons_self, here, head.2⟩
        simp [file?, same]
      · have apart : found.bom ≠ id := fun equality =>
          same (head.1.trans (congrArg ContentId.key equality))
        have skips : file? (other :: boms) id.key = file? boms id.key := by
          simp [file?, same]
        rw [skips]
        rcases induction with ⟨missing, absent⟩ | ⟨data, there, entry, member,
          rest⟩
        · refine .inl ⟨missing, ?_⟩
          simp only [List.map_cons, List.mem_cons, not_or]
          exact ⟨Ne.symm apart, absent⟩
        · exact .inr ⟨data, there, entry, List.mem_cons_of_mem _ member, rest⟩

end Files

section Putting

variable {registry : BomRegistry} {history : List Entry}

/-- A record with an id no file can be kept under leaves the files alone. -/
theorem put_refused {record : Fields} {raised : Raised}
    (refused : entryOf record = .error raised) (now : Int) :
    put record now registry = .error raised registry := by
  unfold entryOf at refused
  unfold put
  simp only [normalize_content_id_eq]
  cases bom : ContentId.parse ((record_bom_id record).getD "") "content_id" with
  | error bomRaised =>
      rw [bom] at refused
      obtain rfl := Except.error.inj refused
      rfl
  | ok bomId =>
      rw [bom] at refused
      apply (bind_run_ok rfl).trans
      cases order : ContentId.parse ((record_order_id record).getD "")
        "order" with
      | error orderRaised =>
          rw [order] at refused
          obtain rfl := Except.error.inj refused
          rfl
      | ok orderId =>
          rw [order] at refused
          apply (bind_run_ok rfl).trans
          cases data : ContentId.parse ((record_data_id record).getD "")
            "data" with
          | error dataRaised =>
              rw [data] at refused
              obtain rfl := Except.error.inj refused
              rfl
          | ok dataId =>
              rw [data] at refused
              exact nomatch refused

theorem entryOf_ok {record : Fields} {entry : Entry}
    (read : entryOf record = .ok entry) :
    ContentId.parse ((record_bom_id record).getD "") "content_id" =
        .ok entry.bom ∧
      ContentId.parse ((record_order_id record).getD "") "order" =
        .ok entry.order ∧
      ContentId.parse ((record_data_id record).getD "") "data" =
        .ok entry.data := by
  obtain ⟨bom, readBom, rest⟩ := Raised.bind_returns read
  obtain ⟨order, readOrder, rest⟩ := Raised.bind_returns rest
  obtain ⟨data, readData, rest⟩ := Raised.bind_returns rest
  obtain rfl := Except.ok.inj rest
  exact ⟨readBom, readOrder, readData⟩

/-- The file a put writes for an entry. -/
def recordFile (record : Fields) (now : Int) (entry : Entry) : BomFile :=
  { stem := entry.bom.key
    mtime := now
    data := sortedDocument (.obj (storedRecord record entry.bom.text
      entry.order.text entry.data.text)) }

theorem filed_recordFile {record : Fields}
    (valid : (Json.obj record).wellFormed = true) (now : Int) (entry : Entry) :
    Filed (recordFile record now entry) entry := by
  constructor
  · rfl
  · dsimp only [recordFile]
    exact holds_storedRecord valid entry

/-- The record is written, the lists are not. -/
def filed (registry : BomRegistry) (record : Fields) (now : Int)
    (entry : Entry) : BomRegistry :=
  { registry with
    boms := writeBom (recordFile record now entry) registry.boms }

/-- A put writes the record, then the two lists. -/
theorem put_entry {record : Fields} {entry : Entry}
    (read : entryOf record = .ok entry) (now : Int) :
    put record now registry =
      (append_index .by_data entry.data.key entry.bom.text >>= fun _ =>
        append_index .by_order entry.order.key entry.bom.text >>= fun _ =>
          pure entry.bom.key) (filed registry record now entry) := by
  obtain ⟨bom, order, data⟩ := entryOf_ok read
  have keyed : ∀ (id : ContentId) label,
      content_id_fs_key id.text label = .ok id.key := fun id label =>
    (ContentId.spells_text id).key label
  unfold put
  simp only [normalize_content_id_eq, bom, order, data, Except.map, keyed,
    lift_ok, pure_bind]
  exact bind_run_ok (modify_run _ _)

/-- The history once an entry is put. -/
def recorded (history : List Entry) (entry : Entry) : List Entry :=
  if entry ∈ history then history else entry :: history

theorem mem_listed {dir : IndexDir} {id bom : ContentId} :
    bom.text ∈ listed history dir id ↔
      ∃ entry ∈ history, entry.under dir = id ∧ entry.bom = bom := by
  simp only [listed, List.mem_map, List.mem_filter, decide_eq_true_eq]
  constructor
  · rintro ⟨entry, ⟨member, under⟩, text⟩
    exact ⟨entry, member, under, ContentId.text_injective text⟩
  · rintro ⟨entry, member, under, rfl⟩
    exact ⟨entry, ⟨member, under⟩, rfl⟩

/-- Appending to the list of an entry's key gives the list of the new history.
-/
theorem appended_listed {entry : Entry}
    (consistent : ∀ other ∈ history, entry.bom = other.bom → entry = other)
    (dir : IndexDir) :
    appended (listed history dir (entry.under dir)) entry.bom.text =
      listed (recorded history entry) dir (entry.under dir) := by
  by_cases known : entry ∈ history
  · rw [appended, if_pos (mem_listed.mpr ⟨entry, known, rfl, rfl⟩), recorded,
      if_pos known]
  · have absent : entry.bom.text ∉ listed history dir (entry.under dir) := by
      intro member
      obtain ⟨other, there, _, same⟩ := mem_listed.mp member
      exact known (consistent other there same.symm ▸ there)
    rw [appended, if_neg absent, recorded, if_neg known]
    simp [listed]

theorem listed_recorded_of_ne {entry : Entry} {dir : IndexDir} {id : ContentId}
    (apart : entry.under dir ≠ id) :
    listed (recorded history entry) dir id = listed history dir id := by
  unfold recorded
  split_ifs with known
  · rfl
  · simp [listed, apart]

/-- A put of an entry records it. -/
theorem put_indexed {record : Fields} {entry : Entry}
    (read : entryOf record = .ok entry)
    (valid : (Json.obj record).wellFormed = true) (now : Int)
    (indexed : Indexed history registry)
    (consistent : ∀ other ∈ history, entry.bom = other.bom → entry = other) :
    ∃ after, put record now registry = .ok entry.bom.key after ∧
      Indexed (recorded history entry) after := by
  obtain ⟨distinct, ⟨entries, permuted, placed⟩, lists⟩ := indexed
  have new := filed_recordFile valid now entry
  have dataReadable : read_list ((filed registry record now entry).lists
      .by_data entry.data.key) = .ok (listed history .by_data entry.data) :=
    lists .by_data entry.data
  obtain ⟨middle, dataPut, dataBoms, dataList, dataFrame⟩ :=
    append_index_ok dataReadable
  have orderReadable : read_list (middle.lists .by_order entry.order.key) =
      .ok (listed history .by_order entry.order) := by
    rw [dataFrame _ _ (by simp)]
    exact lists .by_order entry.order
  obtain ⟨after, orderPut, orderBoms, orderList, orderFrame⟩ :=
    append_index_ok orderReadable
  refine ⟨after, ?_, ?_⟩
  · rw [put_entry read, bind_run_ok dataPut, bind_run_ok orderPut]
    rfl
  constructor
  · unfold recorded
    split_ifs with known
    · exact distinct
    · rw [List.map_cons, List.nodup_cons]
      refine ⟨?_, distinct⟩
      intro member
      obtain ⟨other, there, same⟩ := List.mem_map.mp member
      exact known (consistent other there same.symm ▸ there)
  · rw [orderBoms, dataBoms]
    unfold recorded
    split_ifs with known
    · exact ⟨entries, permuted, writeBom_known placed
        ((permuted.map Entry.bom).nodup_iff.mpr distinct) new
        (permuted.mem_iff.mpr known)⟩
    · refine ⟨entries ++ [entry], ?_, writeBom_fresh placed new ?_⟩
      · exact (List.perm_append_singleton entry entries).trans
          (permuted.cons entry)
      · intro member
        obtain ⟨other, there, same⟩ :=
          List.mem_map.mp ((permuted.map Entry.bom).mem_iff.mp member)
        exact known (consistent other there same.symm ▸ there)
  · intro dir id
    have appendedHere := appended_listed consistent dir
    cases dir with
    | by_data =>
        rw [orderFrame _ _ (by simp)]
        by_cases here : entry.data = id
        · subst here
          rw [dataList]
          exact congrArg Except.ok appendedHere
        · rw [dataFrame _ _ (by
              rintro ⟨_, same⟩
              exact here (ContentId.key_injective same).symm),
            listed_recorded_of_ne (show entry.under .by_data ≠ id from here)]
          exact lists .by_data id
    | by_order =>
        by_cases here : entry.order = id
        · subst here
          rw [orderList]
          exact congrArg Except.ok appendedHere
        · rw [orderFrame _ _ (by
              rintro ⟨_, same⟩
              exact here (ContentId.key_injective same).symm),
            dataFrame _ _ (by simp),
            listed_recorded_of_ne (show entry.under .by_order ≠ id from here)]
          exact lists .by_order id

end Putting

section Running

theorem accepted_snoc (calls : List PutCall) (call : PutCall) :
    accepted (calls ++ [call]) =
      accepted calls ++ (entryOf call.record).toOption.toList := by
  rw [accepted, List.filterMap_append]
  cases read : (entryOf call.record).toOption with
  | none => simp [accepted, read]
  | some entry => simp [accepted, read]

/-- Whatever the puts, the files tell their history. -/
theorem run_indexed (calls : List PutCall) (consistent : Consistent calls) :
    Indexed (firstPuts calls) (run calls) := by
  induction calls using List.reverseRecOn with
  | nil =>
      refine ⟨List.nodup_nil, ⟨[], List.Perm.refl _, List.Forall₂.nil⟩, ?_⟩
      intro dir id
      rfl
  | append_singleton calls call induction =>
      have step : run (calls ++ [call]) =
          final (put call.record call.now (run calls)) := by
        simp [run]
      cases read : entryOf call.record with
      | error raised =>
          have same : firstPuts (calls ++ [call]) = firstPuts calls := by
            simp [firstPuts, accepted_snoc, read, Except.toOption]
          rw [step, put_refused read, same]
          apply induction
          intro entry member other there
          apply consistent
          · rw [accepted_snoc]
            exact List.mem_append_left _ member
          · rw [accepted_snoc]
            exact List.mem_append_left _ there
      | ok entry =>
          have entries : accepted (calls ++ [call]) =
              accepted calls ++ [entry] := by
            rw [accepted_snoc, read]
            rfl
          have earlier : Consistent calls := by
            intro entry member other there
            apply consistent
            · rw [entries]
              exact List.mem_append_left _ member
            · rw [entries]
              exact List.mem_append_left _ there
          have grown : firstPuts (calls ++ [call]) =
              recorded (firstPuts calls) entry := by
            simp only [firstPuts, entries, List.reverse_append,
              List.reverse_singleton, List.singleton_append, recorded,
              List.mem_dedup]
            split_ifs with known
            · exact List.dedup_cons_of_mem known
            · exact List.dedup_cons_of_notMem known
          obtain ⟨after, ran, indexed⟩ := put_indexed read call.valid call.now
            (induction earlier) (by
              intro other member same
              apply consistent entry _ other _ same
              · rw [entries]
                simp
              · rw [entries]
                exact List.mem_append_left _ (List.mem_reverse.mp
                  (List.mem_dedup.mp member)))
          rw [step, ran, grown]
          exact indexed

end Running

end BomRegistry

end Cats
