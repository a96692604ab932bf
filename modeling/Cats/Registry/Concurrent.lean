import Cats.Cas.LocatorRuns
import Cats.Registry.Runs
import Cats.Updates

/-!
# Puts that interleave

A Node handles requests in threads, and nothing is locked: a BOM put writes its
record and then updates two lists, a locator put updates one document, and each
read and each write of a file may come between those of another request.  All
that was put is looked up in the end when no update of a list or document was
disturbed by one that adds another entry.
-/

namespace Cats

open Effect

/-- The two stores under `.cats/registry`. -/
structure NodeFiles where
  registry : BomRegistry
  index : LocatorIndex

namespace NodeFiles

def empty : NodeFiles :=
  { registry := .empty
    index := .empty }

/-- A file requests update. -/
inductive IndexFile where
  | list (dir : IndexDir) (key : String)
  | locators (key : String)
  deriving DecidableEq

def read : IndexFile → NodeFiles → Option Bytes
  | .list dir key, files => files.registry.lists dir key
  | .locators key, files => files.index.file? key

def write (file : IndexFile) (data : Bytes) (files : NodeFiles) : NodeFiles :=
  match file with
  | .list dir key =>
      { files with registry := files.registry.writeList dir key data }
  | .locators key =>
      { files with
        index := { files := LocatorIndex.write files.index.files key data } }

/-- The files of a Node, as a view of its stores. -/
def view : FileView NodeFiles IndexFile Bytes where
  read := read
  write := write
  read_write_self := by
    intro file data files
    cases file with
    | list dir key => simp [read, write, BomRegistry.writeList]
    | locators key => exact LocatorIndex.file?_write_self files.index.files key data
  read_write_of_ne := by
    intro file other apart data files
    cases file with
    | list dir key =>
        cases other with
        | list place name =>
            have differs : ¬ (place = dir ∧ name = key) := by
              intro same
              exact apart (by rw [same.1, same.2])
            exact if_neg differs
        | locators name => rfl
    | locators key =>
        cases other with
        | list place name => rfl
        | locators name =>
            have differs : name ≠ key := fun same => apart (by rw [same])
            exact LocatorIndex.file?_write_of_ne differs files.index.files data

/-- `_append_index(path, bom_id)`: the list is read, and written if the BOM is
not in it. -/
def appendUpdate (dir : IndexDir) (key bom_id : String) :
    Update IndexFile String Bytes Raised :=
  { file := .list dir key
    entry := bom_id
    compute := fun content => do
      let existing ← BomRegistry.read_list content
      if existing.contains bom_id then .ok none
      else .ok (some (BomRegistry.listDocument (bom_id :: existing))) }

/-- The document of a locator put: it is read, or made when there is no file,
and written back with the URI. -/
def locatorUpdate (canonical key uri : String) (media_type : Option String) :
    Update IndexFile String Bytes Raised :=
  { file := .locators key
    entry := uri
    compute := fun content => do
      let document ←
        match content with
        | some data => readJson data
        | none =>
            Except.ok (Json.obj
              [("content_id", .str canonical), ("locators", .arr [])])
      let updated ← LocatorIndex.registered document canonical uri media_type
      .ok (some (sortedDocument updated)) }

/-- A request that puts. -/
inductive Request where
  | bom (record : Fields) (now : Int)
  | locator (content_id uri : String) (media_type : Option String)

abbrev Deed : Type := Action NodeFiles IndexFile String Bytes Raised

/-- What the request does to the files, step by step; one that raises on its ids
does nothing. -/
def deeds : Request → List Deed
  | .bom record now =>
      match BomRegistry.entryOf record with
      | .error _ => []
      | .ok entry =>
          [.change fun files => { files with
              registry := BomRegistry.filed files.registry record now entry },
            .update (appendUpdate .by_data entry.data.key entry.bom.text),
            .update (appendUpdate .by_order entry.order.key entry.bom.text)]
  | .locator content_id uri media_type =>
      match LocatorIndex.canonical_id content_id with
      | .error _ => []
      | .ok canonical =>
          match content_id_fs_key canonical with
          | .error _ => []
          | .ok key =>
              [.update (locatorUpdate canonical key uri media_type)]

abbrev Requests : Type :=
  Pool (Worker NodeFiles IndexFile String Bytes Raised) NodeFiles
    (Access IndexFile String)

/-- The requests, their steps taken in the order of the schedule. -/
def served (requests : List Request) (schedule : List Nat) : Requests :=
  (Pool.start ((requests.map deeds).map Worker.start) empty).run
    (Worker.step view) schedule

/-- All that was put is looked up. -/
structure AllListed (requests : List Request) (files : NodeFiles) : Prop where
  data : ∀ record now entry, Request.bom record now ∈ requests →
    BomRegistry.entryOf record = .ok entry →
    ∀ data_id, ContentId.Spells data_id entry.data →
      ∃ ids, files.registry.lookup_bom data_id = .ok ids ∧
        entry.bom.text ∈ ids
  order : ∀ record now entry, Request.bom record now ∈ requests →
    BomRegistry.entryOf record = .ok entry →
    ∀ order_id, ContentId.Spells order_id entry.order →
      ∃ ids, files.registry.lookup_by_order order_id = .ok ids ∧
        entry.bom.text ∈ ids
  uris : ∀ content_id uri media_type canonical key,
    Request.locator content_id uri media_type ∈ requests →
    LocatorIndex.canonical_id content_id = .ok canonical →
    content_id_fs_key canonical = .ok key →
      ∃ uris, files.index.lookup_uris content_id = .ok uris ∧ uri ∈ uris

section Shown

/-- What a file lists. -/
def shows : IndexFile → Option Bytes → Set String → Prop
  | .list _ _, content, entries =>
      ∃ ids, BomRegistry.read_list content = .ok ids ∧
        entries = {id | id ∈ ids}
  | .locators key, content, entries =>
      content = none ∧ entries = ∅ ∨
        ∃ row : LocatorRow, row.key = key ∧ content = some row.bytes ∧
          entries = {uri | uri ∈ row.locators.map Locator.uri}

theorem shows_empty (file : IndexFile) : shows file (view.read file empty) ∅ := by
  cases file with
  | list dir key => exact ⟨[], rfl, by simp⟩
  | locators key => exact .inl ⟨rfl, rfl⟩

theorem appendUpdate_adds (dir : IndexDir) (key bom_id : String) :
    (appendUpdate dir key bom_id).Adds shows := by
  intro content entries shown
  obtain ⟨ids, read, same⟩ := shown
  have computed : (appendUpdate dir key bom_id).compute content =
      if ids.contains bom_id then .ok none
      else .ok (some (BomRegistry.listDocument (bom_id :: ids))) := by
    simp only [appendUpdate, read, bind, Except.bind]
  by_cases known : bom_id ∈ ids
  · left
    constructor
    · rw [computed, if_pos (List.contains_iff_mem.mpr known)]
    · rw [same]
      exact known
  · right
    refine ⟨BomRegistry.listDocument (bom_id :: ids), ?_, bom_id :: ids,
      BomRegistry.read_list_listDocument _, ?_⟩
    · rw [computed, if_neg (by simpa using known)]
    · rw [same]
      ext id
      exact List.mem_cons.symm

/-- The document of a row, with the URI registered. -/
theorem locatorUpdate_row (row : LocatorRow) (uri : String)
    (media_type : Option String) :
    ∃ document, LocatorIndex.registered
        (rowDocument row.content_id row.locators) row.content_id uri
        media_type = .ok document ∧
      sortedDocument document = (row.add uri media_type).bytes := by
  have written := row.registered_rowDocument uri media_type
  cases updated : LocatorIndex.registered
      (rowDocument row.content_id row.locators) row.content_id uri
      media_type with
  | error raised =>
      rw [updated] at written
      cases written
  | ok document =>
      rw [updated] at written
      exact ⟨document, rfl, Except.ok.inj written⟩

theorem locatorUpdate_adds {canonical key : String} (uri : String)
    (media_type : Option String)
    (same : LocatorIndex.canonical_id canonical = .ok canonical)
    (keyed : content_id_fs_key canonical = .ok key) :
    (locatorUpdate canonical key uri media_type).Adds shows := by
  intro content entries shown
  right
  rcases shown with ⟨missing, nothing⟩ | ⟨row, rowKey, there, listed⟩
  · obtain ⟨document, registered, bytes⟩ := locatorUpdate_row
      (LocatorTable.blank canonical key same keyed) uri media_type
    refine ⟨_, ?_, .inr ⟨(LocatorTable.blank canonical key same keyed).add uri
      media_type, ?_, rfl, ?_⟩⟩
    · rw [missing, ← bytes]
      simp only [locatorUpdate, bind, Except.bind]
      exact congrArg (fun made : Except Raised Json =>
        Except.bind made fun updated =>
          Except.ok (some (sortedDocument updated))) registered
    · exact LocatorRow.add_key _ _ _
    · rw [nothing]
      ext other
      rw [Set.mem_ofPred_eq, LocatorRow.mem_add_uri]
      simp [locatorUpdate, LocatorTable.blank]
  · have sameId : row.content_id = canonical :=
      @LocatorRow.content_id_eq_of_key row
        (LocatorTable.blank canonical key same keyed) rowKey
    obtain ⟨document, registered, bytes⟩ :=
      locatorUpdate_row row uri media_type
    refine ⟨_, ?_, .inr ⟨row.add uri media_type, ?_, rfl, ?_⟩⟩
    · rw [there, ← bytes]
      simp only [locatorUpdate, bind, Except.bind, LocatorRow.bytes,
        readJson_rowDocument]
      rw [← sameId, registered]
    · rw [LocatorRow.add_key]
      exact rowKey
    · rw [listed]
      ext other
      rw [Set.mem_ofPred_eq, LocatorRow.mem_add_uri]
      rfl

theorem deeds_bom {record : Fields} {entry : BomRegistry.Entry}
    (read : BomRegistry.entryOf record = .ok entry) (now : Int) :
    deeds (.bom record now) =
      [.change fun files => { files with
          registry := BomRegistry.filed files.registry record now entry },
        .update (appendUpdate .by_data entry.data.key entry.bom.text),
        .update (appendUpdate .by_order entry.order.key entry.bom.text)] := by
  simp only [deeds, read]

theorem deeds_locator {content_id canonical key : String}
    (same : LocatorIndex.canonical_id content_id = .ok canonical)
    (keyed : content_id_fs_key canonical = .ok key) (uri : String)
    (media_type : Option String) :
    deeds (.locator content_id uri media_type) =
      [.update (locatorUpdate canonical key uri media_type)] := by
  simp only [deeds, same, keyed]

theorem deeds_sound (request : Request) :
    ∀ deed ∈ deeds request, deed.Sound shows view := by
  intro deed member
  cases request with
  | bom record now =>
      cases read : BomRegistry.entryOf record with
      | error raised =>
          simp only [deeds, read] at member
          cases member
      | ok entry =>
          rw [deeds_bom read] at member
          rcases List.mem_cons.mp member with first | member
          · rw [first]
            intro file store
            cases file with
            | list dir key => rfl
            | locators key => rfl
          · rcases List.mem_cons.mp member with second | member
            · rw [second]
              exact appendUpdate_adds _ _ _
            · rw [List.mem_singleton.mp member]
              exact appendUpdate_adds _ _ _
  | locator content_id uri media_type =>
      cases canonical : LocatorIndex.canonical_id content_id with
      | error raised =>
          simp only [deeds, canonical] at member
          cases member
      | ok id =>
          cases keyed : content_id_fs_key id with
          | error raised =>
              simp only [deeds, canonical, keyed] at member
              cases member
          | ok key =>
              rw [deeds_locator canonical keyed] at member
              rw [List.mem_singleton.mp member]
              exact locatorUpdate_adds uri media_type
                (LocatorIndex.canonical_id_idem canonical) keyed

end Shown

section Alone

/-- An update that has the files to itself is `_append_index`. -/
theorem alone_appendUpdate {dir : IndexDir} {key bom_id : String}
    {rest : List Deed} {files after : NodeFiles}
    (ran : alone view (.update (appendUpdate dir key bom_id) :: rest) files =
      .ok after) :
    ∃ middle : NodeFiles,
      (BomRegistry.append_index dir key bom_id files.registry =
        .ok () middle.registry ∧ middle.index = files.index) ∧
      alone view rest middle = .ok after := by
  rw [alone] at ran
  unfold BomRegistry.append_index
  cases read : BomRegistry.read_list (files.registry.lists dir key) with
  | error raised =>
      have computed : (appendUpdate dir key bom_id).compute
          (view.read (appendUpdate dir key bom_id).file files) =
            .error raised := by
        simp only [appendUpdate, view, NodeFiles.read, read, bind, Except.bind]
      rw [computed] at ran
      cases ran
  | ok existing =>
      have computed : (appendUpdate dir key bom_id).compute
          (view.read (appendUpdate dir key bom_id).file files) =
            if existing.contains bom_id then .ok none
            else .ok (some
              (BomRegistry.listDocument (bom_id :: existing))) := by
        simp only [appendUpdate, view, NodeFiles.read, read, bind, Except.bind]
      rw [computed] at ran
      rw [bind_run_ok (get_run files.registry), read, BomRegistry.lift_ok,
        bind_run_ok (pure_run existing files.registry)]
      split_ifs at ran ⊢ with known
      · exact ⟨files, ⟨rfl, rfl⟩, ran⟩
      · exact ⟨view.write (.list dir key)
          (BomRegistry.listDocument (bom_id :: existing)) files,
          ⟨rfl, rfl⟩, ran⟩

/-- A BOM request that has the files to itself is `put`. -/
theorem alone_bom (record : Fields) (now : Int) (files : NodeFiles)
    {after : NodeFiles}
    (ran : alone view (deeds (.bom record now)) files = .ok after) :
    after.registry = final (BomRegistry.put record now files.registry) ∧
      after.index = files.index := by
  cases read : BomRegistry.entryOf record with
  | error raised =>
      simp only [deeds, read, alone, Except.ok.injEq] at ran
      rw [← ran, BomRegistry.put_refused read]
      exact ⟨rfl, rfl⟩
  | ok entry =>
      rw [deeds_bom read, alone] at ran
      obtain ⟨middle, first, second⟩ := alone_appendUpdate ran
      obtain ⟨last, third, fourth⟩ := alone_appendUpdate second
      cases fourth
      rw [BomRegistry.put_entry read, bind_run_ok first.1,
        bind_run_ok third.1]
      exact ⟨rfl, third.2.trans first.2⟩

/-- A locator request that has the files to itself is `put`. -/
theorem alone_locator {content_id uri : String} {media_type : Option String}
    {files : NodeFiles} {index : LocatorIndex}
    (stored : files.index.put content_id uri media_type = .ok index) :
    alone view (deeds (.locator content_id uri media_type)) files =
      .ok { files with index := index } := by
  obtain ⟨canonical, same, stored⟩ := Raised.bind_returns stored
  obtain ⟨key, keyed, stored⟩ := Raised.bind_returns stored
  have there : view.read (.locators key) files = files.index.file? key := rfl
  have computed : ∃ updated,
      (locatorUpdate canonical key uri media_type).compute
        (view.read (.locators key) files) =
          .ok (some (sortedDocument updated)) ∧
      index = ⟨LocatorIndex.write files.index.files key
        (sortedDocument updated)⟩ := by
    simp only [locatorUpdate, there]
    cases found : files.index.file? key with
    | none =>
        rw [found] at stored
        obtain ⟨document, made, stored⟩ := Raised.bind_returns stored
        cases made
        obtain ⟨updated, registered, stored⟩ := Raised.bind_returns stored
        cases stored
        refine ⟨updated, ?_, rfl⟩
        simp only [bind, Except.bind, registered]
    | some data =>
        rw [found] at stored
        obtain ⟨document, read, stored⟩ := Raised.bind_returns stored
        obtain ⟨updated, registered, stored⟩ := Raised.bind_returns stored
        cases stored
        refine ⟨updated, ?_, rfl⟩
        simp only [bind, Except.bind, read, registered]
  obtain ⟨updated, computed, written⟩ := computed
  rw [deeds_locator same keyed, alone]
  simp only [show (locatorUpdate canonical key uri media_type).file =
    .locators key from rfl, computed]
  rw [written]
  rfl

end Alone

section Lookups

variable {files : NodeFiles} {entries : IndexFile → Set String}

theorem lookup_bom_of_shows {entry : BomRegistry.Entry} {data_id : String}
    (shown : shows (.list .by_data entry.data.key)
      (view.read (.list .by_data entry.data.key) files)
      (entries (.list .by_data entry.data.key)))
    (member : entry.bom.text ∈ entries (.list .by_data entry.data.key))
    (spells : ContentId.Spells data_id entry.data) :
    ∃ ids, files.registry.lookup_bom data_id = .ok ids ∧
      entry.bom.text ∈ ids := by
  obtain ⟨ids, read, same⟩ := shown
  refine ⟨ids, ?_, ?_⟩
  · simp only [BomRegistry.lookup_bom, spells.key, bind, Except.bind]
    exact read
  · rw [same] at member
    exact member

theorem lookup_by_order_of_shows {entry : BomRegistry.Entry}
    {order_id : String}
    (shown : shows (.list .by_order entry.order.key)
      (view.read (.list .by_order entry.order.key) files)
      (entries (.list .by_order entry.order.key)))
    (member : entry.bom.text ∈ entries (.list .by_order entry.order.key))
    (spells : ContentId.Spells order_id entry.order) :
    ∃ ids, files.registry.lookup_by_order order_id = .ok ids ∧
      entry.bom.text ∈ ids := by
  obtain ⟨ids, read, same⟩ := shown
  refine ⟨ids, ?_, ?_⟩
  · simp only [BomRegistry.lookup_by_order, spells.key, bind, Except.bind]
    exact read
  · rw [same] at member
    exact member

/-- A lookup by an id, or by what it is stored as, is one of the same file. -/
theorem content_id_fs_key_canonical {content_id canonical key : String}
    (same : LocatorIndex.canonical_id content_id = .ok canonical)
    (keyed : content_id_fs_key canonical = .ok key) :
    content_id_fs_key content_id = .ok key := by
  have strips := (is_ni_or_digest_strip content_id).symm
  unfold LocatorIndex.canonical_id at same
  split_ifs at same with named
  · cases read : from_ni content_id with
    | error raised =>
        rw [read] at same
        cases same
    | ok digest =>
        rw [read, Except.map, Except.ok.injEq] at same
        have keys : digest.hex = key := by
          rw [← same, content_id_fs_key_to_ni] at keyed
          exact Except.ok.inj keyed
        have nonempty : Text.strip content_id ≠ "" := by
          intro empty
          rw [strips, empty] at named
          revert named
          decide
        rw [strips] at named
        simp only [content_id_fs_key, nonempty, if_false, named, if_true,
          from_ni_strip.mpr read, Except.map, keys]
  · rw [Except.ok.injEq] at same
    rw [← same] at keyed
    simp only [content_id_fs_key, Text.strip_strip] at keyed ⊢
    split_ifs at keyed ⊢
    · exact keyed
    · exact keyed

theorem urisOf_json (locators : List Locator) :
    LocatorIndex.urisOf (locators.map Locator.json) =
      .ok ((locators.map Locator.uri).filter (· ≠ "")) := by
  induction locators with
  | nil => rfl
  | cons locator locators induction =>
      simp only [List.map_cons, LocatorIndex.urisOf, Locator.getKey_uri,
        induction, bind, Except.bind]
      by_cases blank : locator.uri = ""
      · simp [blank, Json.truthy]
      · simp [blank, Json.truthy, Json.toStr]

theorem lookup_uris_of_shows {content_id canonical key uri : String}
    (shown : shows (.locators key) (view.read (.locators key) files)
      (entries (.locators key)))
    (member : uri ∈ entries (.locators key)) (named : uri ≠ "")
    (same : LocatorIndex.canonical_id content_id = .ok canonical)
    (keyed : content_id_fs_key canonical = .ok key) :
    ∃ uris, files.index.lookup_uris content_id = .ok uris ∧ uri ∈ uris := by
  rcases shown with ⟨_, nothing⟩ | ⟨row, _, there, listed⟩
  · rw [nothing] at member
    cases member
  · refine ⟨(row.locators.map Locator.uri).filter (· ≠ ""), ?_, ?_⟩
    · have found : files.index.file? key = some row.bytes := there
      simp only [LocatorIndex.lookup_uris,
        content_id_fs_key_canonical same keyed, found, bind, Except.bind,
        LocatorRow.bytes, readJson_rowDocument, locatorsOf_rowDocument]
      exact urisOf_json row.locators
    · rw [listed] at member
      apply List.mem_filter.mpr
      exact ⟨member, by simpa using named⟩

end Lookups

section Served

/-- When no update was disturbed by one that adds another entry, all that was
put is looked up once the requests have finished. -/
theorem concurrent_puts_lose_nothing (requests : List Request)
    (named : ∀ content_id media_type,
      Request.locator content_id "" media_type ∉ requests)
    (schedule : List Nat)
    (undisturbed : Undisturbed (served requests schedule).trace)
    (finished : (served requests schedule).Finished (Worker.step view)) :
    AllListed requests (served requests schedule).store := by
  have sound : ∀ tasks ∈ requests.map deeds, ∀ deed ∈ tasks,
      deed.Sound shows view := by
    intro tasks member
    obtain ⟨request, _, same⟩ := List.mem_map.mp member
    rw [← same]
    exact deeds_sound request
  obtain ⟨entries, kept⟩ :=
    kept_of_undisturbed sound shows_empty schedule undisturbed
  have added : ∀ request ∈ requests, ∀ update,
      Action.update update ∈ deeds request →
        update.entry ∈ entries update.file := by
    intro request member update deed
    exact kept.finished finished (List.mem_map_of_mem member) deed
  constructor
  · intro record now entry member read data_id spells
    have deed := added _ member
      (appendUpdate .by_data entry.data.key entry.bom.text)
      (by rw [deeds_bom read]; simp)
    exact lookup_bom_of_shows (kept.shown _) deed spells
  · intro record now entry member read order_id spells
    have deed := added _ member
      (appendUpdate .by_order entry.order.key entry.bom.text)
      (by rw [deeds_bom read]; simp)
    exact lookup_by_order_of_shows (kept.shown _) deed spells
  · intro content_id uri media_type canonical key member same keyed
    have deed := added _ member (locatorUpdate canonical key uri media_type)
      (by rw [deeds_locator same keyed]; simp)
    have nonempty : uri ≠ "" := by
      intro empty
      rw [empty] at member
      exact named content_id media_type member
    exact lookup_uris_of_shows (kept.shown _) deed nonempty same keyed

/-- Writes of different threads to one file all add one entry. -/
theorem undisturbed_of_apart {trace : List (Nat × Access IndexFile String)}
    (apart : ∀ first ∈ trace, ∀ second ∈ trace, first.1 ≠ second.1 →
      ∀ file entry added, first.2 = .write file entry →
        second.2 = .write file added → added = entry) : Undisturbed trace := by
  intro before between after index file entry same other added member differs
  apply apart (index, .write file entry) _ (other, .write file added) _
    (Ne.symm differs) file entry added rfl rfl
  · rw [same]
    simp
  · rw [same]
    simp [member]

/-- The record of a BOM with legacy ids. -/
def bomRecord (bom order data : String) : Fields :=
  [("content_id", .str bom), ("order", .str order), ("data", .str data)]

/-- Threads that have nothing left to do. -/
theorem finished_of_idle {requests : Requests}
    (idle : ∀ worker ∈ requests.threads, worker.tasks = []) :
    requests.Finished (Worker.step view) := by
  intro worker member
  rw [Worker.step, idle worker member]

/-- A BOM and a locator put at once, no file of both. -/
theorem concurrent_puts_lose_nothing_apart :
    AllListed [.bom (bomRecord "A" "O" "D") 0, .locator "D" "http://n/d" none]
      (served [.bom (bomRecord "A" "O" "D") 0, .locator "D" "http://n/d" none]
        [1, 0, 0, 1, 0, 0, 0]).store := by
  apply concurrent_puts_lose_nothing
  · intro content_id media_type member
    rcases List.mem_cons.mp member with same | member
    · cases same
    · have uris := Request.locator.inj (List.mem_singleton.mp member)
      exact absurd uris.2.1 (by decide)
  · apply undisturbed_of_apart
    have trace : (served
        [.bom (bomRecord "A" "O" "D") 0, .locator "D" "http://n/d" none]
        [1, 0, 0, 1, 0, 0, 0]).trace =
          [(1, .read (.locators "D")), (0, .other),
            (0, .read (.list .by_data "D")),
            (1, .write (.locators "D") "http://n/d"),
            (0, .write (.list .by_data "D") "A"),
            (0, .read (.list .by_order "O")),
            (0, .write (.list .by_order "O") "A")] := rfl
    rw [trace]
    simp
  · apply finished_of_idle
    have threads : (served
        [.bom (bomRecord "A" "O" "D") 0, .locator "D" "http://n/d" none]
        [1, 0, 0, 1, 0, 0, 0]).threads = [Worker.start [], Worker.start []] :=
      rfl
    rw [threads]
    simp [Worker.start]

/-- Two puts of BOMs of one data: the second writes the list it read before the
first had written it. -/
theorem concurrent_puts_lose_bom :
    ¬ ∀ (requests : List Request) (schedule : List Nat),
      (served requests schedule).Finished (Worker.step view) →
        AllListed requests (served requests schedule).store := by
  intro claimed
  have threads : (served
      [.bom (bomRecord "A" "O" "D") 0, .bom (bomRecord "B" "P" "D") 0]
      [0, 1, 0, 1, 0, 1, 0, 0, 1, 1]).threads =
        [Worker.start [], Worker.start []] := rfl
  have listed := claimed
    [.bom (bomRecord "A" "O" "D") 0, .bom (bomRecord "B" "P" "D") 0]
    [0, 1, 0, 1, 0, 1, 0, 0, 1, 1] (finished_of_idle (by
      rw [threads]
      simp [Worker.start]))
  have kept : (served
      [.bom (bomRecord "A" "O" "D") 0, .bom (bomRecord "B" "P" "D") 0]
      [0, 1, 0, 1, 0, 1, 0, 0, 1, 1]).store.registry.lists .by_data "D" =
        some (BomRegistry.listDocument ["B"]) := rfl
  have entry : BomRegistry.entryOf (bomRecord "A" "O" "D") =
      .ok ⟨.segment "A" (by decide) (by decide),
        .segment "O" (by decide) (by decide),
        .segment "D" (by decide) (by decide)⟩ := by rfl
  obtain ⟨ids, found, member⟩ := listed.data _ 0 _ List.mem_cons_self entry "D"
    (@ContentId.spells_of_parse "D" "data" _ rfl)
  have only : ids = ["B"] := by
    have read := BomRegistry.read_list_listDocument ["B"]
    rw [← kept] at read
    exact Except.ok.inj (found.symm.trans read)
  rw [only] at member
  revert member
  decide

end Served

end NodeFiles

end Cats
