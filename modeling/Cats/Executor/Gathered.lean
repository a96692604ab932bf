import Cats.Executor.Result
import Cats.Posix.Files

/-!
# What a Job result gathers

An entity of the lineage is noted with everything it was derived from, at any
depth.  Gathering the ids touches no file and no blob; only hints are
registered.
-/

namespace Cats

open Effect

namespace JobResult

theorem mem_note {found : List String} {content_id : Option String}
    {id : String} :
    id ∈ note found content_id ↔
      id ∈ found ∨ content_id = some id ∧ id ≠ "" := by
  unfold note
  cases content_id with
  | none => simp
  | some named =>
      by_cases blank : named = ""
      · have dropped : (some named).filter (· ≠ "") = none := by simp [blank]
        rw [dropped]
        constructor
        · exact .inl
        · rintro (member | ⟨same, given⟩)
          · exact member
          · exact absurd ((Option.some.inj same).symm.trans blank) given
      · have kept : (some named).filter (· ≠ "") = some named := by
          simp [blank]
        rw [kept]
        dsimp only
        split_ifs with present
        · rw [List.contains_iff_mem] at present
          constructor
          · exact .inl
          · rintro (member | ⟨same, _⟩)
            · exact member
            · rwa [← Option.some.inj same]
        · rw [List.mem_append, List.mem_singleton, Option.some.injEq]
          constructor
          · rintro (member | rfl)
            · exact .inl member
            · exact .inr ⟨rfl, blank⟩
          · rintro (member | ⟨same, _⟩)
            · exact .inl member
            · exact .inr same.symm

section Lineage

/-- The entities another is said to be derived from. -/
def parentsOf (derived : Option Json) : List Json :=
  match derived with
  | some (.arr items) => items
  | some derived => [derived]
  | none => []

/-- An entity and what it was derived from, any number of steps back. -/
inductive DerivedFrom : Json → Fields → Prop where
  | here (entity : Fields) : DerivedFrom (.obj entity) entity
  | back {entity ancestor : Fields} {parent : Json}
      (step : parent ∈
        parentsOf (Fields.get? entity "prov:wasDerivedFrom"))
      (rest : DerivedFrom parent ancestor) :
      DerivedFrom (.obj entity) ancestor

/-- What an entity, or one it was derived from, names. -/
def Names (index : Option LocatorIndex) (entity : Json) (id : String) :
    Prop :=
  ∃ ancestor, DerivedFrom entity ancestor ∧
    entityId index ancestor = .ok (some id) ∧ id ≠ ""

variable {index : Option LocatorIndex}

theorem names_obj {entity : Fields} {id : String} :
    Names index (.obj entity) id ↔
      (entityId index entity = .ok (some id) ∧ id ≠ "") ∨
        ∃ parent ∈ parentsOf (Fields.get? entity "prov:wasDerivedFrom"),
          Names index parent id := by
  constructor
  · rintro ⟨ancestor, derived, named, given⟩
    cases derived with
    | here => exact .inl ⟨named, given⟩
    | back step rest => exact .inr ⟨_, step, ancestor, rest, named, given⟩
  · rintro (⟨named, given⟩ | ⟨parent, step, ancestor, rest, named, given⟩)
    · exact ⟨entity, .here entity, named, given⟩
    · exact ⟨ancestor, .back step rest, named, given⟩

theorem not_names {entity : Json} {id : String}
    (other : ∀ fields, entity ≠ .obj fields) : ¬ Names index entity id := by
  rintro ⟨ancestor, derived, _⟩
  cases derived with
  | here => exact other _ rfl
  | back step rest => exact other _ rfl

theorem unnoted {entity : Json} {found : List String} (id : String)
    (other : ∀ fields, entity ≠ .obj fields) :
    id ∈ found ↔ id ∈ found ∨ Names index entity id := by
  constructor
  · exact .inl
  · rintro (member | names)
    · exact member
    · exact absurd names (not_names other)

theorem single {entity : Json} {found noted : List String} {id : String}
    (both : id ∈ noted ↔ id ∈ found ∨ Names index entity id) :
    id ∈ noted ↔ id ∈ found ∨
      ∃ parent ∈ [entity], Names index parent id := by
  rw [both]
  simp only [List.mem_singleton, exists_eq_left]

mutual

/-- An entity is noted with all that it was derived from, and nothing else. -/
theorem mem_note_entity {entity : Json} {found noted : List String}
    (ran : note_entity index found entity = .ok noted) (id : String) :
    id ∈ noted ↔ id ∈ found ∨ Names index entity id := by
  cases entity with
  | obj entity =>
      unfold note_entity at ran
      cases named : entityId index entity with
      | error raised =>
          rw [named] at ran
          exact nomatch ran
      | ok content_id =>
          rw [named] at ran
          rw [mem_noteDerived entity ran id, mem_note, names_obj,
            named, Except.ok.injEq, or_assoc]
  | null =>
      cases ran
      exact unnoted id fun fields same => nomatch same
  | bool value =>
      cases ran
      exact unnoted id fun fields same => nomatch same
  | int value =>
      cases ran
      exact unnoted id fun fields same => nomatch same
  | float text =>
      cases ran
      exact unnoted id fun fields same => nomatch same
  | str value =>
      cases ran
      exact unnoted id fun fields same => nomatch same
  | arr items =>
      cases ran
      exact unnoted id fun fields same => nomatch same

theorem mem_noteDerived (entity : List (String × Json))
    {found noted : List String}
    (ran : noteDerived index found entity = .ok noted) (id : String) :
    id ∈ noted ↔ id ∈ found ∨
      ∃ parent ∈ parentsOf (Fields.get? entity "prov:wasDerivedFrom"),
        Names index parent id := by
  cases entity with
  | nil =>
      cases ran
      simp [parentsOf]
  | cons field entity =>
      obtain ⟨name, derived⟩ := field
      unfold noteDerived at ran
      rw [Fields.get?_cons]
      by_cases key : name = "prov:wasDerivedFrom"
      · rw [if_pos key] at ran ⊢
        cases derived with
        | arr items => exact mem_noteEntities items ran id
        | obj parent => exact single (mem_note_entity ran id)
        | null => exact single (mem_note_entity ran id)
        | bool value => exact single (mem_note_entity ran id)
        | int value => exact single (mem_note_entity ran id)
        | float text => exact single (mem_note_entity ran id)
        | str value => exact single (mem_note_entity ran id)
      · rw [if_neg key] at ran ⊢
        exact mem_noteDerived _ ran id

theorem mem_noteEntities (entities : List Json) {found noted : List String}
    (ran : noteEntities index found entities = .ok noted) (id : String) :
    id ∈ noted ↔ id ∈ found ∨ ∃ entity ∈ entities, Names index entity id := by
  cases entities with
  | nil =>
      cases ran
      simp
  | cons item items =>
      unfold noteEntities at ran
      cases first : note_entity index found item with
      | error raised =>
          rw [first] at ran
          exact nomatch ran
      | ok middle =>
          rw [first] at ran
          rw [mem_noteEntities items ran id,
            mem_note_entity first id, or_assoc]
          simp only [List.mem_cons, exists_eq_or_imp]

end

end Lineage

/-- No file and no blob of the Node changed; directories may be new. -/
structure Untouched (before after : Machine) : Prop where
  store : store after = store before
  files : after.file? = before.file?

namespace Untouched

theorem refl (machine : Machine) : Untouched machine machine := ⟨rfl, rfl⟩

theorem trans {first second third : Machine} (left : Untouched first second)
    (right : Untouched second third) : Untouched first third :=
  ⟨right.store.trans left.store, right.files.trans left.files⟩

theorem of_wrote {before after : Machine} (wrote : Wrote before after []) :
    Untouched before after := by
  constructor
  · unfold JobResult.store
    rw [wrote.home]
  · exact wrote.files

end Untouched

/-- Nothing on disk and no blob of the Node changed. -/
structure Looked (before after : Machine) : Prop where
  store : store after = store before
  disk : after.disk = before.disk

namespace Looked

theorem refl (machine : Machine) : Looked machine machine := ⟨rfl, rfl⟩

theorem trans {first second third : Machine} (left : Looked first second)
    (right : Looked second third) : Looked first third :=
  ⟨right.store.trans left.store, right.disk.trans left.disk⟩

theorem untouched {before after : Machine} (looked : Looked before after) :
    Untouched before after := by
  constructor
  · exact looked.store
  · funext path
    simp only [Machine.file?, Machine.inode?, looked.disk]

end Looked

/-- A computation that changes nothing on disk and no blob. -/
abbrev Gathers {α : Type} (action : Act α) : Prop :=
  Relates Looked action

theorem gathers_of_reads {α : Type} {action : Act α}
    (reads : AddressStore.Reads action) : Gathers action := by
  intro machine
  have same := reads machine
  constructor
  · unfold JobResult.store
    rw [same.home]
  · exact same.disk

theorem gathers_bind {α β : Type} {action : Act α} {next : α → Act β}
    (first : Gathers action) (later : ∀ value, Gathers (next value)) :
    Gathers (action >>= next) :=
  Relates.bind (fun left right => left.trans right) first later

theorem gathers_withIndex {α : Type}
    (step : Option LocatorIndex → Except Raised (α × Option LocatorIndex)) :
    Gathers (Act.withIndex step) := by
  intro machine
  unfold Act.withIndex
  rw [bind_run_ok (get_run machine)]
  cases step (machine.home.map Home.index) with
  | error raised => exact .refl machine
  | ok pair =>
      obtain ⟨value, index⟩ := pair
      obtain ⟨home, disk, writes, gets⟩ := machine
      cases home with
      | none => exact .refl _
      | some home =>
          cases index with
          | none => exact .refl _
          | some index => exact ⟨rfl, rfl⟩

theorem gathers_reading {α : Type}
    (read : Option LocatorIndex → Except Raised α) : Gathers (reading read) :=
  gathers_of_reads (AddressStore.reads_bind AddressStore.reads_get
    fun _ => AddressStore.reads_lift _)

theorem gathers_blobOf (content_id : String) : Gathers (blobOf content_id) := by
  apply gathers_of_reads
  apply AddressStore.reads_bind AddressStore.reads_get
  intro machine
  apply AddressStore.reads_bind (AddressStore.reads_lift _)
  intro blob
  cases blob with
  | none => exact AddressStore.reads_throw _
  | some blob => exact AddressStore.reads_pure blob

theorem gathers_noteSlots (obj : Fields) (stems found : List String) :
    Gathers (noteSlots obj stems found) := by
  induction stems generalizing found with
  | nil => exact fun machine => .refl machine
  | cons stem stems induction =>
      exact gathers_bind (gathers_withIndex _) fun _ => induction _

theorem gathers_citedInvoice (bom : Fields) : Gathers (citedInvoice bom) := by
  apply gathers_bind (gathers_withIndex _)
  intro named
  cases named.filter (· ≠ "") with
  | none => exact fun machine => .refl machine
  | some invoice_id =>
      apply gathers_bind (gathers_blobOf invoice_id)
      intro blob
      apply gathers_bind (gathers_of_reads (AddressStore.reads_lift _))
      intro text
      apply gathers_bind (gathers_of_reads (AddressStore.reads_lift _))
      intro invoice
      cases invoice <;> exact fun machine => .refl machine

theorem gathers_cited_content_ids (bom_response bom invoice : Fields)
    (invoice_id : String) :
    Gathers (cited_content_ids bom_response bom invoice invoice_id) := by
  unfold cited_content_ids
  split
  case h_1 bom_id _ =>
    apply Relates.ite
    · intro blank
      exact fun machine => .refl machine
    · intro given
      unfold citedFrom
      apply gathers_bind (gathers_reading _)
      intro named
      apply gathers_bind (gathers_noteSlots _ _ _)
      intro found
      apply gathers_bind (gathers_noteSlots _ _ _)
      intro found
      exact gathers_reading _
  case h_2 => exact fun machine => .refl machine

/-- A slot cites an id, whatever the locator index holds. -/
def Cites (obj : Fields) (stem id : String) : Prop :=
  id ≠ "" ∧ ∀ index, ∃ after, ref_content_id index obj stem =
    .ok (some id, after)

theorem cites_ran {obj : Fields} {stem id : String} (cites : Cites obj stem id)
    {machine after : Machine} {found : Option String}
    (ran : Act.withIndex (fun index => ref_content_id index obj stem) machine =
      .ok found after) : found = some id := by
  unfold Act.withIndex at ran
  rw [bind_run_ok (get_run machine)] at ran
  obtain ⟨index, named⟩ := cites.2 (machine.home.map Home.index)
  obtain ⟨pair, middle, lifted, rest⟩ := bind_ok ran
  dsimp only at lifted
  rw [named] at lifted
  cases lifted
  exact (EStateM.Result.ok.inj rest).1.symm

theorem noteSlots_ok {obj : Fields} {stems found noted : List String}
    {machine after : Machine}
    (ran : noteSlots obj stems found machine = .ok noted after) :
    (∀ id ∈ found, id ∈ noted) ∧
      ∀ stem ∈ stems, ∀ id, Cites obj stem id → id ∈ noted := by
  induction stems generalizing found machine with
  | nil =>
      cases ran
      simp
  | cons stem stems induction =>
      obtain ⟨content_id, middle, read, rest⟩ := bind_ok ran
      obtain ⟨kept, later⟩ := induction rest
      constructor
      · intro id member
        exact kept id (mem_note.mpr (.inl member))
      · intro other member id cites
        rcases List.mem_cons.mp member with rfl | member
        · exact kept id (mem_note.mpr (.inr ⟨cites_ran cites read, cites.1⟩))
        · exact later other member id cites

theorem reading_ok {α : Type} {read : Option LocatorIndex → Except Raised α}
    {machine after : Machine} {value : α}
    (ran : reading read machine = .ok value after) :
    read (machine.home.map Home.index) = .ok value := by
  unfold reading at ran
  rw [bind_run_ok (get_run machine)] at ran
  cases result : read (machine.home.map Home.index) with
  | error raised =>
      rw [result] at ran
      exact nomatch ran
  | ok found =>
      rw [result] at ran
      cases ran
      rfl

theorem blobOf_ok {content_id : String} {machine after : Machine}
    {blob : Bytes} (ran : blobOf content_id machine = .ok blob after) :
    (store machine).get content_id = .ok (some blob) := by
  unfold blobOf at ran
  rw [bind_run_ok (get_run machine)] at ran
  cases found : (store machine).get content_id with
  | error raised =>
      rw [found] at ran
      exact nomatch ran
  | ok blob? =>
      rw [found] at ran
      cases blob? with
      | none => exact nomatch ran
      | some blob =>
          cases ran
          rfl

end JobResult

end Cats
