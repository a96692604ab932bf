import Cats.Cas.ContentRef
import Cats.Cas.LocatorTable

/-!
# Runs of a locator index

Puts and intakes of client-supplied values are the events that change an
index; a listing may come in another order at any time.  Every pair a reached
index records was registered by some event of the run.
-/

namespace Cats

inductive IndexEvent where
  | put (content_id uri : String) (media_type : Option String)
  | intake (value : String)
  | relist

/-- The event registers this URI under this id. -/
def IndexEvent.Registers (event : IndexEvent) (content_id uri : String) :
    Prop :=
  match event with
  | .put id given _ =>
      LocatorIndex.canonical_id id = .ok content_id ∧ given = uri
  | .intake value =>
      ∃ uris, from_hl (Text.strip value) = .ok (content_id, uris) ∧ uri ∈ uris
  | .relist => False

/-- What one event may do to an index; one that raises changes nothing. -/
inductive IndexStep : IndexEvent → LocatorIndex → LocatorIndex → Prop where
  | put {index after : LocatorIndex} {content_id uri : String}
      {media_type : Option String}
      (stored : index.put content_id uri media_type = .ok after) :
      IndexStep (.put content_id uri media_type) index after
  | intake {index after : LocatorIndex} {value : String}
      {id : Option String}
      (resolved : resolve_intake_ref (some index) value =
        .ok (id, some after)) :
      IndexStep (.intake value) index after
  | raised (event : IndexEvent) (index : LocatorIndex) :
      IndexStep event index index
  | relist {index after : LocatorIndex}
      (order : after.files.Perm index.files) :
      IndexStep .relist index after

inductive IndexRun : List IndexEvent → LocatorIndex → Prop where
  | start : IndexRun [] .empty
  | step {events : List IndexEvent} {event : IndexEvent}
      {index after : LocatorIndex} (run : IndexRun events index)
      (step : IndexStep event index after) :
      IndexRun (events ++ [event]) after

/-- An index whose recorded pairs all satisfy a condition. -/
def LocatorIndex.Records (condition : String → String → Prop)
    (index : LocatorIndex) : Prop :=
  ∃ rows, index = .ofRows rows ∧
    ∀ content_id uri, LocatorTable.Names rows content_id uri →
      condition content_id uri

namespace LocatorIndex

variable {condition weaker : String → String → Prop} {index after : LocatorIndex}

theorem Records.mono (records : Records condition index)
    (implies : ∀ content_id uri, condition content_id uri →
      weaker content_id uri) : Records weaker index := by
  obtain ⟨rows, same, holds⟩ := records
  exact ⟨rows, same, fun content_id uri names =>
    implies content_id uri (holds content_id uri names)⟩

theorem canonical_id_idem {content_id canonical : String}
    (same : canonical_id content_id = .ok canonical) :
    canonical_id canonical = .ok canonical := by
  unfold canonical_id at same
  split_ifs at same with digest
  · cases read : from_ni content_id with
    | error raised => simp [read, Except.map] at same
    | ok found =>
        simp only [read, Except.map, Except.ok.injEq] at same
        subst same
        simp [canonical_id, Except.map]
  · rw [← Except.ok.inj same]
    have notDigest : is_ni_or_digest (Text.strip content_id) = false := by
      simpa [is_ni_or_digest_strip] using digest
    simp [canonical_id, notDigest]

/-- A put adds its own pair and no other. -/
theorem Records.put {content_id uri : String} {media_type : Option String}
    (records : Records condition index)
    (stored : index.put content_id uri media_type = .ok after) :
    Records (fun id other => condition id other ∨
      canonical_id content_id = .ok id ∧ other = uri) after := by
  obtain ⟨rows, rfl, holds⟩ := records
  cases canonical : canonical_id content_id with
  | error raised => simp [LocatorIndex.put, canonical, Except.bind, bind] at stored
  | ok id =>
      cases keyed : content_id_fs_key id with
      | error raised =>
          simp [LocatorIndex.put, canonical, keyed, Except.bind, bind] at stored
      | ok key =>
          have made := LocatorTable.put_ofRows rows
            (LocatorTable.blank id key (canonical_id_idem canonical) keyed) rfl
            canonical uri media_type
          rw [stored] at made
          refine ⟨_, Except.ok.inj made, ?_⟩
          intro other otherUri names
          rw [LocatorTable.names_register _ rfl] at names
          rcases names with before | ⟨same, sameUri⟩
          · exact .inl (holds other otherUri before)
          · exact .inr ⟨by rw [same]; rfl, sameUri⟩

theorem Records.registerHints {ni : String} {uris : List String}
    (records : Records condition index)
    (canonical : canonical_id ni = .ok ni)
    (registered : registerHints ni uris index = .ok after) :
    Records (fun id other => condition id other ∨ id = ni ∧ other ∈ uris)
      after := by
  induction uris generalizing index condition with
  | nil =>
      simp only [Cats.registerHints, Except.ok.injEq] at registered
      exact registered ▸ records.mono fun _ _ => .inl
  | cons uri uris induction =>
      simp only [Cats.registerHints] at registered
      split_ifs at registered with http
      · cases stored : index.put ni uri with
        | error raised => simp [stored, Except.bind, bind] at registered
        | ok middle =>
            simp only [stored, Except.bind, bind] at registered
            refine (induction (records.put stored) registered).mono ?_
            rintro id other ((before | ⟨same, rfl⟩) | ⟨rfl, member⟩)
            · exact .inl before
            · rw [canonical] at same
              exact .inr ⟨(Except.ok.inj same).symm, by simp⟩
            · exact .inr ⟨rfl, by simp [member]⟩
      · refine (induction records registered).mono ?_
        rintro id other (before | ⟨rfl, member⟩)
        · exact .inl before
        · exact .inr ⟨rfl, by simp [member]⟩

/-- An intake adds the hints of its own hashlink and nothing else. -/
theorem Records.intake {value : String} {id : Option String}
    (records : Records condition index)
    (resolved : resolve_intake_ref (some index) value =
      .ok (id, some after)) :
    Records (fun other uri => condition other uri ∨
      IndexEvent.Registers (.intake value) other uri) after := by
  have unchanged : after = index → Records (fun other uri =>
      condition other uri ∨
        IndexEvent.Registers (.intake value) other uri) after := by
    rintro rfl
    exact records.mono fun _ _ => .inl
  unfold resolve_intake_ref at resolved
  simp only [] at resolved
  split_ifs at resolved with blank linked digest http
  · simp only [Except.ok.injEq, Prod.mk.injEq, Option.some.injEq] at resolved
    exact unchanged resolved.2.symm
  · cases parsed : from_hl (Text.strip value) with
    | error raised => simp [parsed, Except.bind, bind] at resolved
    | ok pair =>
        obtain ⟨ni, uris⟩ := pair
        obtain ⟨found, rfl⟩ := from_hl_digest parsed
        cases registered : Cats.registerHints (to_ni found) uris index with
        | error raised =>
            simp [parsed, registered, Except.bind, bind] at resolved
        | ok middle =>
            simp only [parsed, registered, Except.bind, bind,
              Except.ok.injEq, Prod.mk.injEq, Option.some.injEq] at resolved
            rw [← resolved.2]
            refine (records.registerHints (by simp [canonical_id, Except.map])
              registered).mono ?_
            rintro other uri (before | ⟨rfl, member⟩)
            · exact .inl before
            · exact .inr ⟨uris, parsed, member⟩
  · cases same : equality_id (Text.strip value) with
    | error raised => simp [same, Except.map] at resolved
    | ok found =>
        simp only [same, Except.map, Except.ok.injEq, Prod.mk.injEq,
          Option.some.injEq] at resolved
        exact unchanged resolved.2.symm
  · cases found : content_id_from_uri (some index) (Text.strip value) with
    | error raised => simp [found, Except.bind, bind] at resolved
    | ok outcome =>
        cases outcome with
        | some other =>
            simp only [found, Except.bind, bind, Except.ok.injEq,
              Prod.mk.injEq, Option.some.injEq] at resolved
            exact unchanged resolved.2.symm
        | none =>
            cases known : registeredId (some index) (Text.strip value) with
            | error raised =>
                simp [found, known, Except.bind, bind, Except.map] at resolved
            | ok other =>
                simp only [found, known, Except.bind, bind, Except.map,
                  Except.ok.injEq, Prod.mk.injEq,
                  Option.some.injEq] at resolved
                exact unchanged resolved.2.symm
  · simp only [Except.ok.injEq, Prod.mk.injEq, Option.some.injEq] at resolved
    exact unchanged resolved.2.symm

/-- A listing in another order lists the same rows in another order. -/
theorem rows_of_perm {rows : List LocatorRow} {files : List (String × Bytes)}
    (order : files.Perm (rows.map LocatorRow.file)) :
    ∃ other : List LocatorRow, files = other.map LocatorRow.file ∧ other.Perm rows := by
  generalize listed : rows.map LocatorRow.file = target at order
  induction order generalizing rows with
  | nil =>
      have empty : rows = [] := List.map_eq_nil_iff.mp listed
      exact ⟨[], rfl, by rw [empty]⟩
  | cons file rest induction =>
      cases rows with
      | nil => simp at listed
      | cons row rows =>
          simp only [List.map_cons, List.cons.injEq] at listed
          obtain ⟨other, rfl, permuted⟩ := induction listed.2
          exact ⟨row :: other, by rw [← listed.1]; rfl, permuted.cons row⟩
  | swap first second rest =>
      match rows, listed with
      | left :: right :: rows, listed =>
          simp only [List.map_cons, List.cons.injEq] at listed
          obtain ⟨rfl, rfl, rfl⟩ := listed
          exact ⟨right :: left :: rows, rfl, .swap left right rows⟩
  | trans _ _ firstInduction secondInduction =>
      obtain ⟨middle, rfl, near⟩ := secondInduction listed
      obtain ⟨other, rfl, far⟩ := firstInduction rfl
      exact ⟨other, rfl, far.trans near⟩

theorem Records.relist (records : Records condition index)
    (order : after.files.Perm index.files) : Records condition after := by
  obtain ⟨rows, rfl, holds⟩ := records
  obtain ⟨other, listed, permuted⟩ := rows_of_perm order
  refine ⟨other, ?_, ?_⟩
  · obtain ⟨files⟩ := after
    simp only at listed
    rw [listed]
    rfl
  · rintro content_id uri ⟨row, member, named⟩
    exact holds content_id uri ⟨row, permuted.mem_iff.mp member, named⟩

end LocatorIndex

/-- One event records what it registers. -/
theorem IndexStep.records {condition : String → String → Prop}
    {event : IndexEvent} {index after : LocatorIndex}
    (step : IndexStep event index after)
    (records : index.Records condition) :
    after.Records fun id uri => condition id uri ∨ event.Registers id uri := by
  cases step with
  | put stored =>
      refine (records.put stored).mono ?_
      rintro id uri (before | ⟨canonical, rfl⟩)
      · exact .inl before
      · exact .inr ⟨canonical, rfl⟩
  | intake resolved => exact records.intake resolved
  | raised => exact records.mono fun _ _ => .inl
  | relist order => exact (records.relist order).mono fun _ _ => .inl

/-- What a reached index records was registered by some event of the run. -/
theorem IndexRun.records {events : List IndexEvent} {index : LocatorIndex}
    (run : IndexRun events index) :
    index.Records fun id uri => ∃ event ∈ events, event.Registers id uri := by
  induction run with
  | start => exact ⟨[], rfl, by rintro id uri ⟨row, member, _⟩; simp at member⟩
  | step run step induction =>
      refine (step.records induction).mono ?_
      rintro id uri (⟨event, member, registers⟩ | registers)
      · exact ⟨event, by simp [member], registers⟩
      · exact ⟨_, by simp, registers⟩

/-- A reverse lookup in a reached index returns what some event registered for
that URI: the `ni:` id of a digest, or a legacy id. -/
theorem IndexRun.registers_of_find {events : List IndexEvent}
    {index : LocatorIndex} (run : IndexRun events index)
    {uri content_id : String}
    (found : index.find_content_id_for_uri uri = .ok (some content_id)) :
    (∃ event ∈ events, event.Registers content_id (Text.strip uri)) ∧
      ((∃ digest, content_id = to_ni digest) ∨
        is_ni_or_digest content_id = false ∧
          isCidSegment content_id = true) := by
  obtain ⟨rows, rfl, holds⟩ := run.records
  have names := LocatorTable.names_of_find found
  refine ⟨holds _ _ names, ?_⟩
  obtain ⟨row, _, rfl, _⟩ := names
  rcases row.shape with ⟨digest, same, _⟩ | ⟨legacy, segment, _⟩
  · exact .inl ⟨digest, same⟩
  · exact .inr ⟨legacy, segment⟩

/-- The row a digest gets when it is first registered. -/
def digestRow (digest : Digest) : LocatorRow :=
  LocatorTable.blank (to_ni digest) digest.hex
    (by simp [LocatorIndex.canonical_id, Except.map])
    (content_id_fs_key_to_ni digest _)

/-- A hashlink with a web hint gives its id and registers the hint. -/
theorem resolve_intake_ref_hashlink (rows : List LocatorRow) {digest : Digest}
    {hint : String} (http : is_http_uri hint = true) (nonempty : hint ≠ "")
    (oneLine : '\n' ∉ hint.toList)
    (last : ∀ character ∈ hint.toList.getLast?,
      Text.isSpace character = false) :
    resolve_intake_ref (some (.ofRows rows)) (hashlinkWith digest hint) =
      .ok (some (to_ni digest), some (.ofRows
        (LocatorTable.register (digestRow digest) hint none rows))) := by
  obtain ⟨stripped, linked, parsed⟩ :=
    from_hl_hashlinkWith digest nonempty oneLine last
  have present : hashlinkWith digest hint ≠ "" := by
    intro empty
    have text := toList_hashlinkWith digest hint
    rw [empty] at text
    exact nomatch text
  have stored := LocatorTable.put_ofRows rows (digestRow digest) rfl
    (show LocatorIndex.canonical_id (to_ni digest) = .ok _ by
      simp [LocatorIndex.canonical_id, Except.map, digestRow,
        LocatorTable.blank]) hint none
  simp only [resolve_intake_ref, stripped, present, if_false, linked, if_true,
    parsed, Except.bind, bind, registerHints, http, stored]

/-- Taking in a hashlink with a web hint registers the hint, unseen. -/
theorem step_intake_hashlink (rows : List LocatorRow) {digest : Digest}
    {hint : String} (http : is_http_uri hint = true) (nonempty : hint ≠ "")
    (oneLine : '\n' ∉ hint.toList)
    (last : ∀ character ∈ hint.toList.getLast?,
      Text.isSpace character = false) :
    IndexStep (.intake (hashlinkWith digest hint)) (.ofRows rows)
      (.ofRows (LocatorTable.register (digestRow digest) hint none rows)) :=
  .intake (resolve_intake_ref_hashlink rows http nonempty oneLine last)

end Cats
