import Cats.Cas.LocatorTable
import Cats.Plant.EntityRelationship

/-!
# What collection may delete

A current pointer names a prefix, and the objects written below it should stay.
Collection deletes only below its candidates, which no pointer named when it
listed them, so it deletes nothing a pointer names as long as pointers are not
promoted to a structure some collection is still to delete, nor to one whose
objects are gone.
-/

namespace Cats

namespace ObjStore

/-- The path `_er_prefix` gives. -/
def erPath (structure_id name : String) : String :=
  structurePath structure_id ++ "/er/" ++ name

/-- The URI `_er_uri` gives. -/
def erUri (bucket structure_id name : String) : String :=
  "s3://" ++ bucket ++ "/" ++ erPath structure_id name

/-- The key `_pointer_key` gives. -/
def currentKey (name : String) : String := erCurrentPrefix ++ "/" ++ name

/-- The key is one of a file below the path. -/
def Below (path key : String) : Prop :=
  Text.startsWith key (path ++ "/") = true

/-- The key of the pointer holds what promoting the structure writes. -/
structure Points (bucket : String) (store : Durable)
    (structure_id name : String) : Prop where
  structure_safe : isSafeName structure_id = true
  name_safe : isSafeName name = true
  stored : store.object? (currentKey name) =
    some (pointerPayload (erUri bucket structure_id name) structure_id name)

/-- The key is below a prefix that a current pointer names. -/
def Current (bucket : String) (store : Durable) (key : String) : Prop :=
  ∃ structure_id name, Points bucket store structure_id name ∧
    Below (erPath structure_id name) key

/-- An object with this key was put. -/
def WasPut (calls : ErCalls) (key : String) : Prop :=
  ∃ place, (place, ErEvent.put key) ∈ calls.trace

/-- The deletion may delete an object of this key. -/
def Deletion.May : Deletion → String → Prop
  | .prefix_list structure_id, key =>
      Below (Text.rstripSlash (structurePath structure_id)) key
  | .file name, key => key = name
  | .dir path, key => Below path key
  | .pointer name, key => key = currentKey name

/-- The call has listed the pointers and may still delete an object of this
key. -/
def ErThread.MayDelete : ErThread → String → Prop
  | .sweeping delete referenced, key => delete = true ∧
      ∃ structure_id, isSafeName structure_id = true ∧
        Json.str structure_id ∉ referenced ∧
          Below (structurePath structure_id) key
  | .deleting _ deletions, key => ∃ deletion ∈ deletions, deletion.May key
  | _, _ => False

/-- All that was put below the prefix is there, and no call is about to delete
any of it. -/
def Whole (calls : ErCalls) (structure_id name : String) : Prop :=
  ∀ key, Below (erPath structure_id name) key →
    (WasPut calls key → (calls.store.object? key).isSome = true) ∧
      ∀ thread ∈ calls.threads, ¬ thread.MayDelete key

/-- Every pointer is promoted to a prefix that is whole. -/
def PromotesWhole (bucket : String) (calls : List ErCall)
    (schedule : List Nat) : Prop :=
  ∀ before index after uri structure_id name,
    schedule = before ++ index :: after →
    (erRun bucket calls before).threads[index]? =
      some (.promoting uri structure_id name) →
    Whole (erRun bucket calls before) structure_id name

/-- Every current pointer resolves, and all that was put below the prefix it
names is there. -/
def NoDangling (bucket : String) (calls : ErCalls) : Prop :=
  ∀ name, isSafeName name = true →
    (calls.store.object? (currentKey name)).isSome = true →
    ∃ structure_id, isSafeName structure_id = true ∧
      resolve_er_pointer calls.store name = .ok
        (some (pointer (erUri bucket structure_id name) structure_id name)) ∧
      ∀ key, Below (erPath structure_id name) key → WasPut calls key →
        (calls.store.object? key).isSome = true

/-- An object a step of a call removes is below a candidate of that call. -/
def DeletesCandidates (calls : ErCalls) : Prop :=
  ∀ index key, (calls.store.object? key).isSome = true →
    (calls.advance ErThread.step index).store.object? key = none →
    ∃ candidates deletions,
      calls.threads[index]? = some (.deleting candidates deletions) ∧
      ∃ structure_id ∈ candidates, Below (structurePath structure_id) key

section Paths

theorem below_iff {path key : String} :
    Below path key ↔ ∃ rest, key.toList = path.toList ++ '/' :: rest := by
  rw [Below, Text.startsWith_iff, String.toList_append]
  constructor
  · intro start
    obtain ⟨rest, same⟩ := start
    refine ⟨rest, ?_⟩
    rw [← same, List.append_assoc]
    rfl
  · intro shape
    obtain ⟨rest, same⟩ := shape
    refine ⟨rest, ?_⟩
    rw [same, List.append_assoc]
    rfl

theorem slash_not_mem_of_safe {name : String}
    (safe : isSafeName name = true) : '/' ∉ name.toList := by
  intro member
  simp only [isSafeName, Bool.and_eq_true, List.all_eq_true] at safe
  have inside : '/' ∈ beforeEnd name.toList := by
    unfold beforeEnd
    split_ifs with ends
    · have split := List.dropLast_append_getLast? '\n' ends
      rw [← split] at member
      rcases List.mem_append.mp member with here | last
      · exact here
      · exact absurd (List.mem_singleton.mp last) (by decide)
    · exact member
  have allowed := safe.2 '/' inside
  revert allowed
  decide

theorem safe_ne_empty {name : String} (safe : isSafeName name = true) :
    name.toList ≠ [] := by
  intro empty
  rw [isSafeName, empty] at safe
  revert safe
  decide

/-- A name without a slash, read off what follows it. -/
theorem name_unique {left right leftRest rightRest : List Char}
    (leftBare : '/' ∉ left) (rightBare : '/' ∉ right)
    (same : left ++ '/' :: leftRest = right ++ '/' :: rightRest) :
    left = right ∧ leftRest = rightRest := by
  induction left generalizing right with
  | nil =>
      cases right with
      | nil => exact ⟨rfl, (List.cons.inj same).2⟩
      | cons character right =>
          have first : '/' = character := (List.cons.inj same).1
          exact absurd (first ▸ List.mem_cons_self) rightBare
  | cons character left induction =>
      cases right with
      | nil =>
          have first : character = '/' := (List.cons.inj same).1
          exact absurd (first ▸ List.mem_cons_self) leftBare
      | cons other right =>
          obtain ⟨first, rest⟩ := List.cons.inj same
          obtain ⟨names, rests⟩ := induction
            (fun member => leftBare (List.mem_cons_of_mem _ member))
            (fun member => rightBare (List.mem_cons_of_mem _ member)) rest
          exact ⟨by rw [first, names], rests⟩

theorem toList_structurePath (structure_id : String) :
    (structurePath structure_id).toList =
      "structures".toList ++ '/' :: structure_id.toList := by
  simp [structurePath, erStructuresPrefix]

/-- Below a structure is below no other. -/
theorem structure_unique {left right key : String}
    (leftSafe : isSafeName left = true) (rightSafe : isSafeName right = true)
    (belowLeft : Below (structurePath left) key)
    (belowRight : Below (structurePath right) key) : left = right := by
  obtain ⟨leftRest, leftShape⟩ := below_iff.mp belowLeft
  obtain ⟨rightRest, rightShape⟩ := below_iff.mp belowRight
  rw [toList_structurePath] at leftShape rightShape
  rw [leftShape] at rightShape
  simp only [List.append_assoc, List.cons_append] at rightShape
  have tails := List.append_cancel_left rightShape
  have same := name_unique (slash_not_mem_of_safe leftSafe)
    (slash_not_mem_of_safe rightSafe) (List.cons.inj tails).2
  exact String.toList_injective same.1

theorem below_structure_of_er {structure_id name key : String}
    (below : Below (erPath structure_id name) key) :
    Below (structurePath structure_id) key := by
  obtain ⟨rest, shape⟩ := below_iff.mp below
  apply below_iff.mpr
  refine ⟨"er/".toList ++ name.toList ++ '/' :: rest, ?_⟩
  rw [shape, erPath]
  simp

/-- No key of a structure is one of a pointer. -/
theorem not_below_current {structure_id key : String}
    (below : Below (structurePath structure_id) key) :
    ¬ Below erCurrentPrefix key := by
  intro current
  obtain ⟨rest, shape⟩ := below_iff.mp below
  obtain ⟨other, same⟩ := below_iff.mp current
  rw [toList_structurePath, same] at shape
  simp [erCurrentPrefix] at shape

theorem below_currentKey (name : String) :
    Below erCurrentPrefix (currentKey name) := by
  apply below_iff.mpr
  refine ⟨name.toList, ?_⟩
  simp [currentKey]

theorem rstripSlash_structurePath {structure_id : String}
    (safe : isSafeName structure_id = true) :
    Text.rstripSlash (structurePath structure_id) =
      structurePath structure_id := by
  have bare := slash_not_mem_of_safe safe
  have nonempty := safe_ne_empty safe
  apply String.toList_injective
  rw [Text.rstripSlash, String.toList_ofList, List.rdropWhile_eq_self_iff]
  intro some_char
  simp only [toList_structurePath]
  intro last
  have inside : (List.getLast ("structures".toList ++ '/' ::
      structure_id.toList) (by simp)) ∈ structure_id.toList := by
    rw [List.getLast_append_of_ne_nil (by simp) (by simp),
      List.getLast_cons nonempty]
    exact List.getLast_mem nonempty
  simp only [decide_eq_true_eq] at last
  rw [last] at inside
  exact bare inside

end Paths

section Objects

variable {store : Durable}

theorem object?_put_self (key : String) (data : Bytes) :
    (store.put key data).object? key = some data :=
  LocatorIndex.file?_write_self store.objects key data

theorem object?_put_of_ne {key other : String} (apart : other ≠ key)
    (data : Bytes) : (store.put key data).object? other = store.object? other :=
  LocatorIndex.file?_write_of_ne apart store.objects data

theorem isSome_put {key name : String} {data : Bytes}
    (there : (store.object? key).isSome = true) :
    ((store.put name data).object? key).isSome = true := by
  by_cases same : key = name
  · rw [same, object?_put_self]
    rfl
  · rw [object?_put_of_ne same]
    exact there

/-- Filtering the objects by their keys. -/
theorem object?_filter (keeps : String → Bool) (key : String) :
    Durable.object? ⟨store.objects.filter fun object => keeps object.1⟩ key =
      if keeps key then store.object? key else none := by
  unfold Durable.object?
  obtain ⟨objects⟩ := store
  dsimp only
  induction objects with
  | nil => simp
  | cons object objects induction =>
      by_cases same : object.1 = key
      · by_cases here : keeps key = true
        · simp [same, here]
        · simpa [same, here] using induction
      · by_cases here : keeps object.1 = true
        · simpa [same, here] using induction
        · simpa [same, here] using induction

theorem object?_delete_file (key other : String) :
    (store.delete_file key).object? other =
      if other = key then none else store.object? other := by
  have filtered := @object?_filter store (fun name => decide (name ≠ key)) other
  apply filtered.trans
  by_cases same : other = key
  · simp [same]
  · simp [same]

theorem object?_delete_dir (path key : String) :
    (store.delete_dir path).object? key =
      if Text.startsWith key (path ++ "/") then none
      else store.object? key := by
  have filtered := @object?_filter store
    (fun name => !Text.startsWith name (path ++ "/")) key
  apply filtered.trans
  by_cases below : Text.startsWith key (path ++ "/") = true
  · simp [below]
  · simp [below]

theorem mem_objects_of_object? {key : String} {data : Bytes}
    (found : store.object? key = some data) : (key, data) ∈ store.objects := by
  obtain ⟨object, located, same⟩ := Option.map_eq_some_iff.mp found
  have named : object.1 = key := by simpa using List.find?_some located
  have member := List.mem_of_find?_eq_some located
  rw [← named, ← same]
  exact member

theorem isSome_object? {key : String} :
    (store.object? key).isSome = true ↔
      key ∈ store.objects.map Prod.fst := by
  unfold Durable.object?
  rw [Option.isSome_map, List.find?_isSome]
  simp [eq_comm]

theorem below_of_mem {base key : String} (member : key ∈ store.below base) :
    Below base key := (List.mem_filter.mp member).2

theorem below_of_directory {base key path other : String}
    (member : path ∈ Durable.directories base key) (inside : Below path other) :
    Below base other := by
  obtain ⟨place, _, same⟩ := List.mem_map.mp member
  obtain ⟨rest, shape⟩ := below_iff.mp inside
  apply below_iff.mpr
  refine ⟨(Durable.relative base key).take place ++ '/' :: rest, ?_⟩
  rw [shape, ← same]
  simp

/-- What is deleted once a prefix is listed may be deleted before. -/
theorem may_of_prefixDeletions {structure_id key : String} {deletion : Deletion}
    (member : deletion ∈ prefixDeletions store structure_id)
    (may : deletion.May key) :
    (Deletion.prefix_list structure_id).May key := by
  unfold prefixDeletions at member
  dsimp only at member
  split_ifs at member with none
  · cases member
  · rcases List.mem_append.mp member with file | rest
    · obtain ⟨name, inside, same⟩ := List.mem_map.mp file
      rw [← same] at may
      have here : key = name := may
      rw [here]
      exact below_of_mem inside
    · rcases List.mem_append.mp rest with dir | base
      · obtain ⟨path, inside, same⟩ := List.mem_map.mp dir
        rw [← same] at may
        obtain ⟨file, _, between⟩ := List.mem_flatMap.mp
          (List.mem_dedup.mp (List.mem_mergeSort.mp inside))
        exact below_of_directory between may
      · rw [List.mem_singleton.mp base] at may
        exact may

end Objects

section Pointers

variable {bucket : String}

theorem readJson_pointerPayload (uri structure_id name : String) :
    readJson (pointerPayload uri structure_id name) =
      .ok (pointer uri structure_id name) := by
  have valid : (pointer uri structure_id name).wellFormed = true := by
    simp [pointer, Json.wellFormed, Json.wellFormedFields]
  have read := Json.loads_decode_dumps .compact valid []
    (fun character member => by cases member)
  rw [List.append_nil] at read
  obtain ⟨text, decoded, loaded⟩ := Option.bind_eq_some_iff.mp read
  simp only [readJson, readText, pointerPayload, decoded, loaded, bind,
    Except.bind]

theorem pointer_structure_id_pointer (uri : String) {structure_id : String}
    (safe : isSafeName structure_id = true) (name : String) :
    pointer_structure_id (pointer uri structure_id name) =
      .ok (some (.str structure_id)) := by
  have nonempty : structure_id ≠ "" := by
    intro empty
    exact safe_ne_empty safe (by rw [empty]; rfl)
  simp [pointer_structure_id, pointer, Json.getKey, Json.truthy, nonempty,
    bind, Except.bind]

theorem relative_currentKey (name : String) :
    Durable.relative erCurrentPrefix (currentKey name) = name.toList := by
  have shape : (currentKey name).toList =
      (erCurrentPrefix ++ "/").toList ++ name.toList := by
    rw [currentKey, String.toList_append]
  rw [Durable.relative, shape, List.drop_left]

/-- The listing names every pointer. -/
theorem mem_list_er_current_pointers {store : Durable} {pointers : Fields}
    {structure_id name : String} (listed : list_er_current_pointers store =
      .ok pointers) (points : Points bucket store structure_id name) :
    (name, pointer (erUri bucket structure_id name) structure_id name) ∈
      pointers := by
  have member : (currentKey name, pointerPayload
      (erUri bucket structure_id name) structure_id name) ∈
        (store.objects.filter fun object =>
          Text.startsWith object.1 (erCurrentPrefix ++ "/")).filter
            fun object => !(Durable.relative erCurrentPrefix
              object.1).contains '/' && isSafeName (String.ofList
                (Durable.relative erCurrentPrefix object.1)) := by
    apply List.mem_filter.mpr
    constructor
    · apply List.mem_filter.mpr
      exact ⟨mem_objects_of_object? points.stored, below_currentKey name⟩
    · have bare := slash_not_mem_of_safe points.name_safe
      rw [relative_currentKey, String.ofList_toList, points.name_safe]
      simpa using bare
  obtain ⟨result, inside, read⟩ := Raised.mapM_returns listed member
  rw [readJson_pointerPayload] at read
  have same := Except.ok.inj read
  rw [relative_currentKey, String.ofList_toList] at same
  rw [same]
  exact inside

theorem mem_referencedIds {pointers : Fields} {referenced : List Json}
    {uri structure_id name : String} (safe : isSafeName structure_id = true)
    (member : (name, pointer uri structure_id name) ∈ pointers)
    (read : referencedIds pointers = .ok referenced) :
    Json.str structure_id ∈ referenced := by
  obtain ⟨ids, found, same⟩ := Raised.bind_returns read
  cases same
  obtain ⟨id, inside, is⟩ := Raised.mapM_returns found member
  rw [pointer_structure_id_pointer uri safe] at is
  cases is
  have nonempty : structure_id ≠ "" := by
    intro empty
    exact safe_ne_empty safe (by rw [empty]; rfl)
  apply List.mem_filter.mpr
  constructor
  · exact List.mem_filterMap.mpr ⟨_, inside, rfl⟩
  · simpa [Json.truthy] using nonempty

theorem mem_pointingNames {pointers : Fields} {names : List String}
    {uri structure_id name : String} (safe : isSafeName structure_id = true)
    (member : (name, pointer uri structure_id name) ∈ pointers)
    (read : pointingNames structure_id pointers = .ok names) :
    name ∈ names := by
  induction pointers generalizing names with
  | nil => cases member
  | cons field pointers induction =>
      obtain ⟨first, ptr⟩ := field
      rw [pointingNames] at read
      obtain ⟨id, here, read⟩ := Raised.bind_returns read
      obtain ⟨rest, later, read⟩ := Raised.bind_returns read
      cases read
      rcases List.mem_cons.mp member with same | member
      · cases same
        rw [pointer_structure_id_pointer uri safe] at here
        cases here
        rw [if_pos rfl]
        exact List.mem_cons_self
      · have inside := induction member later
        split_ifs
        · exact List.mem_cons_of_mem _ inside
        · exact inside

end Pointers

section Deleting

variable {store : Durable}

/-- One deletion: it removes nothing it may not delete, adds nothing, and leaves
the call with nothing more it may delete. -/
theorem delete_cases (candidates : List String) (deletions : List Deletion)
    (deletion : Deletion) :
    (∀ key, ¬ deletion.May key →
      (ErThread.delete store candidates deletions deletion).2.object? key =
        store.object? key) ∧
    (∀ key, (ErThread.delete store candidates deletions deletion).2.object?
      key = none ∨
      (ErThread.delete store candidates deletions deletion).2.object? key =
        store.object? key) ∧
    ((ErThread.delete store candidates deletions deletion).1 = .finished ∨
      ∃ left, (ErThread.delete store candidates deletions deletion).1 =
        .deleting candidates left ∧
        ∀ other ∈ left, ∀ key, other.May key →
          ∃ before ∈ deletion :: deletions, before.May key) := by
  have rest : ∀ other ∈ deletions, ∀ key, Deletion.May other key →
      ∃ before ∈ deletion :: deletions, before.May key :=
    fun other member key may => ⟨other, List.mem_cons_of_mem _ member, may⟩
  cases deletion with
  | prefix_list structure_id =>
      refine ⟨fun _ _ => rfl, fun _ => .inr rfl, .inr ⟨_, rfl, ?_⟩⟩
      intro other member key may
      rcases List.mem_append.mp member with new | old
      · exact ⟨_, List.mem_cons_self, may_of_prefixDeletions new may⟩
      · exact rest other old key may
  | file name =>
      by_cases there : (store.object? name).isSome = true
      · have deleted : ErThread.delete store candidates deletions
            (.file name) = (.deleting candidates deletions,
              store.delete_file name) := if_pos there
        rw [deleted]
        refine ⟨?_, ?_, .inr ⟨deletions, rfl, rest⟩⟩
        · intro key apart
          rw [object?_delete_file]
          exact if_neg apart
        · intro key
          rw [object?_delete_file]
          split_ifs
          · exact .inl rfl
          · exact .inr rfl
      · have gone : ErThread.delete store candidates deletions (.file name) =
            (.finished, store) := if_neg there
        rw [gone]
        exact ⟨fun _ _ => rfl, fun _ => .inr rfl, .inl rfl⟩
  | dir path =>
      refine ⟨?_, ?_, .inr ⟨deletions, rfl, rest⟩⟩
      · intro key outside
        rw [ErThread.delete, object?_delete_dir]
        exact if_neg outside
      · intro key
        rw [ErThread.delete, object?_delete_dir]
        split_ifs
        · exact .inl rfl
        · exact .inr rfl
  | pointer name =>
      refine ⟨?_, ?_, .inr ⟨deletions, rfl, rest⟩⟩
      · intro key apart
        rw [ErThread.delete, object?_delete_file]
        exact if_neg apart
      · intro key
        rw [ErThread.delete, object?_delete_file]
        split_ifs
        · exact .inl rfl
        · exact .inr rfl

end Deleting

section Invariant

variable (bucket : String)

/-- A call that is not forced. -/
def ErCall.Unforced : ErCall → Prop
  | .gc _ _ force => force = false
  | _ => True

/-- What a call writes and deletes is where it should be. -/
def ErThread.Confined : ErThread → Prop
  | .writing objects => ∀ object ∈ objects,
      ∃ structure_id, Below (structurePath structure_id) object.1
  | .promoting uri structure_id name => isSafeName structure_id = true ∧
      isSafeName name = true ∧ uri = erUri bucket structure_id name
  | .starting _ _ force => force = false
  | .deleting candidates deletions => ∀ deletion ∈ deletions, ∀ key,
      deletion.May key →
        ∃ structure_id ∈ candidates, Below (structurePath structure_id) key
  | _ => True

/-- No pointer dangles and no call is about to make one dangle. -/
structure Sound (calls : ErCalls) : Prop where
  confined : ∀ thread ∈ calls.threads, thread.Confined bucket
  pointers : ∀ key data, calls.store.object? key = some data →
    Below erCurrentPrefix key → ∃ structure_id name,
      isSafeName structure_id = true ∧ isSafeName name = true ∧
        key = currentKey name ∧
        data = pointerPayload (erUri bucket structure_id name) structure_id name
  kept : ∀ key, Current bucket calls.store key → WasPut calls key →
    (calls.store.object? key).isSome = true
  spared : ∀ key, Current bucket calls.store key →
    ∀ thread ∈ calls.threads, ¬ thread.MayDelete key

variable {bucket}

theorem er_prefix_ok {structure_id name path : String}
    (made : er_prefix structure_id name = .ok path) :
    isSafeName structure_id = true ∧ isSafeName name = true ∧
      path = erPath structure_id name := by
  obtain ⟨_, first, made⟩ := Raised.bind_returns made
  obtain ⟨_, second, made⟩ := Raised.bind_returns made
  cases made
  unfold validate_structure_id at first
  unfold validate_er_name at second
  split_ifs at first second with safe named
  exact ⟨safe, named, rfl⟩

theorem confined_start {call : ErCall} (unforced : call.Unforced) :
    (ErThread.start bucket call).Confined bucket := by
  cases call with
  | write structure_id name files =>
      cases made : er_prefix structure_id name with
      | error raised =>
          simp only [ErThread.start, made]
          trivial
      | ok path =>
          simp only [ErThread.start, made]
          intro object member
          obtain ⟨file, _, same⟩ := List.mem_map.mp member
          refine ⟨structure_id, ?_⟩
          rw [← same, (er_prefix_ok made).2.2]
          have below : Below (erPath structure_id name)
              (erPath structure_id name ++ "/" ++ file.1) :=
            below_iff.mpr ⟨file.1.toList, by simp⟩
          exact below_structure_of_er below
  | promote structure_id name =>
      cases made : er_uri bucket structure_id name with
      | error raised =>
          simp only [ErThread.start, made]
          trivial
      | ok uri =>
          simp only [ErThread.start, made]
          obtain ⟨path, whole, same⟩ := Raised.bind_returns made
          obtain ⟨safe, named, is⟩ := er_prefix_ok whole
          cases same
          exact ⟨safe, named, by rw [is, erUri]⟩
  | gc delete structure_id force => exact unforced

variable {calls : ErCalls}

theorem wasPut_append {trace : List (Nat × ErEvent)} {place : Nat}
    {event : ErEvent} {key : String}
    (put : ∃ index, (index, ErEvent.put key) ∈ trace ++ [(place, event)]) :
    (∃ index, (index, ErEvent.put key) ∈ trace) ∨ event = .put key := by
  obtain ⟨index, member⟩ := put
  rcases List.mem_append.mp member with old | new
  · exact .inl ⟨index, old⟩
  · have same := List.mem_singleton.mp new
    rw [Prod.mk.injEq] at same
    exact .inr same.2.symm

/-- A step keeps the invariant when the call that takes it is still confined and
about to delete nothing current. -/
theorem Sound.step {index : Nat} {next : ErThread} {store : Durable}
    {event : ErEvent} (sound : Sound bucket calls)
    (confined : next.Confined bucket)
    (pointers : ∀ key data, store.object? key = some data →
      Below erCurrentPrefix key → ∃ structure_id name,
        isSafeName structure_id = true ∧ isSafeName name = true ∧
          key = currentKey name ∧ data =
            pointerPayload (erUri bucket structure_id name) structure_id name)
    (kept : ∀ key, Current bucket store key →
      WasPut calls key ∨ event = .put key → (store.object? key).isSome = true)
    (spared : ∀ key, Current bucket store key →
      (∀ thread ∈ calls.threads, ¬ thread.MayDelete key) ∧
        ¬ next.MayDelete key) :
    Sound bucket
      { threads := calls.threads.set index next
        store := store
        trace := calls.trace ++ [(index, event)] } := by
  constructor
  · intro thread member
    rcases List.mem_or_eq_of_mem_set member with old | new
    · exact sound.confined thread old
    · rw [new]
      exact confined
  · exact pointers
  · intro key current put
    exact kept key current (wasPut_append put)
  · intro key current thread member
    rcases List.mem_or_eq_of_mem_set member with old | new
    · exact (spared key current).1 thread old
    · rw [new]
      exact (spared key current).2

/-- A step that writes no pointer and removes nothing current keeps the
invariant when it leaves the call with nothing more it may delete. -/
theorem Sound.quiet {index : Nat} {thread next : ErThread} {store : Durable}
    {event : ErEvent} (sound : Sound bucket calls)
    (found : calls.threads[index]? = some thread)
    (confined : next.Confined bucket)
    (fewer : ∀ key, Below erCurrentPrefix key →
      store.object? key = none ∨
        store.object? key = calls.store.object? key)
    (kept : ∀ key, ¬ thread.MayDelete key →
      (calls.store.object? key).isSome = true ∨ event = .put key →
        (store.object? key).isSome = true)
    (less : ∀ key, Current bucket calls.store key → ¬ thread.MayDelete key →
      ¬ next.MayDelete key) :
    Sound bucket
      { threads := calls.threads.set index next
        store := store
        trace := calls.trace ++ [(index, event)] } := by
  have before : ∀ key, Current bucket store key →
      Current bucket calls.store key := by
    intro key current
    obtain ⟨structure_id, name, points, below⟩ := current
    refine ⟨structure_id, name,
      ⟨points.structure_safe, points.name_safe, ?_⟩, below⟩
    have stored := points.stored
    rcases fewer _ (below_currentKey name) with gone | same
    · rw [gone] at stored
      cases stored
    · rw [← same]
      exact stored
  have member := List.mem_of_getElem? found
  apply sound.step confined
  · intro key data stored below
    rcases fewer key below with gone | same
    · rw [gone] at stored
      cases stored
    · rw [same] at stored
      exact sound.pointers key data stored below
  · intro key current put
    have safe := sound.spared key (before key current) thread member
    apply kept key safe
    rcases put with old | new
    · exact .inl (sound.kept key (before key current) old)
    · exact .inr new
  · intro key current
    have was := before key current
    exact ⟨sound.spared key was,
      less key was (sound.spared key was thread member)⟩

theorem payload_injective {uri other left right name title : String}
    (same : pointerPayload uri left name = pointerPayload other right title) :
    left = right := by
  have read := readJson_pointerPayload uri left name
  rw [same, readJson_pointerPayload] at read
  have values := Except.ok.inj read
  simp only [pointer, Json.obj.injEq, List.cons.injEq, Prod.mk.injEq,
    Json.str.injEq, true_and, and_true] at values
  exact values.2.1.symm

theorem currentKey_injective {left right : String}
    (same : currentKey left = currentKey right) : left = right := by
  apply String.toList_injective
  rw [← relative_currentKey left, same, relative_currentKey right]

/-- Listing the pointers leaves a call that may delete nothing current. -/
theorem listed_spares {pointers : Fields} {delete : Bool}
    {structure_id : Option String} {next : ErThread}
    (found : list_er_current_pointers calls.store = .ok pointers)
    (made : ErThread.listed pointers delete structure_id false = .ok next) :
    next.Confined bucket ∧ ∀ key, Current bucket calls.store key →
      ¬ next.MayDelete key := by
  obtain ⟨referenced, ids, made⟩ := Raised.bind_returns made
  cases structure_id with
  | none =>
      cases made
      refine ⟨trivial, ?_⟩
      intro key current may
      obtain ⟨id, name, points, below⟩ := current
      obtain ⟨_, other, safe, unlisted, inside⟩ := may
      have same := structure_unique points.structure_safe safe
        (below_structure_of_er below) inside
      rw [← same] at unlisted
      exact unlisted (mem_referencedIds points.structure_safe
        (mem_list_er_current_pointers found points) ids)
  | some structure_id =>
      obtain ⟨_, valid, made⟩ := Raised.bind_returns made
      obtain ⟨pointing, names, made⟩ := Raised.bind_returns made
      have safe : isSafeName structure_id = true := by
        unfold validate_structure_id at valid
        split_ifs at valid with safe
        exact safe
      by_cases named : pointing = []
      · rw [named] at made names
        cases delete with
        | false =>
            cases made
            constructor
            · intro deletion member
              cases member
            · intro key _ may
              obtain ⟨deletion, member, _⟩ := may
              cases member
        | true =>
            cases made
            have reaches : ∀ key,
                (Deletion.prefix_list structure_id).May key →
                  Below (structurePath structure_id) key := by
              intro key may
              rw [Deletion.May, rstripSlash_structurePath safe] at may
              exact may
            constructor
            · intro deletion member key may
              rw [List.mem_singleton.mp member] at may
              exact ⟨structure_id, List.mem_cons_self, reaches key may⟩
            · intro key current may
              obtain ⟨deletion, member, may⟩ := may
              rw [List.mem_singleton.mp member] at may
              obtain ⟨id, name, points, below⟩ := current
              have same := structure_unique points.structure_safe safe
                (below_structure_of_er below) (reaches key may)
              have listed := mem_list_er_current_pointers found points
              rw [same] at listed
              have inside := mem_pointingNames safe listed names
              cases inside
      · rw [if_pos ⟨named, rfl⟩] at made
        cases made

/-- Putting an object of a structure. -/
theorem Sound.put {index : Nat} {key : String} {data : Bytes}
    {objects : List (String × Bytes)} (sound : Sound bucket calls)
    (found : calls.threads[index]? = some (.writing ((key, data) :: objects))) :
    Sound bucket
      { threads := calls.threads.set index (.writing objects)
        store := calls.store.put key data
        trace := calls.trace ++ [(index, .put key)] } := by
  have confined := sound.confined _ (List.mem_of_getElem? found)
  obtain ⟨structure_id, below⟩ := confined _ List.mem_cons_self
  apply sound.quiet found
  · exact fun object member => confined object (List.mem_cons_of_mem _ member)
  · intro other current
    right
    apply object?_put_of_ne
    intro same
    rw [same] at current
    exact not_below_current below current
  · intro other _ put
    by_cases same : other = key
    · rw [same, object?_put_self]
      rfl
    · rw [object?_put_of_ne same]
      rcases put with old | new
      · exact old
      · exact absurd (ErEvent.put.inj new).symm same
  · exact fun other _ _ may => may

/-- Promoting a pointer to a prefix that is whole. -/
theorem Sound.promote {index : Nat} {structure_id name : String}
    (sound : Sound bucket calls) (safe : isSafeName structure_id = true)
    (named : isSafeName name = true) (whole : Whole calls structure_id name) :
    Sound bucket
      { threads := calls.threads.set index .finished
        store := calls.store.put (currentKey name) (pointerPayload
          (erUri bucket structure_id name) structure_id name)
        trace := calls.trace ++ [(index, .promoted structure_id name)] } := by
  have apart : ∀ {id title key}, Below (erPath id title) key →
      key ≠ currentKey name := by
    intro id title key below same
    apply not_below_current (below_structure_of_er below)
    rw [same]
    exact below_currentKey name
  -- a pointer is the one promoted or one that was there
  have points : ∀ id title, Points bucket (calls.store.put (currentKey name)
      (pointerPayload (erUri bucket structure_id name) structure_id name))
        id title →
      id = structure_id ∧ title = name ∨ Points bucket calls.store id title := by
    intro id title points
    have stored := points.stored
    by_cases same : title = name
    · left
      rw [same, object?_put_self, Option.some.injEq] at stored
      exact ⟨(payload_injective stored).symm, same⟩
    · right
      rw [object?_put_of_ne (fun keys => same (currentKey_injective keys))]
        at stored
      exact ⟨points.structure_safe, points.name_safe, stored⟩
  have idle : ErThread.finished.Confined bucket := trivial
  apply sound.step idle
  · intro key data stored below
    by_cases same : key = currentKey name
    · rw [same, object?_put_self, Option.some.injEq] at stored
      exact ⟨structure_id, name, safe, named, same, stored.symm⟩
    · rw [object?_put_of_ne same] at stored
      exact sound.pointers key data stored below
  · intro key current put
    obtain ⟨id, title, pointing, below⟩ := current
    rw [object?_put_of_ne (apart below)]
    rcases put with put | event
    · rcases points id title pointing with ⟨sameId, sameName⟩ | before
      · rw [sameId, sameName] at below
        exact (whole key below).1 put
      · exact sound.kept key ⟨id, title, before, below⟩ put
    · cases event
  · intro key current
    obtain ⟨id, title, pointing, below⟩ := current
    refine ⟨?_, fun may => may⟩
    rcases points id title pointing with ⟨sameId, sameName⟩ | before
    · rw [sameId, sameName] at below
      exact (whole key below).2
    · exact sound.spared key ⟨id, title, before, below⟩

/-- Listing the structures leaves a call that may delete no more. -/
theorem Sound.sweep {index : Nat} {delete : Bool} {referenced : List Json}
    (sound : Sound bucket calls)
    (found : calls.threads[index]? = some (.sweeping delete referenced)) :
    Sound bucket
      { threads := calls.threads.set index (.deleting
          ((list_structure_ids calls.store).filter fun id =>
            !referenced.contains (.str id))
          (if delete then ((list_structure_ids calls.store).filter fun id =>
            !referenced.contains (.str id)).map .prefix_list else []))
        store := calls.store
        trace := calls.trace ++ [(index, .collecting)] } := by
  have candidates : ∀ id ∈ (list_structure_ids calls.store).filter fun id =>
      !referenced.contains (.str id), isSafeName id = true ∧
        Json.str id ∉ referenced := by
    intro id member
    obtain ⟨listed, unnamed⟩ := List.mem_filter.mp member
    constructor
    · exact (List.mem_filter.mp (List.mem_dedup.mp
        (List.mem_mergeSort.mp listed))).2
    · simpa using unnamed
  have reaches : ∀ deletion ∈ (if delete then
      ((list_structure_ids calls.store).filter fun id =>
        !referenced.contains (.str id)).map Deletion.prefix_list else []),
      ∀ key, deletion.May key → delete = true ∧
        ∃ id ∈ (list_structure_ids calls.store).filter fun id =>
          !referenced.contains (.str id), Below (structurePath id) key := by
    intro deletion member key may
    split_ifs at member with deletes
    · obtain ⟨id, inside, same⟩ := List.mem_map.mp member
      rw [← same, Deletion.May,
        rstripSlash_structurePath (candidates id inside).1] at may
      exact ⟨deletes, id, inside, may⟩
    · cases member
  apply sound.quiet found
  · exact fun deletion member key may => (reaches deletion member key may).2
  · exact fun key _ => .inr rfl
  · intro key _ put
    rcases put with old | new
    · exact old
    · cases new
  · intro key _ spared may
    obtain ⟨deletion, member, may⟩ := may
    obtain ⟨deletes, id, inside, below⟩ := reaches deletion member key may
    obtain ⟨safe, unnamed⟩ := candidates id inside
    exact spared ⟨deletes, id, safe, unnamed, below⟩

/-- A deletion removes nothing current. -/
theorem Sound.delete {index : Nat} {candidates : List String}
    {deletion : Deletion} {deletions : List Deletion}
    (sound : Sound bucket calls) (found : calls.threads[index]? =
      some (.deleting candidates (deletion :: deletions))) :
    Sound bucket
      { threads := calls.threads.set index (ErThread.delete calls.store
          candidates deletions deletion).1
        store := (ErThread.delete calls.store candidates deletions deletion).2
        trace := calls.trace ++ [(index, .collecting)] } := by
  have confined := sound.confined _ (List.mem_of_getElem? found)
  obtain ⟨keeps, fewer, left⟩ :=
    @delete_cases calls.store candidates deletions deletion
  apply sound.quiet found
  · rcases left with done | ⟨rest, same, covered⟩
    · rw [done]
      trivial
    · rw [same]
      intro other member key may
      obtain ⟨before, inside, also⟩ := covered other member key may
      exact confined before inside key also
  · exact fun key _ => fewer key
  · intro key spared put
    rw [keeps key fun may => spared ⟨deletion, List.mem_cons_self, may⟩]
    rcases put with old | new
    · exact old
    · cases new
  · intro key _ spared
    rcases left with done | ⟨rest, same, covered⟩
    · rw [done]
      exact fun may => may
    · rw [same]
      intro may
      obtain ⟨other, member, may⟩ := may
      exact spared (covered other member key may)

/-- A turn keeps the invariant, if the pointer it promotes is to a prefix that
is whole. -/
theorem Sound.advance (sound : Sound bucket calls) (index : Nat)
    (whole : ∀ uri structure_id name, calls.threads[index]? =
      some (.promoting uri structure_id name) →
        Whole calls structure_id name) :
    Sound bucket (calls.advance ErThread.step index) := by
  have turn := @Pool.advance_cases _ _ _ ErThread.step calls index
  rcases turn with same | ⟨thread, event, next, store, found, stepped, same⟩
  · rw [same]
    exact sound
  rw [same]
  have member := List.mem_of_getElem? found
  have confined := sound.confined thread member
  cases thread with
  | writing objects =>
      cases objects with
      | nil => cases stepped
      | cons object objects =>
          cases stepped
          exact sound.put found
  | promoting uri structure_id name =>
      obtain ⟨safe, named, is⟩ := confined
      have keyed : pointer_key name = .ok (currentKey name) := by
        simp [pointer_key, validate_er_name, named, currentKey, bind,
          Except.bind]
      simp only [ErThread.step, keyed] at stepped
      cases stepped
      rw [is]
      exact sound.promote safe named (whole uri structure_id name found)
  | starting delete structure_id force =>
      have unforced : force = false := confined
      rw [unforced] at stepped
      have listing : event = .collecting ∧ store = calls.store ∧
          (next = .finished ∨ ∃ pointers,
            list_er_current_pointers calls.store = .ok pointers ∧
              ErThread.listed pointers delete structure_id false =
                .ok next) := by
        unfold ErThread.step at stepped
        dsimp only at stepped
        split at stepped
        · cases stepped
          exact ⟨rfl, rfl, .inl rfl⟩
        · next pointers listed =>
            split at stepped
            · cases stepped
              exact ⟨rfl, rfl, .inl rfl⟩
            · next made =>
                cases stepped
                exact ⟨rfl, rfl, .inr ⟨pointers, listed, made⟩⟩
      obtain ⟨isEvent, isStore, after⟩ := listing
      have spares : next.Confined bucket ∧
          ∀ key, Current bucket calls.store key → ¬ next.MayDelete key := by
        rcases after with done | ⟨pointers, listed, made⟩
        · rw [done]
          exact ⟨trivial, fun _ _ may => may⟩
        · exact listed_spares listed made
      rw [isEvent, isStore]
      apply sound.quiet found spares.1
      · exact fun key _ => .inr rfl
      · intro key _ put
        rcases put with old | new
        · exact old
        · cases new
      · exact fun key current _ => spares.2 key current
  | sweeping delete referenced =>
      cases stepped
      exact sound.sweep found
  | deleting candidates deletions =>
      cases deletions with
      | nil => cases stepped
      | cons deletion deletions =>
          cases stepped
          exact sound.delete found
  | finished => cases stepped

/-- Nothing dangles where no call is about to make a pointer dangle. -/
theorem Sound.noDangling (sound : Sound bucket calls) :
    NoDangling bucket calls := by
  intro name named there
  obtain ⟨data, stored⟩ := Option.isSome_iff_exists.mp there
  obtain ⟨structure_id, title, safe, _, sameKey, payload⟩ :=
    sound.pointers _ data stored (below_currentKey name)
  have sameName := currentKey_injective sameKey
  rw [← sameName] at payload
  refine ⟨structure_id, safe, ?_, ?_⟩
  · simp only [resolve_er_pointer, pointer_key, validate_er_name, named, if_true,
      bind, Except.bind]
    rw [show erCurrentPrefix ++ "/" ++ name = currentKey name from rfl, stored,
      payload]
    simp only [readJson_pointerPayload]
    rfl
  · intro key below put
    apply sound.kept key ⟨structure_id, name, ⟨safe, named, ?_⟩, below⟩ put
    rw [stored, payload]

/-- A call that removes an object is one that deletes, below a candidate. -/
theorem Sound.deletesCandidates (sound : Sound bucket calls) :
    DeletesCandidates calls := by
  intro index key there gone
  have turn := @Pool.advance_cases _ _ _ ErThread.step calls index
  rcases turn with same | ⟨thread, event, next, store, found, stepped, same⟩
  · rw [same] at gone
    rw [gone] at there
    cases there
  rw [same] at gone
  have confined := sound.confined thread (List.mem_of_getElem? found)
  have removed : (store.object? key).isSome = true ∨
      ∃ candidates deletion deletions,
        thread = .deleting candidates (deletion :: deletions) ∧
          deletion.May key := by
    cases thread with
    | writing objects =>
        cases objects with
        | nil => cases stepped
        | cons object objects =>
            cases stepped
            exact .inl (isSome_put there)
    | promoting uri structure_id name =>
        unfold ErThread.step at stepped
        dsimp only at stepped
        split at stepped
        · cases stepped
        · cases stepped
          exact .inl (isSome_put there)
    | starting delete structure_id force =>
        unfold ErThread.step at stepped
        dsimp only at stepped
        split at stepped
        · cases stepped
          exact .inl there
        · split at stepped
          · cases stepped
            exact .inl there
          · cases stepped
            exact .inl there
    | sweeping delete referenced =>
        cases stepped
        exact .inl there
    | deleting candidates deletions =>
        cases deletions with
        | nil => cases stepped
        | cons deletion deletions =>
            cases stepped
            have keeps := (@delete_cases calls.store candidates deletions
              deletion).1 key
            by_cases may : deletion.May key
            · exact .inr ⟨candidates, deletion, deletions, rfl, may⟩
            · exact .inl ((congrArg Option.isSome (keeps may)).trans there)
    | finished => cases stepped
  rcases removed with kept | ⟨candidates, deletion, deletions, is, may⟩
  · rw [show store.object? key = none from gone] at kept
    cases kept
  · rw [is] at found confined
    exact ⟨candidates, _, found,
      confined deletion List.mem_cons_self key may⟩

/-- Calls that have done nothing yet. -/
theorem sound_start {requests : List ErCall}
    (unforced : ∀ call ∈ requests, call.Unforced) :
    Sound bucket
      (Pool.start (requests.map (ErThread.start bucket)) .empty) := by
  have empty : ∀ key, Durable.empty.object? key = none := fun key => rfl
  constructor
  · intro thread member
    obtain ⟨call, inside, same⟩ := List.mem_map.mp member
    rw [← same]
    exact confined_start (unforced call inside)
  · intro key data stored
    have nothing : Durable.empty.object? key = some data := stored
    rw [empty] at nothing
    cases nothing
  · intro key current put
    obtain ⟨place, member⟩ := put
    cases member
  · intro key current
    obtain ⟨structure_id, name, points, _⟩ := current
    have stored := points.stored
    cases stored

end Invariant

/-- One turn more of a run whose pointers are promoted to whole prefixes. -/
theorem PromotesWhole.snoc {bucket : String} {calls : List ErCall}
    {schedule : List Nat} (whole : PromotesWhole bucket calls schedule)
    {index : Nat} (last : ∀ uri structure_id name,
      (erRun bucket calls schedule).threads[index]? =
        some (.promoting uri structure_id name) →
      Whole (erRun bucket calls schedule) structure_id name) :
    PromotesWhole bucket calls (schedule ++ [index]) := by
  intro before turn after uri structure_id name split found
  rcases List.eq_nil_or_concat after with none | ⟨front, final, same⟩
  · rw [none] at split
    obtain ⟨sameBefore, sameTurn⟩ := List.append_inj' split rfl
    rw [← sameBefore, ← List.singleton_inj.mp sameTurn] at found
    rw [← sameBefore]
    exact last uri structure_id name found
  · rw [same, List.concat_eq_append, ← List.cons_append,
      ← List.append_assoc] at split
    obtain ⟨sameFront, _⟩ := List.append_inj' split rfl
    exact whole before turn front uri structure_id name sameFront found

/-- A relationship of one object, promoted, and the collection of its structure.
-/
def collectedCalls : List ErCall :=
  [.write "A" "edges" [("x", [0])], .promote "A" "edges",
    .gc true (some "A") false]

theorem unforced_collectedCalls : ∀ call ∈ collectedCalls, call.Unforced := by
  intro call member
  rcases List.mem_cons.mp member with same | member
  · rw [same]
    trivial
  · rcases List.mem_cons.mp member with same | member
    · rw [same]
      trivial
    · rw [List.mem_singleton.mp member]
      rfl

end ObjStore

end Cats
