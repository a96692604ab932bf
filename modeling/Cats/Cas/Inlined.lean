import Cats.Cas.FlattenRefs

/-!
# What flattening keeps

What a flattened value must keep is stated dict by dict: slots that are not
expanded keep their URI, other keys keep their value, and only expanded slots
change their stem and drop what stood beside it.  Flattening keeps all of it
exactly where no slot that stays has a key beside it that is named like its
stem or its CID.
-/

namespace Cats

namespace FlattenRefs

open Effect
open Fields (get?_of_mem mem_of_get? mem_keys_of_get? exists_get?_of_mem_keys)

/-- Neither a list nor a dict. -/
def IsScalar : Json → Prop
  | .arr _ => False
  | .obj _ => False
  | _ => True

/-- A value whose dicts have distinct keys, as every dict has. -/
inductive Distinct : Json → Prop where
  | scalar {value : Json} : IsScalar value → Distinct value
  | arr {items : List Json} :
      (∀ item ∈ items, Distinct item) → Distinct (.arr items)
  | obj {obj : Fields} : obj.keys.Nodup →
      (∀ field ∈ obj, Distinct field.2) → Distinct (.obj obj)

/-- The slots of a dict, whatever their stems. -/
def slotsOf (obj : Fields) : List Slot :=
  obj.filterMap fun field => slot? field.1 field.2

section

variable (allow : Option (List String))
  (fetch : String → String → Except Raised Json)

/-- A slot that is expanded: its stem is allowed, expansions are left, and its
URI is not on the path. -/
def Expands (max_depth : Nat) (visited : List String) (slot : Slot) : Prop :=
  allowed allow slot.stem = true ∧ 0 < max_depth ∧ slot.uri ∉ visited

/-- The value a slot keeps when it is not expanded: its URI, without the spaces
around it where its stem is allowed. -/
def kept (obj : Fields) (slot : Slot) : Option Json :=
  if allowed allow slot.stem = true then some (.str slot.uri)
  else obj.get? slot.key

/-- A key that an expanded slot may replace or drop. -/
def Replaced (max_depth : Nat) (visited : List String) (obj : Fields)
    (key : String) : Prop :=
  ∃ slot ∈ slotsOf obj, Expands allow max_depth visited slot ∧
    (key = slot.stem ∨ key = slot.cid)

/-- What a flattened value has to be, `max_depth` expansions deep and below the
URIs gone through. -/
inductive Inlined : Nat → List String → Json → Json → Prop where
  | scalar {max_depth : Nat} {visited : List String} {value : Json} :
      IsScalar value → Inlined max_depth visited value value
  | arr {max_depth : Nat} {visited : List String} {items results : List Json} :
      items.length = results.length →
      (∀ (place : Nat) (item result : Json), items[place]? = some item →
        results[place]? = some result →
          Inlined max_depth visited item result) →
      Inlined max_depth visited (.arr items) (.arr results)
  | obj {max_depth : Nat} {visited : List String} {obj out : Fields}
      (slots : ∀ slot ∈ slotsOf obj, ¬ Expands allow max_depth visited slot →
        out.get? slot.key = kept allow obj slot)
      (present : ∀ key value, obj.get? key = some value →
        (∀ slot ∈ slotsOf obj, slot.key ≠ key) →
        ¬ Replaced allow max_depth visited obj key →
          ∃ result, out.get? key = some result)
      (others : ∀ key value result, obj.get? key = some value →
        (∀ slot ∈ slotsOf obj, slot.key ≠ key) →
        ¬ Replaced allow max_depth visited obj key →
        out.get? key = some result →
          Inlined max_depth visited value result)
      (fetched : ∀ slot ∈ slotsOf obj, Expands allow max_depth visited slot →
        ∃ payload result, fetch slot.stem slot.uri = .ok payload ∧
          out.get? slot.stem = some result)
      (inlined : ∀ slot ∈ slotsOf obj, Expands allow max_depth visited slot →
        ∀ payload result, fetch slot.stem slot.uri = .ok payload →
        out.get? slot.stem = some result →
          Inlined (max_depth - 1) (slot.uri :: visited) payload result)
      (dropped : ∀ slot ∈ slotsOf obj, Expands allow max_depth visited slot →
        ∀ key ∈ [slot.key, slot.cid], key ∈ out.keys →
          ∃ other ∈ slotsOf obj, Expands allow max_depth visited other ∧
            other.stem = key)
      (only : ∀ key ∈ out.keys, key ∈ obj.keys ∨
        ∃ slot ∈ slotsOf obj, Expands allow max_depth visited slot ∧
          slot.stem = key) :
      Inlined max_depth visited (.obj obj) (.obj out)

/-- Where nothing is lost: beside a slot that is not expanded there is no key
named like its stem or its CID that an expansion does not replace, and no
expansion overwrites such a slot with anything else. -/
inductive Lossless : Nat → List String → Json → Prop where
  | scalar {max_depth : Nat} {visited : List String} {value : Json} :
      IsScalar value → Lossless max_depth visited value
  | arr {max_depth : Nat} {visited : List String} {items : List Json} :
      (∀ item ∈ items, Lossless max_depth visited item) →
      Lossless max_depth visited (.arr items)
  | obj {max_depth : Nat} {visited : List String} {obj : Fields}
      (alone : ∀ slot ∈ uriByStem allow obj,
        ¬ Expands allow max_depth visited slot →
        ∀ key ∈ obj.keys, key = slot.stem ∨ key = slot.cid →
          (∃ other ∈ uriByStem allow obj, other.key = key) ∨
            Replaced allow max_depth visited obj key)
      (spared : ∀ slot ∈ slotsOf obj, ¬ Expands allow max_depth visited slot →
        ∀ other ∈ slotsOf obj, Expands allow max_depth visited other →
        other.stem = slot.key → ∀ payload,
          fetch other.stem other.uri = .ok payload →
            some payload = kept allow obj slot)
      (values : ∀ key value, obj.get? key = some value →
        isSkipped (uriByStem allow obj) key = false →
          Lossless max_depth visited value)
      (payloads : ∀ slot ∈ slotsOf obj, Expands allow max_depth visited slot →
        ∀ payload, fetch slot.stem slot.uri = .ok payload →
          Lossless (max_depth - 1) (slot.uri :: visited) payload) :
      Lossless max_depth visited (.obj obj)

end

section Slots

theorem stem?_eq_some_iff {key stem : String} :
    stem? key = some stem ↔ key = stem ++ "_uri" := by
  unfold stem?
  constructor
  · intro found
    split_ifs at found with ends
    obtain ⟨front, whole⟩ := Text.endsWith_iff.mp ends
    have taken := Option.some.inj found
    have length : key.toList.length - 4 = front.length := by
      rw [← whole, List.length_append]
      rfl
    rw [length, ← whole, List.take_left] at taken
    apply String.toList_injective
    rw [String.toList_append, ← taken, String.toList_ofList, whole]
  · intro same
    have ends : Text.endsWith key "_uri" = true := by
      rw [Text.endsWith_iff, same, String.toList_append]
      exact List.suffix_append _ _
    have length : key.toList.length - 4 = stem.toList.length := by
      rw [same, String.toList_append, List.length_append]
      rfl
    rw [if_pos ends, length, same, String.toList_append, List.take_left,
      String.ofList_toList]

theorem slot?_eq_some_iff {key : String} {value : Json} {slot : Slot} :
    slot? key value = some slot ↔ key = slot.key ∧
      ∃ text, value = .str text ∧ Text.strip text = slot.uri ∧
        slot.uri ≠ "" := by
  unfold slot?
  constructor
  · intro found
    split at found
    · next stem uri stemmed =>
        split_ifs at found with blank
        cases found
        exact ⟨stem?_eq_some_iff.mp stemmed, uri, rfl, rfl, blank⟩
    · cases found
  · intro shape
    obtain ⟨named, text, same, stripped, nonblank⟩ := shape
    have stemmed : stem? key = some slot.stem := stem?_eq_some_iff.mpr named
    rw [stemmed, same]
    simp only [stripped, nonblank, if_false]

theorem mem_slotsOf_iff {obj : Fields} {slot : Slot} :
    slot ∈ slotsOf obj ↔ ∃ text, (slot.key, Json.str text) ∈ obj ∧
      Text.strip text = slot.uri ∧ slot.uri ≠ "" := by
  rw [slotsOf, List.mem_filterMap]
  constructor
  · intro found
    obtain ⟨field, member, same⟩ := found
    obtain ⟨named, text, value, rest⟩ := slot?_eq_some_iff.mp same
    refine ⟨text, ?_, rest⟩
    rw [← named, ← value]
    exact member
  · intro found
    obtain ⟨text, member, rest⟩ := found
    exact ⟨_, member, slot?_eq_some_iff.mpr ⟨rfl, text, rfl, rest⟩⟩

theorem stem_of_key {slot other : Slot} (same : slot.key = other.key) :
    slot.stem = other.stem := by
  apply String.toList_injective
  have lists := congrArg String.toList same
  rw [Slot.key, Slot.key, String.toList_append, String.toList_append] at lists
  exact List.append_cancel_right lists

theorem cid_ne_key (slot other : Slot) : slot.cid ≠ other.key := by
  intro same
  have lists := congrArg (fun text => text.toList.getLast?) same
  simp [Slot.cid, Slot.key] at lists

/-- A dict has one slot for each key. -/
theorem slot_unique {obj : Fields} (distinct : obj.keys.Nodup)
    {slot other : Slot} (first : slot ∈ slotsOf obj)
    (second : other ∈ slotsOf obj) (same : slot.key = other.key) :
    slot = other := by
  obtain ⟨text, member, stripped, _⟩ := mem_slotsOf_iff.mp first
  obtain ⟨text', member', stripped', _⟩ := mem_slotsOf_iff.mp second
  have found := get?_of_mem distinct member
  rw [same, get?_of_mem distinct member'] at found
  cases found
  have stems := stem_of_key same
  have uris := stripped.symm.trans stripped'
  cases slot
  cases other
  cases stems
  cases uris
  rfl

theorem mem_uriByStem_iff {allow : Option (List String)} {obj : Fields}
    {slot : Slot} : slot ∈ uriByStem allow obj ↔
      slot ∈ slotsOf obj ∧ allowed allow slot.stem = true :=
  List.mem_filter

theorem isSkipped_iff {slots : List Slot} {key : String} :
    isSkipped slots key = true ↔ ∃ slot ∈ slots,
      key = slot.key ∨ key = slot.cid ∨ key = slot.stem := by
  simp [isSkipped, or_assoc]

end Slots

section Level

variable (allow : Option (List String))
  (fetch : String → String → Except Raised Json)

/-- What walks a payload, some expansions deep. -/
def inlineAt : Nat → Option (List String → Json → Walk Json)
  | 0 => none
  | max_depth + 1 => some (flatten allow fetch max_depth)

theorem flatten_eq (max_depth : Nat) (visited : List String) (obj : Json) :
    flatten allow fetch max_depth visited obj =
      walk allow fetch (inlineAt allow fetch max_depth) visited obj := by
  cases max_depth <;> rfl

/-- What an expansion puts under a stem. -/
def Expansion (max_depth : Nat) (visited : List String) (slot : Slot)
    (result : Json) : Prop :=
  ∃ payload log after, fetch slot.stem slot.uri = .ok payload ∧
    flatten allow fetch (max_depth - 1) (slot.uri :: visited) payload log =
      .ok result after

/-- What a value becomes that is copied. -/
def Copy (max_depth : Nat) (visited : List String) (value result : Json) :
    Prop :=
  ∃ log after, flatten allow fetch max_depth visited value log =
    .ok result after

/-- What the slots of a dict write over what was copied: where each binding of
the result comes from, and which there are. -/
structure Written (max_depth : Nat) (visited : List String) (slots : List Slot)
    (out result : Fields) : Prop where
  source : ∀ key value, result.get? key = some value →
    out.get? key = some value ∨
    (∃ slot ∈ slots, ¬ Expands allow max_depth visited slot ∧
      slot.key = key ∧ value = .str slot.uri) ∨
    (∃ slot ∈ slots, Expands allow max_depth visited slot ∧ slot.stem = key ∧
      Expansion allow fetch max_depth visited slot value)
  copied : ∀ key, (∃ value, out.get? key = some value) →
    ∃ value, result.get? key = some value
  unexpanded : ∀ slot ∈ slots, ¬ Expands allow max_depth visited slot →
    ∃ value, result.get? slot.key = some value
  expanded : ∀ slot ∈ slots, Expands allow max_depth visited slot →
    (∃ value, result.get? slot.stem = some value) ∧
    ∃ value, Expansion allow fetch max_depth visited slot value

/-- One level of a flattened dict: where each binding of the result comes from,
and which there are. -/
structure Level (max_depth : Nat) (visited : List String) (obj out : Fields) :
    Prop where
  source : ∀ key value, out.get? key = some value →
    (isSkipped (uriByStem allow obj) key = false ∧ ∃ source,
      obj.get? key = some source ∧
        Copy allow fetch max_depth visited source value) ∨
    (∃ slot ∈ uriByStem allow obj, ¬ Expands allow max_depth visited slot ∧
      slot.key = key ∧ value = .str slot.uri) ∨
    (∃ slot ∈ uriByStem allow obj, Expands allow max_depth visited slot ∧
      slot.stem = key ∧ Expansion allow fetch max_depth visited slot value)
  copied : ∀ key source, obj.get? key = some source →
    isSkipped (uriByStem allow obj) key = false →
      ∃ value, out.get? key = some value
  unexpanded : ∀ slot ∈ uriByStem allow obj,
    ¬ Expands allow max_depth visited slot →
      ∃ value, out.get? slot.key = some value
  expanded : ∀ slot ∈ uriByStem allow obj,
    Expands allow max_depth visited slot →
      (∃ value, out.get? slot.stem = some value) ∧
      ∃ value, Expansion allow fetch max_depth visited slot value

variable {allow fetch}

theorem fetchBelow_ok {visited : List String} {slot : Slot} {payload : Json}
    {log after : List (List String)}
    (ran : fetchBelow fetch visited slot log = .ok payload after) :
    fetch slot.stem slot.uri = .ok payload := by
  obtain ⟨_, middle, _, rest⟩ := bind_ok ran
  cases fetched : fetch slot.stem slot.uri with
  | error raised =>
      rw [fetched] at rest
      cases rest
  | ok found =>
      rw [fetched] at rest
      rw [(EStateM.Result.ok.inj rest).1]

/-- Setting a binding first, then writing the others. -/
theorem Written.cons {max_depth : Nat} {visited : List String} {slot : Slot}
    {slots : List Slot} {out result : Fields} {key : String} {value : Json}
    (written : Written allow fetch max_depth visited slots
      (out.set key value) result)
    (plain : ¬ Expands allow max_depth visited slot →
      key = slot.key ∧ value = .str slot.uri)
    (deep : Expands allow max_depth visited slot → key = slot.stem ∧
      Expansion allow fetch max_depth visited slot value) :
    Written allow fetch max_depth visited (slot :: slots) out result := by
  have here : ∃ found, result.get? key = some found :=
    written.copied key ⟨value, Fields.get?_set_self out key value⟩
  constructor
  · intro name found read
    rcases written.source name found read with below | ⟨other, member, rest⟩ |
      ⟨other, member, rest⟩
    · by_cases same : key = name
      · rw [same, Fields.get?_set_self, Option.some.injEq] at below
        rw [← below]
        right
        by_cases expands : Expands allow max_depth visited slot
        · obtain ⟨named, expansion⟩ := deep expands
          exact .inr ⟨slot, List.mem_cons_self, expands,
            named.symm.trans same, expansion⟩
        · obtain ⟨named, stays⟩ := plain expands
          exact .inl ⟨slot, List.mem_cons_self, expands,
            named.symm.trans same, stays⟩
      · rw [Fields.get?_set_of_ne out same] at below
        exact .inl below
    · exact .inr (.inl ⟨other, List.mem_cons_of_mem _ member, rest⟩)
    · exact .inr (.inr ⟨other, List.mem_cons_of_mem _ member, rest⟩)
  · intro name found
    by_cases same : key = name
    · rw [← same]
      exact here
    · apply written.copied
      rw [Fields.get?_set_of_ne out same]
      exact found
  · intro other member stays
    rcases List.mem_cons.mp member with first | later
    · rw [first] at stays ⊢
      rw [← (plain stays).1]
      exact here
    · exact written.unexpanded other later stays
  · intro other member expands
    rcases List.mem_cons.mp member with first | later
    · rw [first] at expands ⊢
      obtain ⟨named, expansion⟩ := deep expands
      rw [← named]
      exact ⟨here, value, expansion⟩
    · exact written.expanded other later expands

theorem expandSlots_written {max_depth : Nat} {visited : List String}
    {slots : List Slot} (listed : ∀ slot ∈ slots, allowed allow slot.stem = true)
    {out result : Fields} {log after : List (List String)}
    (ran : expandSlots fetch (inlineAt allow fetch max_depth) visited slots out
      log = .ok result after) :
    Written allow fetch max_depth visited slots out result := by
  induction slots generalizing out log with
  | nil =>
      rw [expandSlots] at ran
      rw [← (EStateM.Result.ok.inj ran).1]
      constructor
      · exact fun _ _ found => .inl found
      · exact fun _ found => found
      · exact fun slot member => absurd member List.not_mem_nil
      · exact fun slot member => absurd member List.not_mem_nil
  | cons slot slots induction =>
      rw [List.forall_mem_cons] at listed
      cases max_depth with
      | zero =>
          apply (induction listed.2 ran).cons
          · exact fun _ => ⟨rfl, rfl⟩
          · exact fun expands => absurd expands.2.1 (Nat.lt_irrefl 0)
      | succ max_depth =>
          simp only [expandSlots, inlineAt] at ran
          by_cases gone : slot.uri ∈ visited
          · rw [if_pos gone] at ran
            apply (induction listed.2 ran).cons
            · exact fun _ => ⟨rfl, rfl⟩
            · exact fun expands => absurd gone expands.2.2
          · rw [if_neg gone] at ran
            obtain ⟨payload, middle, fetched, ran⟩ := bind_ok ran
            obtain ⟨value, later, walked, ran⟩ := bind_ok ran
            apply (induction listed.2 ran).cons
            · exact fun stays => absurd
                ⟨listed.1, Nat.succ_pos max_depth, gone⟩ stays
            · exact fun _ => ⟨rfl, payload, middle, later,
                fetchBelow_ok fetched, walked⟩

end Level

section Walking

variable {allow : Option (List String)}
  {fetch : String → String → Except Raised Json}
  {max_depth : Nat} {visited : List String}

theorem walkItems_ok {items results : List Json}
    {log after : List (List String)}
    (ran : walkItems allow fetch (inlineAt allow fetch max_depth) visited items
      log = .ok results after) :
    items.length = results.length ∧ ∀ (place : Nat) (item result : Json),
      items[place]? = some item → results[place]? = some result →
        Copy allow fetch max_depth visited item result := by
  induction items generalizing results log after with
  | nil =>
      rw [walkItems] at ran
      rw [← (EStateM.Result.ok.inj ran).1]
      exact ⟨rfl, fun _ _ _ found => by simp at found⟩
  | cons item items induction =>
      rw [walkItems] at ran
      obtain ⟨first, middle, walked, ran⟩ := bind_ok ran
      obtain ⟨rest, later, others, ran⟩ := bind_ok ran
      rw [← (EStateM.Result.ok.inj ran).1]
      obtain ⟨lengths, copies⟩ := induction others
      constructor
      · rw [List.length_cons, List.length_cons, lengths]
      · intro place value result found made
        cases place with
        | zero =>
            rw [List.getElem?_cons_zero, Option.some.injEq] at found made
            rw [← found, ← made]
            refine ⟨log, middle, ?_⟩
            rw [flatten_eq]
            exact walked
        | succ place =>
            rw [List.getElem?_cons_succ] at found made
            exact copies place value result found made

/-- The keys that are not skipped are copied, and no others. -/
theorem walkFields_ok {slots : List Slot} {fields out : Fields}
    {log after : List (List String)}
    (ran : walkFields allow fetch (inlineAt allow fetch max_depth) visited slots
      fields log = .ok out after) :
    (∀ key value, Fields.get? out key = some value →
      isSkipped slots key = false ∧ ∃ source,
        Fields.get? fields key = some source ∧
          Copy allow fetch max_depth visited source value) ∧
    ∀ key source, Fields.get? fields key = some source →
      isSkipped slots key = false →
        ∃ value, Fields.get? out key = some value := by
  induction fields generalizing out log after with
  | nil =>
      rw [walkFields] at ran
      rw [← (EStateM.Result.ok.inj ran).1]
      exact ⟨fun _ _ found => by simp at found,
        fun _ _ found => by simp at found⟩
  | cons field fields induction =>
      obtain ⟨name, first⟩ := field
      rw [walkFields] at ran
      by_cases skipped : isSkipped slots name = true
      · rw [if_pos skipped] at ran
        obtain ⟨sources, copies⟩ := induction ran
        constructor
        · intro key value found
          obtain ⟨kept, source, below, copy⟩ := sources key value found
          refine ⟨kept, source, ?_, copy⟩
          rw [Fields.get?_cons, if_neg]
          · exact below
          · intro same
            rw [same, kept] at skipped
            cases skipped
        · intro key source found kept
          rw [Fields.get?_cons, if_neg] at found
          · exact copies key source found kept
          · intro same
            rw [same, kept] at skipped
            cases skipped
      · rw [if_neg skipped] at ran
        obtain ⟨value, middle, walked, ran⟩ := bind_ok ran
        obtain ⟨rest, later, others, ran⟩ := bind_ok ran
        rw [← (EStateM.Result.ok.inj ran).1]
        obtain ⟨sources, copies⟩ := induction others
        constructor
        · intro key result found
          rw [Fields.get?_cons] at found ⊢
          by_cases same : name = key
          · rw [if_pos same, Option.some.injEq] at found
            rw [if_pos same, ← same, ← found]
            refine ⟨by simpa using skipped, first, rfl, log, middle, ?_⟩
            rw [flatten_eq]
            exact walked
          · rw [if_neg same] at found ⊢
            exact sources key result found
        · intro key source found kept
          rw [Fields.get?_cons] at found ⊢
          by_cases same : name = key
          · rw [if_pos same]
            exact ⟨value, rfl⟩
          · rw [if_neg same] at found ⊢
            exact copies key source found kept

/-- A flattened dict is a dict, one level of it as the slots write it. -/
theorem flatten_obj_ok {obj : Fields} {result : Json}
    {log after : List (List String)}
    (ran : flatten allow fetch max_depth visited (.obj obj) log =
      .ok result after) :
    ∃ out, result = .obj out ∧ Level allow fetch max_depth visited obj out := by
  rw [flatten_eq, walk] at ran
  obtain ⟨copied, middle, fields, ran⟩ := bind_ok ran
  obtain ⟨out, later, expanded, ran⟩ := bind_ok ran
  obtain ⟨sources, copies⟩ := walkFields_ok fields
  have written := expandSlots_written
    (fun slot member => (mem_uriByStem_iff.mp member).2) expanded
  refine ⟨out, (EStateM.Result.ok.inj ran).1.symm, ?_, ?_, written.unexpanded,
    written.expanded⟩
  · intro key value found
    rcases written.source key value found with below | slots
    · exact .inl (sources key value below)
    · exact .inr slots
  · intro key source found kept
    exact written.copied key (copies key source found kept)

theorem flatten_arr_ok {items : List Json} {result : Json}
    {log after : List (List String)}
    (ran : flatten allow fetch max_depth visited (.arr items) log =
      .ok result after) :
    ∃ results, result = .arr results ∧ items.length = results.length ∧
      ∀ (place : Nat) (item value : Json), items[place]? = some item →
        results[place]? = some value →
          Copy allow fetch max_depth visited item value := by
  rw [flatten_eq, walk] at ran
  obtain ⟨results, middle, walked, ran⟩ := bind_ok ran
  exact ⟨results, (EStateM.Result.ok.inj ran).1.symm, walkItems_ok walked⟩

theorem flatten_scalar {value : Json} (scalar : IsScalar value)
    (log : List (List String)) :
    flatten allow fetch max_depth visited value log = .ok value log := by
  rw [flatten_eq]
  cases value with
  | null => rfl
  | bool value => rfl
  | int value => rfl
  | float text => rfl
  | str value => rfl
  | arr items => exact scalar.elim
  | obj fields => exact scalar.elim

end Walking

section Keys

variable {allow : Option (List String)}
  {fetch : String → String → Except Raised Json}
  {max_depth : Nat} {visited : List String} {obj out : Fields}

theorem isSkipped_key {slot : Slot} (member : slot ∈ uriByStem allow obj) :
    isSkipped (uriByStem allow obj) slot.key = true :=
  isSkipped_iff.mpr ⟨slot, member, .inl rfl⟩

theorem isSkipped_cid {slot : Slot} (member : slot ∈ uriByStem allow obj) :
    isSkipped (uriByStem allow obj) slot.cid = true :=
  isSkipped_iff.mpr ⟨slot, member, .inr (.inl rfl)⟩

theorem isSkipped_stem {slot : Slot} (member : slot ∈ uriByStem allow obj) :
    isSkipped (uriByStem allow obj) slot.stem = true :=
  isSkipped_iff.mpr ⟨slot, member, .inr (.inr rfl)⟩

theorem mem_of_expands {slot : Slot} (member : slot ∈ slotsOf obj)
    (expands : Expands allow max_depth visited slot) :
    slot ∈ uriByStem allow obj :=
  mem_uriByStem_iff.mpr ⟨member, expands.1⟩

/-- What an expansion may replace is skipped. -/
theorem isSkipped_of_replaced {key : String}
    (replaced : Replaced allow max_depth visited obj key) :
    isSkipped (uriByStem allow obj) key = true := by
  obtain ⟨slot, member, expands, stem | cid⟩ := replaced
  · rw [stem]
    exact isSkipped_stem (mem_of_expands member expands)
  · rw [cid]
    exact isSkipped_cid (mem_of_expands member expands)

/-- The key of a slot that is not expanded reads as the slot, unless an
expansion stands there. -/
theorem Level.at_key (level : Level allow fetch max_depth visited obj out)
    (distinct : obj.keys.Nodup) {slot : Slot} {value : Json}
    (member : slot ∈ uriByStem allow obj)
    (found : out.get? slot.key = some value) :
    value = .str slot.uri ∨ ∃ other ∈ slotsOf obj,
      Expands allow max_depth visited other ∧ other.stem = slot.key ∧
        Expansion allow fetch max_depth visited other value := by
  rcases level.source _ _ found with copied | ⟨other, inside, _, same, shape⟩ |
    ⟨other, inside, expands, same, expansion⟩
  · rw [isSkipped_key member] at copied
    cases copied.1
  · left
    rw [shape, slot_unique distinct (mem_uriByStem_iff.mp inside).1
      (mem_uriByStem_iff.mp member).1 same]
  · exact .inr ⟨other, (mem_uriByStem_iff.mp inside).1, expands, same,
      expansion⟩

/-- The stem of an expanded slot reads as the expansion, unless a slot that is
not expanded stands there. -/
theorem Level.at_stem (level : Level allow fetch max_depth visited obj out)
    (distinct : obj.keys.Nodup) {slot : Slot} {value : Json}
    (member : slot ∈ slotsOf obj)
    (expands : Expands allow max_depth visited slot)
    (found : out.get? slot.stem = some value) :
    Expansion allow fetch max_depth visited slot value ∨
    ∃ other ∈ uriByStem allow obj, ¬ Expands allow max_depth visited other ∧
      other.key = slot.stem ∧ value = .str other.uri := by
  rcases level.source _ _ found with copied | ⟨other, inside, rest⟩ |
    ⟨other, inside, _, same, expansion⟩
  · rw [isSkipped_stem (mem_of_expands member expands)] at copied
    cases copied.1
  · exact .inr ⟨other, inside, rest⟩
  · left
    have keys : other.key = slot.key := congrArg (· ++ "_uri") same
    rw [← slot_unique distinct (mem_uriByStem_iff.mp inside).1 member keys]
    exact expansion

/-- A key that is not skipped reads as the copy. -/
theorem Level.at_copied (level : Level allow fetch max_depth visited obj out)
    {key : String} {source value : Json} (given : obj.get? key = some source)
    (kept : isSkipped (uriByStem allow obj) key = false)
    (found : out.get? key = some value) :
    Copy allow fetch max_depth visited source value := by
  rcases level.source _ _ found with ⟨_, other, same, copy⟩ |
    ⟨slot, member, _, same, _⟩ | ⟨slot, member, _, same, _⟩
  · rw [given, Option.some.injEq] at same
    rw [same]
    exact copy
  · rw [← same, isSkipped_key member] at kept
    cases kept
  · rw [← same, isSkipped_stem member] at kept
    cases kept

/-- A skipped key that is no slot and that nothing expanded stands at reads as
nothing. -/
theorem Level.at_skipped (level : Level allow fetch max_depth visited obj out)
    {key : String} (skipped : isSkipped (uriByStem allow obj) key = true)
    (bare : ∀ slot ∈ uriByStem allow obj, slot.key ≠ key)
    (unreplaced : ¬ Replaced allow max_depth visited obj key) :
    out.get? key = none := by
  cases found : out.get? key with
  | none => rfl
  | some value =>
      rcases level.source _ _ found with copied | ⟨slot, member, _, same, _⟩ |
        ⟨slot, member, expands, same, _⟩
      · rw [skipped] at copied
        cases copied.1
      · exact absurd same (bare slot member)
      · exact absurd ⟨slot, (mem_uriByStem_iff.mp member).1, expands,
          .inl same.symm⟩ unreplaced

end Keys

end FlattenRefs

end Cats
