import Cats.Cas.Inlined

/-!
# Flattening without loss

A flattened dict keeps what it must exactly where no slot that stays has a key
beside it that is named like its stem or its CID.  Fetches are bounded whatever
the value.
-/

namespace Cats

namespace FlattenRefs

open Effect
open Fields (get?_of_mem mem_of_get? mem_keys_of_get? exists_get?_of_mem_keys)

/-- Induction on a value: over its items and over its bindings. -/
theorem value_induction {motive : Json → Prop}
    (scalar : ∀ value, IsScalar value → motive value)
    (arr : ∀ items, (∀ item ∈ items, motive item) → motive (.arr items))
    (obj : ∀ obj : Fields, (∀ field ∈ obj, motive field.2) →
      motive (.obj obj)) (value : Json) : motive value := by
  refine @Json.rec motive (fun items => ∀ item ∈ items, motive item)
    (fun obj => ∀ field ∈ obj, motive field.2) (fun field => motive field.2)
    ?_ ?_ ?_ ?_ ?_ arr obj ?_ ?_ ?_ ?_ ?_ value
  · exact scalar _ trivial
  · exact fun _ => scalar _ trivial
  · exact fun _ => scalar _ trivial
  · exact fun _ => scalar _ trivial
  · exact fun _ => scalar _ trivial
  · exact fun item member => absurd member List.not_mem_nil
  · intro first items here later
    exact List.forall_mem_cons.mpr ⟨here, later⟩
  · exact fun field member => absurd member List.not_mem_nil
  · intro first fields here later
    exact List.forall_mem_cons.mpr ⟨here, later⟩
  · exact fun _ _ here => here

section Exact

variable {allow : Option (List String)}
  {fetch : String → String → Except Raised Json}
  {max_depth : Nat} {visited : List String} {obj out : Fields}

theorem eq_of_inlined_str {value : Json} {text : String}
    (inlined : Inlined allow fetch max_depth visited value (.str text)) :
    value = .str text := by
  cases inlined with
  | scalar _ => rfl

theorem eq_of_copy_scalar {value result : Json} (scalar : IsScalar value)
    (copy : Copy allow fetch max_depth visited value result) :
    result = value := by
  obtain ⟨log, after, ran⟩ := copy
  rw [flatten_scalar scalar] at ran
  exact (EStateM.Result.ok.inj ran).1.symm

theorem eq_of_expansion_scalar {slot : Slot} {payload result : Json}
    (scalar : IsScalar payload)
    (fetched : fetch slot.stem slot.uri = .ok payload)
    (expansion : Expansion allow fetch max_depth visited slot result) :
    result = payload := by
  obtain ⟨found, log, after, also, ran⟩ := expansion
  rw [fetched, Except.ok.injEq] at also
  rw [← also, flatten_scalar scalar] at ran
  exact (EStateM.Result.ok.inj ran).1.symm

theorem kept_of_mem {slot : Slot} (member : slot ∈ uriByStem allow obj) :
    kept allow obj slot = some (.str slot.uri) :=
  if_pos (mem_uriByStem_iff.mp member).2

theorem isScalar_of_kept {slot : Slot} {payload : Json}
    (distinct : obj.keys.Nodup) (member : slot ∈ slotsOf obj)
    (same : some payload = kept allow obj slot) : IsScalar payload := by
  obtain ⟨text, inside, _⟩ := mem_slotsOf_iff.mp member
  rw [kept, get?_of_mem distinct inside] at same
  split_ifs at same
  · cases same
    trivial
  · cases same
    trivial

/-- What a level loses when it may lose nothing. -/
theorem Level.lossless (level : Level allow fetch max_depth visited obj out)
    (distinct : obj.keys.Nodup)
    (copies : ∀ key source value, obj.get? key = some source →
      Copy allow fetch max_depth visited source value →
      Inlined allow fetch max_depth visited source value →
        Lossless allow fetch max_depth visited source)
    (expansions : ∀ slot ∈ slotsOf obj, Expands allow max_depth visited slot →
      ∀ payload value, fetch slot.stem slot.uri = .ok payload →
      Expansion allow fetch max_depth visited slot value →
      Inlined allow fetch (max_depth - 1) (slot.uri :: visited) payload value →
        Lossless allow fetch (max_depth - 1) (slot.uri :: visited) payload)
    (inlined : Inlined allow fetch max_depth visited (.obj obj) (.obj out)) :
    Lossless allow fetch max_depth visited (.obj obj) := by
  cases inlined with
  | scalar scalar => exact scalar.elim
  | obj slots present others fetched inlined dropped only =>
    have spared : ∀ slot ∈ slotsOf obj,
        ¬ Expands allow max_depth visited slot → ∀ other ∈ slotsOf obj,
        Expands allow max_depth visited other → other.stem = slot.key →
        ∀ payload, fetch other.stem other.uri = .ok payload →
          some payload = kept allow obj slot := by
      intro slot member stays other inside expands same payload found
      obtain ⟨_, result, _, there⟩ := fetched other inside expands
      have below := inlined other inside expands payload result found there
      have here := slots slot member stays
      rw [← same, there] at here
      obtain ⟨text, given, _⟩ := mem_slotsOf_iff.mp member
      rw [kept, get?_of_mem distinct given] at here ⊢
      split_ifs at here ⊢
      · rw [Option.some.injEq] at here
        rw [here] at below
        rw [eq_of_inlined_str below]
      · rw [Option.some.injEq] at here
        rw [here] at below
        rw [eq_of_inlined_str below]
    apply Lossless.obj
    · intro slot member stays key held named
      by_contra lost
      rw [not_or] at lost
      have skipped : isSkipped (uriByStem allow obj) key = true := by
        rcases named with stem | cid
        · rw [stem]
          exact isSkipped_stem member
        · rw [cid]
          exact isSkipped_cid member
      have bare : ∀ other ∈ uriByStem allow obj, other.key ≠ key :=
        fun other inside same => lost.1 ⟨other, inside, same⟩
      have gone := level.at_skipped skipped bare lost.2
      obtain ⟨value, given⟩ := exists_get?_of_mem_keys held
      by_cases slotted : ∃ other ∈ slotsOf obj, other.key = key
      · obtain ⟨other, inside, same⟩ := slotted
        have refused : allowed allow other.stem ≠ true := fun allows =>
          bare other (mem_uriByStem_iff.mpr ⟨inside, allows⟩) same
        have here := slots other inside fun expands => refused expands.1
        rw [kept, if_neg refused, same, gone, given] at here
        cases here
      · obtain ⟨result, here⟩ := present key value given
          (fun other inside same => slotted ⟨other, inside, same⟩) lost.2
        rw [gone] at here
        cases here
    · exact spared
    · intro key source given kept
      obtain ⟨value, found⟩ := level.copied key source given kept
      have copy := level.at_copied given kept found
      by_cases slotted : ∃ other ∈ slotsOf obj, other.key = key
      · obtain ⟨other, inside, same⟩ := slotted
        obtain ⟨text, member, _⟩ := mem_slotsOf_iff.mp inside
        rw [same] at member
        rw [get?_of_mem distinct member, Option.some.injEq] at given
        rw [← given]
        exact .scalar trivial
      · apply copies key source value given copy
        apply others key source value given _ _ found
        · exact fun other inside same => slotted ⟨other, inside, same⟩
        · intro replaced
          rw [isSkipped_of_replaced replaced] at kept
          cases kept
    · intro slot member expands payload given
      obtain ⟨_, value, _, found⟩ := fetched slot member expands
      rcases level.at_stem distinct member expands found with expansion |
        ⟨other, inside, stays, same, _⟩
      · exact expansions slot member expands payload value given expansion
          (inlined slot member expands payload value given found)
      · exact .scalar (isScalar_of_kept distinct
          (mem_uriByStem_iff.mp inside).1
          (spared other (mem_uriByStem_iff.mp inside).1 stays slot member
            expands same.symm payload given))

/-- A level that loses nothing keeps what it must. -/
theorem Level.inlined (level : Level allow fetch max_depth visited obj out)
    (distinct : obj.keys.Nodup)
    (copies : ∀ key source value, obj.get? key = some source →
      Copy allow fetch max_depth visited source value →
      Lossless allow fetch max_depth visited source →
        Inlined allow fetch max_depth visited source value)
    (expansions : ∀ slot ∈ slotsOf obj, Expands allow max_depth visited slot →
      ∀ payload value, fetch slot.stem slot.uri = .ok payload →
      Expansion allow fetch max_depth visited slot value →
      Lossless allow fetch (max_depth - 1) (slot.uri :: visited) payload →
        Inlined allow fetch (max_depth - 1) (slot.uri :: visited) payload value)
    (lossless : Lossless allow fetch max_depth visited (.obj obj)) :
    Inlined allow fetch max_depth visited (.obj obj) (.obj out) := by
  cases lossless with
  | scalar scalar => exact scalar.elim
  | obj alone spared values payloads =>
    -- Where an expansion stands at the key of a slot that stays, it brought
    -- the very text the slot keeps.
    have stands : ∀ slot ∈ slotsOf obj,
        ¬ Expands allow max_depth visited slot → ∀ other ∈ slotsOf obj,
        Expands allow max_depth visited other → other.stem = slot.key →
        ∀ value, Expansion allow fetch max_depth visited other value →
          some value = kept allow obj slot := by
      intro slot member stays other inside expands same value expansion
      obtain ⟨payload, _, _, fetched, _⟩ := id expansion
      have given := spared slot member stays other inside expands same payload
        fetched
      rw [eq_of_expansion_scalar (isScalar_of_kept distinct member given)
        fetched expansion]
      exact given
    have unskipped : ∀ key value, obj.get? key = some value →
        (∀ slot ∈ slotsOf obj, slot.key ≠ key) →
        ¬ Replaced allow max_depth visited obj key →
          isSkipped (uriByStem allow obj) key = false := by
      intro key value given bare unreplaced
      rw [Bool.eq_false_iff]
      intro skipped
      obtain ⟨slot, member, named⟩ := isSkipped_iff.mp skipped
      have inside := (mem_uriByStem_iff.mp member).1
      rcases named with same | beside
      · exact bare slot inside same.symm
      · by_cases expands : Expands allow max_depth visited slot
        · exact unreplaced ⟨slot, inside, expands, beside.symm⟩
        · rcases alone slot member expands key (mem_keys_of_get? given)
            beside.symm with ⟨other, also, same⟩ | replaced
          · exact bare other (mem_uriByStem_iff.mp also).1 same
          · exact unreplaced replaced
    apply Inlined.obj
    · intro slot member stays
      obtain ⟨text, inside, _⟩ := mem_slotsOf_iff.mp member
      have given := get?_of_mem distinct inside
      by_cases allows : allowed allow slot.stem = true
      · have listed := mem_uriByStem_iff.mpr ⟨member, allows⟩
        obtain ⟨value, found⟩ := level.unexpanded slot listed stays
        rcases level.at_key distinct listed found with same | ⟨other, also,
          expands, same, expansion⟩
        · rw [found, same, kept_of_mem listed]
        · rw [found]
          exact stands slot member stays other also expands same value expansion
      have unlisted : ∀ other ∈ uriByStem allow obj, other.key ≠ slot.key := by
        intro other also same
        obtain ⟨among, allowed'⟩ := mem_uriByStem_iff.mp also
        rw [slot_unique distinct among member same] at allowed'
        exact allows allowed'
      by_cases skipped : isSkipped (uriByStem allow obj) slot.key = true
      · obtain ⟨other, also, expands, same⟩ :
            ∃ other ∈ slotsOf obj, Expands allow max_depth visited other ∧
              other.stem = slot.key := by
          obtain ⟨other, also, named⟩ := isSkipped_iff.mp skipped
          rcases named with same | same | same
          · exact absurd same.symm (unlisted other also)
          · exact absurd same.symm (cid_ne_key other slot)
          · by_cases expands : Expands allow max_depth visited other
            · exact ⟨other, (mem_uriByStem_iff.mp also).1, expands, same.symm⟩
            · rcases alone other also expands slot.key (mem_keys_of_get? given)
                (.inl same) with ⟨third, among, same⟩ | ⟨third, among, deep,
                  same | same⟩
              · exact absurd same (unlisted third among)
              · exact ⟨third, among, deep, same.symm⟩
              · exact absurd same.symm (cid_ne_key third slot)
        obtain ⟨value, found⟩ :=
          (level.expanded other (mem_of_expands also expands) expands).1
        rcases level.at_stem distinct also expands found with expansion |
          ⟨third, among, _, here, _⟩
        · rw [← same, found]
          exact stands slot member stays other also expands same value expansion
        · exact absurd (here.trans same) (unlisted third among)
      · have unskipped : isSkipped (uriByStem allow obj) slot.key = false := by
          simpa using skipped
        obtain ⟨value, found⟩ := level.copied slot.key _ given unskipped
        have copy := level.at_copied given unskipped found
        rw [found, kept, if_neg allows, given]
        exact congrArg some (eq_of_copy_scalar trivial copy)
    · intro key value given bare unreplaced
      exact level.copied key value given (unskipped key value given bare
        unreplaced)
    · intro key value result given bare unreplaced found
      have kept := unskipped key value given bare unreplaced
      exact copies key value result given (level.at_copied given kept found)
        (values key value given kept)
    · intro slot member expands
      obtain ⟨⟨result, found⟩, _, payload, _, _, fetched, _⟩ :=
        level.expanded slot (mem_of_expands member expands) expands
      exact ⟨payload, result, fetched, found⟩
    · intro slot member expands payload result fetched found
      rcases level.at_stem distinct member expands found with expansion |
        ⟨other, inside, stays, same, shape⟩
      · exact expansions slot member expands payload result fetched expansion
          (payloads slot member expands payload fetched)
      · have given := spared other (mem_uriByStem_iff.mp inside).1 stays slot
          member expands same.symm payload fetched
        rw [kept_of_mem inside, Option.some.injEq] at given
        rw [shape, given]
        exact .scalar trivial
    · intro slot member expands key named there
      obtain ⟨value, found⟩ := exists_get?_of_mem_keys there
      have skipped : isSkipped (uriByStem allow obj) key = true := by
        rw [List.mem_cons, List.mem_singleton] at named
        rcases named with same | same
        · rw [same]
          exact isSkipped_key (mem_of_expands member expands)
        · rw [same]
          exact isSkipped_cid (mem_of_expands member expands)
      rcases level.source _ _ found with copied | ⟨other, inside, stays, same,
        _⟩ | ⟨other, inside, also, same, _⟩
      · rw [skipped] at copied
        cases copied.1
      · rw [List.mem_cons, List.mem_singleton] at named
        rcases named with here | here
        · have single := slot_unique distinct (mem_uriByStem_iff.mp inside).1
            member (same.trans here)
          rw [single] at stays
          exact absurd expands stays
        · exact absurd (same.trans here).symm (cid_ne_key slot other)
      · exact ⟨other, (mem_uriByStem_iff.mp inside).1, also, same⟩
    · intro key there
      obtain ⟨value, found⟩ := exists_get?_of_mem_keys there
      rcases level.source _ _ found with ⟨_, source, given, _⟩ |
        ⟨slot, member, _, same, _⟩ | ⟨slot, member, expands, same, _⟩
      · exact .inl (mem_keys_of_get? given)
      · obtain ⟨text, inside, _⟩ :=
          mem_slotsOf_iff.mp (mem_uriByStem_iff.mp member).1
        left
        rw [← same]
        exact List.mem_map_of_mem inside
      · exact .inr ⟨slot, (mem_uriByStem_iff.mp member).1, expands, same⟩

end Exact

section Whole

variable {allow : Option (List String)}
  {fetch : String → String → Except Raised Json}

/-- The walk of one value, where the claim holds of its payloads. -/
theorem inlined_iff_lossless_at {max_depth : Nat}
    (payloads : ∀ stem uri payload, fetch stem uri = .ok payload →
      Distinct payload)
    (below : ∀ visited payload result, Distinct payload →
      0 < max_depth → Copy allow fetch (max_depth - 1) visited payload result →
        (Inlined allow fetch (max_depth - 1) visited payload result ↔
          Lossless allow fetch (max_depth - 1) visited payload))
    (value : Json) : ∀ visited result, Distinct value →
      Copy allow fetch max_depth visited value result →
        (Inlined allow fetch max_depth visited value result ↔
          Lossless allow fetch max_depth visited value) := by
  induction value using value_induction with
  | scalar value scalar =>
      intro visited result _ copy
      rw [eq_of_copy_scalar scalar copy]
      exact ⟨fun _ => .scalar scalar, fun _ => .scalar scalar⟩
  | arr items induction =>
      intro visited result distinct copy
      obtain ⟨log, after, ran⟩ := copy
      obtain ⟨results, shape, lengths, copies⟩ := flatten_arr_ok ran
      rw [shape]
      cases distinct with
      | scalar scalar => exact scalar.elim
      | arr distinct =>
        constructor
        · intro inlined
          cases inlined with
          | scalar scalar => exact scalar.elim
          | arr _ inlined =>
            apply Lossless.arr
            intro item member
            obtain ⟨place, bound, found⟩ := List.mem_iff_getElem.mp member
            have there : items[place]? = some item := by
              rw [List.getElem?_eq_getElem bound, found]
            have within : place < results.length := by omega
            have made : results[place]? = some results[place] :=
              List.getElem?_eq_getElem within
            exact (induction item member visited _ (distinct item member)
              (copies place item _ there made)).mp
                (inlined place item _ there made)
        · intro lossless
          cases lossless with
          | scalar scalar => exact scalar.elim
          | arr lossless =>
            apply Inlined.arr lengths
            intro place item value there made
            have member := List.mem_of_getElem? there
            exact (induction item member visited _ (distinct item member)
              (copies place item value there made)).mpr (lossless item member)
  | obj obj induction =>
      intro visited result distinct copy
      obtain ⟨log, after, ran⟩ := copy
      obtain ⟨out, shape, level⟩ := flatten_obj_ok ran
      rw [shape]
      cases distinct with
      | scalar scalar => exact scalar.elim
      | obj keys distinct =>
        have inside : ∀ key source, obj.get? key = some source →
            ∀ value, Copy allow fetch max_depth visited source value →
              (Inlined allow fetch max_depth visited source value ↔
                Lossless allow fetch max_depth visited source) := by
          intro key source given value copy
          have member := mem_of_get? given
          exact induction (key, source) member visited value
            (distinct (key, source) member) copy
        have expanded : ∀ slot, Expands allow max_depth visited slot →
            ∀ payload value, fetch slot.stem slot.uri = .ok payload →
            Expansion allow fetch max_depth visited slot value →
              (Inlined allow fetch (max_depth - 1) (slot.uri :: visited) payload
                  value ↔
                Lossless allow fetch (max_depth - 1) (slot.uri :: visited)
                  payload) := by
          intro slot expands payload value fetched expansion
          obtain ⟨found, log, after, also, ran⟩ := expansion
          rw [fetched, Except.ok.injEq] at also
          rw [← also] at ran
          exact below _ payload value (payloads _ _ _ fetched) expands.2.1
            ⟨log, after, ran⟩
        constructor
        · apply level.lossless keys
          · intro key source value given copy
            exact (inside key source given value copy).mp
          · intro slot _ expands payload value fetched expansion
            exact (expanded slot expands payload value fetched expansion).mp
        · apply level.inlined keys
          · intro key source value given copy
            exact (inside key source given value copy).mpr
          · intro slot _ expands payload value fetched expansion
            exact (expanded slot expands payload value fetched expansion).mpr

/-- Flattening keeps what it must exactly where nothing is lost. -/
theorem inlined_iff_lossless
    (payloads : ∀ stem uri payload, fetch stem uri = .ok payload →
      Distinct payload) {max_depth : Nat} {visited : List String}
    {value result : Json} (distinct : Distinct value)
    (copy : Copy allow fetch max_depth visited value result) :
    Inlined allow fetch max_depth visited value result ↔
      Lossless allow fetch max_depth visited value := by
  induction max_depth generalizing visited value result with
  | zero =>
      apply inlined_iff_lossless_at payloads _ value visited result distinct copy
      intro _ _ _ _ positive
      exact absurd positive (Nat.lt_irrefl 0)
  | succ max_depth induction =>
      apply inlined_iff_lossless_at payloads _ value visited result distinct copy
      intro visited payload result distinct _ copy
      exact induction distinct copy

end Whole

section Paths

variable {allow : Option (List String)}
  {fetch : String → String → Except Raised Json}

/-- Fetches are only added, none deeper than the expansions that are left and
none through one URI twice. -/
def Bounded (max_depth : Nat) (visited : List String)
    (log after : List (List String)) : Prop :=
  ∃ more, after = log ++ more ∧ ∀ path ∈ more,
    path.length ≤ max_depth + visited.length ∧ (visited.Nodup → path.Nodup)

theorem Bounded.refl {max_depth : Nat} {visited : List String}
    (log : List (List String)) : Bounded max_depth visited log log :=
  ⟨[], (List.append_nil log).symm, fun _ member =>
    absurd member List.not_mem_nil⟩

theorem Bounded.trans {max_depth : Nat} {visited : List String}
    {first second third : List (List String)}
    (left : Bounded max_depth visited first second)
    (right : Bounded max_depth visited second third) :
    Bounded max_depth visited first third := by
  obtain ⟨more, same, here⟩ := left
  obtain ⟨rest, same', there⟩ := right
  refine ⟨more ++ rest, by rw [same', same, List.append_assoc], ?_⟩
  intro path member
  rcases List.mem_append.mp member with before | later
  · exact here path before
  · exact there path later

/-- What is bounded below a new URI is bounded one expansion higher. -/
theorem Bounded.below {max_depth : Nat} {visited : List String} {uri : String}
    {log after : List (List String)} (new : uri ∉ visited)
    (deep : Bounded max_depth (uri :: visited) log after) :
    Bounded (max_depth + 1) visited log after := by
  obtain ⟨more, same, bounds⟩ := deep
  refine ⟨more, same, ?_⟩
  intro path member
  obtain ⟨length, nodup⟩ := bounds path member
  rw [List.length_cons] at length
  exact ⟨by omega, fun distinct => nodup (List.nodup_cons.mpr ⟨new, distinct⟩)⟩

theorem bounded_pure {α : Type} {max_depth : Nat} {visited : List String}
    (value : α) : Relates (Bounded max_depth visited) (pure value : Walk α) :=
  Relates.pure Bounded.refl value

theorem bounded_bind {α β : Type} {max_depth : Nat} {visited : List String}
    {action : Walk α} {next : α → Walk β}
    (first : Relates (Bounded max_depth visited) action)
    (later : ∀ value, Relates (Bounded max_depth visited) (next value)) :
    Relates (Bounded max_depth visited) (action >>= next) := by
  apply Relates.bind _ first later
  intro before middle after left right
  exact left.trans right

theorem bounded_fetchBelow {max_depth : Nat} {visited : List String}
    {slot : Slot} (new : slot.uri ∉ visited) :
    Relates (Bounded (max_depth + 1) visited)
      (fetchBelow fetch visited slot) := by
  apply bounded_bind
  · apply Relates.modify
    intro log
    refine ⟨[slot.uri :: visited], rfl, ?_⟩
    intro path member
    rw [List.mem_singleton.mp member, List.length_cons]
    exact ⟨by omega, fun distinct => List.nodup_cons.mpr ⟨new, distinct⟩⟩
  · intro _
    cases fetch slot.stem slot.uri with
    | ok payload => exact bounded_pure payload
    | error raised => exact Relates.throw Bounded.refl raised

/-- Payloads are walked one expansion less deep. -/
def BoundedBelow (allow : Option (List String))
    (fetch : String → String → Except Raised Json) (max_depth : Nat)
    (visited : List String) : Prop :=
  ∀ depth, max_depth = depth + 1 → ∀ uri, uri ∉ visited → ∀ payload,
    Relates (Bounded depth (uri :: visited))
      (flatten allow fetch depth (uri :: visited) payload)

section

variable {max_depth : Nat} {visited : List String}
  (below : BoundedBelow allow fetch max_depth visited)

include below

theorem bounded_expandSlots (slots : List Slot) (out : Fields) :
    Relates (Bounded max_depth visited)
      (expandSlots fetch (inlineAt allow fetch max_depth) visited slots
        out) := by
  induction slots generalizing out with
  | nil => exact bounded_pure out
  | cons slot slots induction =>
      cases max_depth with
      | zero => exact induction _
      | succ max_depth =>
          simp only [expandSlots, inlineAt]
          apply Relates.ite
          · exact fun _ => induction _
          · intro new
            apply bounded_bind (bounded_fetchBelow new)
            intro payload
            apply bounded_bind
            · exact fun log => (below _ rfl slot.uri new payload log).below new
            · exact fun value => induction _

theorem bounded_walk (value : Json) :
    Relates (Bounded max_depth visited)
      (walk allow fetch (inlineAt allow fetch max_depth) visited value) := by
  induction value using value_induction with
  | scalar value scalar =>
      intro log
      have ran := @flatten_scalar allow fetch max_depth visited value scalar log
      rw [flatten_eq] at ran
      rw [ran]
      exact Bounded.refl log
  | arr items induction =>
      rw [walk]
      apply bounded_bind
      · clear below
        induction items with
        | nil => exact bounded_pure []
        | cons item items rest =>
            rw [List.forall_mem_cons] at induction
            rw [walkItems]
            apply bounded_bind induction.1
            intro walked
            apply bounded_bind (rest induction.2)
            exact fun others => bounded_pure (walked :: others)
      · exact fun walked => bounded_pure (Json.arr walked)
  | obj obj induction =>
      rw [walk]
      apply bounded_bind
      · generalize uriByStem allow obj = slots
        clear below
        induction obj with
        | nil => exact bounded_pure []
        | cons field fields rest =>
            obtain ⟨key, value⟩ := field
            rw [List.forall_mem_cons] at induction
            rw [walkFields]
            apply Relates.ite
            · exact fun _ => rest induction.2
            · intro _
              apply bounded_bind induction.1
              intro walked
              apply bounded_bind (rest induction.2)
              exact fun others => bounded_pure ((key, walked) :: others)
      · intro copied
        apply bounded_bind (bounded_expandSlots below _ copied)
        exact fun expanded => bounded_pure (Json.obj expanded)

end

/-- No fetch is nested deeper than the expansions, and no path goes through one
URI twice. -/
theorem bounded_flatten (max_depth : Nat) (visited : List String)
    (value : Json) :
    Relates (Bounded max_depth visited)
      (flatten allow fetch max_depth visited value) := by
  induction max_depth generalizing visited value with
  | zero =>
      rw [flatten_eq]
      apply bounded_walk
      intro depth same
      cases same
  | succ max_depth induction =>
      rw [flatten_eq]
      apply bounded_walk
      intro depth same uri _ payload
      cases same
      exact induction (uri :: visited) payload

end Paths

/-- Values that are equal but for the spaces around the URIs of slots. -/
inductive SameUris : Json → Json → Prop where
  | scalar {value : Json} : IsScalar value → SameUris value value
  | arr {items results : List Json} : items.length = results.length →
      (∀ (place : Nat) (item result : Json), items[place]? = some item →
        results[place]? = some result → SameUris item result) →
      SameUris (.arr items) (.arr results)
  | obj {obj out : Fields}
      (keys : ∀ key, key ∈ out.keys ↔ key ∈ obj.keys)
      (slots : ∀ slot ∈ slotsOf obj, ∃ uri,
        out.get? slot.key = some (.str uri) ∧ Text.strip uri = slot.uri)
      (others : ∀ key value result, obj.get? key = some value →
        (∀ slot ∈ slotsOf obj, slot.key ≠ key) →
        out.get? key = some result → SameUris value result) :
      SameUris (.obj obj) (.obj out)

section

variable {allow : Option (List String)}
  {fetch : String → String → Except Raised Json}

theorem not_expands_zero {visited : List String} {slot : Slot} :
    ¬ Expands allow 0 visited slot :=
  fun expands => Nat.lt_irrefl 0 expands.2.1

/-- What no expansion touches is the same. -/
theorem Inlined.sameUris {max_depth : Nat} {visited : List String}
    {value result : Json}
    (inlined : Inlined allow fetch max_depth visited value result)
    (distinct : Distinct value) (none : max_depth = 0) :
    SameUris value result := by
  induction inlined with
  | scalar scalar => exact .scalar scalar
  | arr lengths _ induction =>
      cases distinct with
      | scalar scalar => exact scalar.elim
      | arr distinct =>
        apply SameUris.arr lengths
        intro place item value there made
        exact induction place item value there made
          (distinct item (List.mem_of_getElem? there)) none
  | @obj max_depth visited obj out slots present others fetched inlined dropped
      only induction _ =>
      subst none
      have unreplaced : ∀ key, ¬ Replaced allow 0 visited obj key := by
        intro key replaced
        obtain ⟨slot, _, expands, _⟩ := replaced
        exact not_expands_zero expands
      cases distinct with
      | scalar scalar => exact scalar.elim
      | obj keys distinct =>
        have stays : ∀ slot ∈ slotsOf obj, ∃ uri,
            out.get? slot.key = some (.str uri) ∧
              Text.strip uri = slot.uri := by
          intro slot member
          have here := slots slot member not_expands_zero
          obtain ⟨text, inside, stripped, _⟩ := mem_slotsOf_iff.mp member
          rw [kept, get?_of_mem keys inside] at here
          split_ifs at here
          · exact ⟨slot.uri, here, by rw [← stripped, Text.strip_strip]⟩
          · exact ⟨text, here, stripped⟩
        apply SameUris.obj
        · intro key
          constructor
          · intro there
            rcases only key there with here | ⟨slot, _, expands, _⟩
            · exact here
            · exact absurd expands not_expands_zero
          · intro there
            obtain ⟨value, given⟩ := exists_get?_of_mem_keys there
            by_cases slotted : ∃ slot ∈ slotsOf obj, slot.key = key
            · obtain ⟨slot, member, same⟩ := slotted
              obtain ⟨uri, found, _⟩ := stays slot member
              rw [← same]
              exact mem_keys_of_get? found
            · obtain ⟨result, found⟩ := present key value given
                (fun slot member same => slotted ⟨slot, member, same⟩)
                (unreplaced key)
              exact mem_keys_of_get? found
        · exact stays
        · intro key value result given bare found
          exact induction key value result given bare (unreplaced key) found
            (distinct (key, value) (mem_of_get? given)) rfl

end

section

variable (allow : Option (List String))
  (fetch : String → String → Except Raised Json)

/-- Flattening loses nothing it does not expand: fetches nest no deeper than
`max_depth` and never go through one URI twice, what is returned keeps every
slot and key that no expansion replaces, and without expansions it is the same
value. -/
structure LosesNothing (max_depth : Int) (value : Json) : Prop where
  bounded : ∀ path ∈ final (flatten_uri_dict allow fetch max_depth value []),
    path.length ≤ max_depth.toNat ∧ path.Nodup
  keeps : ∀ result log,
    flatten_uri_dict allow fetch max_depth value [] = .ok result log →
      Inlined allow fetch max_depth.toNat [] value result
  same : max_depth ≤ 0 → ∀ result log,
    flatten_uri_dict allow fetch max_depth value [] = .ok result log →
      SameUris value result

variable {allow fetch}

theorem bounded_flatten_uri_dict (max_depth : Int) (value : Json) :
    ∀ path ∈ final (flatten_uri_dict allow fetch max_depth value []),
      path.length ≤ max_depth.toNat ∧ path.Nodup := by
  obtain ⟨more, same, bounds⟩ :=
    @bounded_flatten allow fetch max_depth.toNat [] value []
  intro path member
  rw [flatten_uri_dict, same, List.nil_append] at member
  obtain ⟨length, nodup⟩ := bounds path member
  exact ⟨length, nodup List.nodup_nil⟩

/-- A flattening that returns loses nothing exactly where no slot that stays has
a key beside it named like its stem or its CID. -/
theorem flatten_uri_dict_losesNothing_iff
    (payloads : ∀ stem uri payload, fetch stem uri = .ok payload →
      Distinct payload) {value : Json} (distinct : Distinct value)
    (max_depth : Int) :
    LosesNothing allow fetch max_depth value ↔
      ((∃ result log,
          flatten_uri_dict allow fetch max_depth value [] = .ok result log) →
        Lossless allow fetch max_depth.toNat [] value) := by
  constructor
  · intro keeps returned
    obtain ⟨result, log, ran⟩ := returned
    exact (inlined_iff_lossless payloads distinct ⟨[], log, ran⟩).mp
      (keeps.keeps result log ran)
  · intro lossless
    have keeps : ∀ result log,
        flatten_uri_dict allow fetch max_depth value [] = .ok result log →
          Inlined allow fetch max_depth.toNat [] value result := by
      intro result log ran
      exact (inlined_iff_lossless payloads distinct ⟨[], log, ran⟩).mpr
        (lossless ⟨result, log, ran⟩)
    constructor
    · exact bounded_flatten_uri_dict max_depth value
    · exact keeps
    · intro shallow result log ran
      exact (keeps result log ran).sameUris distinct (by omega)

end

/-- A dict whose one slot is fetched as the dict itself. -/
def cycle : Json :=
  .obj [("data_uri", .str "http://x/d")]

def fetchCycle (_ _ : String) : Except Raised Json :=
  .ok cycle

theorem distinct_cycle : Distinct cycle := by
  apply Distinct.obj
  · decide
  · intro field member
    apply Distinct.scalar
    rw [List.mem_singleton.mp member]
    trivial

theorem distinct_of_fetchCycle (stem uri : String) (payload : Json)
    (fetched : fetchCycle stem uri = .ok payload) : Distinct payload := by
  cases fetched
  exact distinct_cycle

theorem lossless_cycle (max_depth : Nat) (visited : List String) :
    Lossless none fetchCycle max_depth visited cycle := by
  have skipped : isSkipped (uriByStem none
      [("data_uri", .str "http://x/d")]) "data_uri" = true := by decide
  have unnamed : ¬ ("data_uri" = "data" ∨ "data_uri" = "data_cid") := by
    decide
  have apart : "data" ≠ "data_uri" := by decide
  induction max_depth generalizing visited with
  | zero =>
      apply Lossless.obj
      · intro slot member _ key inside named
        cases List.mem_singleton.mp member
        rw [List.mem_singleton.mp inside] at named
        exact absurd named unnamed
      · intro slot _ _ other _ expands
        exact absurd expands not_expands_zero
      · intro key value given copied
        rw [List.mem_singleton.mp (mem_keys_of_get? given), skipped] at copied
        cases copied
      · intro slot _ expands
        exact absurd expands not_expands_zero
  | succ max_depth induction =>
      apply Lossless.obj
      · intro slot member _ key inside named
        cases List.mem_singleton.mp member
        rw [List.mem_singleton.mp inside] at named
        exact absurd named unnamed
      · intro slot member _ other inside _ same
        cases List.mem_singleton.mp member
        cases List.mem_singleton.mp inside
        exact absurd same apart
      · intro key value given copied
        rw [List.mem_singleton.mp (mem_keys_of_get? given), skipped] at copied
        cases copied
      · intro slot _ _ payload fetched
        cases fetched
        exact induction _

/-- A dict that fetches itself is flattened without loss. -/
theorem flatten_uri_dict_losesNothing_cycle :
    LosesNothing none fetchCycle 5 cycle :=
  (flatten_uri_dict_losesNothing_iff distinct_of_fetchCycle distinct_cycle
    5).mpr fun _ => lossless_cycle 5 []

/-- The slot of a legacy dict. -/
def legacySlot : Json :=
  .obj [("data_uri", .str "http://x/d"), ("data_cid", .str "legacy")]

def fetchNothing (_ uri : String) : Except Raised Json :=
  .error ⟨.keyError, uri⟩

theorem distinct_of_fetchNothing (stem uri : String) (payload : Json)
    (fetched : fetchNothing stem uri = .ok payload) : Distinct payload := by
  cases fetched

theorem distinct_legacySlot : Distinct legacySlot := by
  apply Distinct.obj
  · decide
  · intro field member
    apply Distinct.scalar
    rcases List.mem_cons.mp member with same | member
    · rw [same]
      trivial
    · rw [List.mem_singleton.mp member]
      trivial

theorem flatten_legacySlot : flatten_uri_dict none fetchNothing 0 legacySlot [] =
    .ok (.obj [("data_uri", .str "http://x/d")]) [] := by
  rfl

/-- The CID beside a slot that is not expanded is dropped. -/
theorem flatten_uri_dict_drops_cid :
    ¬ ∀ (allow : Option (List String))
      (fetch : String → String → Except Raised Json) (max_depth : Int)
      (value : Json), (∀ stem uri payload, fetch stem uri = .ok payload →
        Distinct payload) → Distinct value →
          LosesNothing allow fetch max_depth value := by
  intro claimed
  have keeps := claimed none fetchNothing 0 legacySlot
    distinct_of_fetchNothing distinct_legacySlot
  have same := keeps.same (Int.le_refl 0) _ _ flatten_legacySlot
  cases same with
  | obj keys _ _ =>
    have held := (keys "data_cid").mpr (by decide)
    revert held
    decide

end FlattenRefs

end Cats
