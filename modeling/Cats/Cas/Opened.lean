import Cats.Cas.Lossless

/-!
# The slots a flattening opens

Flattening reads the content through its fetch and nowhere else: two fetches
that agree on the slots that are opened flatten a value alike, and flattening
returns where each of these slots has a payload.
-/

namespace Cats

namespace FlattenRefs

open Effect

section

variable (allow : Option (List String))
  (fetch : String → String → Except Raised Json)

/-- A slot that is fetched, `max_depth` expansions deep and below the URIs gone
through. -/
inductive Opened : Nat → List String → Json → Slot → Prop where
  | item {max_depth : Nat} {visited : List String} {items : List Json}
      {item : Json} {slot : Slot} (member : item ∈ items)
      (below : Opened max_depth visited item slot) :
      Opened max_depth visited (.arr items) slot
  | value {max_depth : Nat} {visited : List String} {obj : Fields}
      {field : String × Json} {slot : Slot} (member : field ∈ obj)
      (copied : isSkipped (uriByStem allow obj) field.1 = false)
      (below : Opened max_depth visited field.2 slot) :
      Opened max_depth visited (.obj obj) slot
  | here {max_depth : Nat} {visited : List String} {obj : Fields} {slot : Slot}
      (member : slot ∈ uriByStem allow obj) (fresh : slot.uri ∉ visited) :
      Opened (max_depth + 1) visited (.obj obj) slot
  | inside {max_depth : Nat} {visited : List String} {obj : Fields}
      {slot inner : Slot} {payload : Json}
      (member : slot ∈ uriByStem allow obj) (fresh : slot.uri ∉ visited)
      (fetched : fetch slot.stem slot.uri = .ok payload)
      (below : Opened max_depth (slot.uri :: visited) payload inner) :
      Opened (max_depth + 1) visited (.obj obj) inner

end

section Agreement

variable {allow : Option (List String)}
  {fetch other : String → String → Except Raised Json}

/-- Fetches that agree on what one of them opens open the same slots. -/
theorem Opened.of_agree {max_depth : Nat} {visited : List String}
    {value : Json} {slot : Slot}
    (opened : Opened allow other max_depth visited value slot)
    (agree : ∀ slot, Opened allow fetch max_depth visited value slot →
      other slot.stem slot.uri = fetch slot.stem slot.uri) :
    Opened allow fetch max_depth visited value slot := by
  induction opened with
  | item member _ induction =>
      exact .item member (induction fun slot below =>
        agree slot (.item member below))
  | value member copied _ induction =>
      exact .value member copied (induction fun slot below =>
        agree slot (.value member copied below))
  | here member fresh => exact .here member fresh
  | inside member fresh fetched _ induction =>
      have same := agree _ (.here member fresh)
      rw [fetched] at same
      exact .inside member fresh same.symm (induction fun slot below =>
        agree slot (.inside member fresh same.symm below))

/-- Flattening a value with either fetch is the same. -/
def Alike (allow : Option (List String))
    (fetch other : String → String → Except Raised Json) (max_depth : Nat)
    (visited : List String) (value : Json) : Prop :=
  flatten allow other max_depth visited value =
    flatten allow fetch max_depth visited value

/-- Without expansions nothing is fetched. -/
theorem expandSlots_none (visited : List String) (slots : List Slot)
    (out : Fields) :
    expandSlots other none visited slots out =
      expandSlots fetch none visited slots out := by
  induction slots generalizing out with
  | nil => rfl
  | cons slot slots induction => exact induction _

/-- The slots of a dict are expanded alike where they are fetched alike and
their payloads are flattened alike. -/
theorem expandSlots_congr {max_depth : Nat} {visited : List String}
    {slots : List Slot}
    (agree : ∀ slot ∈ slots, slot.uri ∉ visited →
      other slot.stem slot.uri = fetch slot.stem slot.uri)
    (below : ∀ slot ∈ slots, slot.uri ∉ visited → ∀ payload,
      fetch slot.stem slot.uri = .ok payload →
        Alike allow fetch other max_depth (slot.uri :: visited) payload)
    (out : Fields) :
    expandSlots other (inlineAt allow other (max_depth + 1)) visited slots out =
      expandSlots fetch (inlineAt allow fetch (max_depth + 1)) visited slots
        out := by
  induction slots generalizing out with
  | nil => rfl
  | cons slot slots induction =>
      rw [List.forall_mem_cons] at agree below
      have later := induction agree.2 below.2
      simp only [expandSlots, inlineAt]
      by_cases gone : slot.uri ∈ visited
      · rw [if_pos gone, if_pos gone]
        exact later _
      · rw [if_neg gone, if_neg gone]
        have here : fetchBelow other visited slot =
            fetchBelow fetch visited slot := by
          unfold fetchBelow
          rw [agree.1 gone]
        rw [here]
        apply bind_congr_ok
        intro log payload after fetched
        rw [show flatten allow other max_depth (slot.uri :: visited) payload =
            flatten allow fetch max_depth (slot.uri :: visited) payload from
          below.1 gone payload (fetchBelow_ok fetched)]
        apply bind_congr_ok
        intro _ value _ _
        exact later _

/-- Two fetches that agree on what one of them opens flatten alike. -/
theorem flatten_congr (max_depth : Nat) (visited : List String) (value : Json)
    (agree : ∀ slot, Opened allow fetch max_depth visited value slot →
      other slot.stem slot.uri = fetch slot.stem slot.uri) :
    Alike allow fetch other max_depth visited value := by
  induction max_depth using Nat.strong_induction_on generalizing visited value with
  | _ max_depth deeper =>
  induction value using value_induction with
  | scalar value scalar =>
      funext log
      rw [flatten_scalar scalar, flatten_scalar scalar]
  | arr items induction =>
      unfold Alike
      rw [flatten_eq, flatten_eq, walk, walk]
      have same : walkItems allow other (inlineAt allow other max_depth) visited
          items = walkItems allow fetch (inlineAt allow fetch max_depth) visited
            items := by
        have each : ∀ item ∈ items, Alike allow fetch other max_depth visited
            item := fun item member => induction item member
          fun slot below => agree slot (.item member below)
        clear induction agree
        induction items with
        | nil => rfl
        | cons item items rest =>
            rw [List.forall_mem_cons] at each
            have first := each.1
            unfold Alike at first
            rw [flatten_eq, flatten_eq] at first
            rw [walkItems, walkItems, first, rest each.2]
      rw [same]
  | obj obj induction =>
      unfold Alike
      rw [flatten_eq, flatten_eq, walk, walk]
      have same : walkFields allow other (inlineAt allow other max_depth)
          visited (uriByStem allow obj) obj =
            walkFields allow fetch (inlineAt allow fetch max_depth) visited
              (uriByStem allow obj) obj := by
        have each : ∀ field ∈ obj,
            isSkipped (uriByStem allow obj) field.1 = false →
              Alike allow fetch other max_depth visited field.2 :=
          fun field member copied => induction field member
            fun slot below => agree slot (.value member copied below)
        clear induction agree
        generalize uriByStem allow obj = slots at each ⊢
        induction obj with
        | nil => rfl
        | cons field fields rest =>
            obtain ⟨key, value⟩ := field
            rw [List.forall_mem_cons] at each
            rw [walkFields, walkFields, rest each.2]
            by_cases skipped : isSkipped slots key = true
            · rw [if_pos skipped, if_pos skipped]
            · have first := each.1 (Bool.eq_false_iff.mpr skipped)
              unfold Alike at first
              rw [flatten_eq, flatten_eq] at first
              rw [if_neg skipped, if_neg skipped, first]
      rw [same]
      apply bind_congr_ok
      intro _ copied _ _
      cases max_depth with
      | zero => rw [inlineAt, inlineAt, @expandSlots_none fetch other]
      | succ max_depth =>
          rw [@expandSlots_congr allow fetch other]
          · intro slot member fresh
            exact agree slot (.here member fresh)
          · intro slot member fresh payload fetched
            exact deeper max_depth (Nat.lt_succ_self max_depth) _ _
              fun inner below => agree inner (.inside member fresh fetched below)

end Agreement

section Returning

variable {allow : Option (List String)}
  {fetch : String → String → Except Raised Json}

/-- The walk returns, whatever was fetched before. -/
def Returns {α : Type} (action : Walk α) : Prop :=
  ∀ log, ∃ value after, action log = .ok value after

theorem returns_pure {α : Type} (value : α) : Returns (pure value : Walk α) :=
  fun log => ⟨value, log, rfl⟩

theorem returns_bind {α β : Type} {action : Walk α} {next : α → Walk β}
    (first : Returns action)
    (later : ∀ state value after, action state = .ok value after →
      Returns (next value)) :
    Returns (action >>= next) := by
  intro log
  obtain ⟨value, middle, ran⟩ := first log
  obtain ⟨result, after, rest⟩ := later log value middle ran middle
  exact ⟨result, after, (bind_run_ok ran).trans rest⟩

theorem returns_fetchBelow {visited : List String} {slot : Slot}
    {payload : Json} (fetched : fetch slot.stem slot.uri = .ok payload) :
    Returns (fetchBelow fetch visited slot) := by
  unfold fetchBelow
  rw [fetched]
  intro log
  exact ⟨payload, _, rfl⟩

theorem returns_expandSlots {max_depth : Nat} {visited : List String}
    {slots : List Slot}
    (fetches : ∀ slot ∈ slots, 0 < max_depth → slot.uri ∉ visited →
      ∃ payload, fetch slot.stem slot.uri = .ok payload)
    (below : ∀ slot ∈ slots, slot.uri ∉ visited → ∀ depth payload,
      max_depth = depth + 1 → fetch slot.stem slot.uri = .ok payload →
        Returns (flatten allow fetch depth (slot.uri :: visited) payload))
    (out : Fields) :
    Returns (expandSlots fetch (inlineAt allow fetch max_depth) visited slots
      out) := by
  induction slots generalizing out with
  | nil => exact returns_pure out
  | cons slot slots induction =>
      rw [List.forall_mem_cons] at fetches below
      have later := induction fetches.2 below.2
      cases max_depth with
      | zero => exact later _
      | succ max_depth =>
          simp only [expandSlots, inlineAt]
          by_cases gone : slot.uri ∈ visited
          · rw [if_pos gone]
            exact later _
          · rw [if_neg gone]
            obtain ⟨payload, fetched⟩ :=
              fetches.1 (Nat.succ_pos max_depth) gone
            apply returns_bind (returns_fetchBelow fetched)
            intro _ found _ ran
            apply returns_bind
            · exact below.1 gone max_depth found rfl (fetchBelow_ok ran)
            · intro _ value _ _
              exact later _

/-- Flattening returns where every slot that is opened has a payload. -/
theorem flatten_returns (max_depth : Nat) (visited : List String)
    (value : Json)
    (fetches : ∀ slot, Opened allow fetch max_depth visited value slot →
      ∃ payload, fetch slot.stem slot.uri = .ok payload) :
    Returns (flatten allow fetch max_depth visited value) := by
  induction max_depth using Nat.strong_induction_on generalizing visited value with
  | _ max_depth deeper =>
  induction value using value_induction with
  | scalar value scalar => exact fun log => ⟨value, log, flatten_scalar scalar log⟩
  | arr items induction =>
      rw [flatten_eq, walk]
      apply returns_bind
      · have each : ∀ item ∈ items,
            Returns (flatten allow fetch max_depth visited item) :=
          fun item member => induction item member
            fun slot below => fetches slot (.item member below)
        clear induction fetches
        induction items with
        | nil => exact returns_pure []
        | cons item items rest =>
            rw [List.forall_mem_cons] at each
            rw [walkItems]
            apply returns_bind
            · have first := each.1
              rw [flatten_eq] at first
              exact first
            · intro _ walked _ _
              apply returns_bind (rest each.2)
              exact fun _ others _ _ => returns_pure (walked :: others)
      · exact fun _ walked _ _ => returns_pure (Json.arr walked)
  | obj obj induction =>
      rw [flatten_eq, walk]
      apply returns_bind
      · have each : ∀ field ∈ obj,
            isSkipped (uriByStem allow obj) field.1 = false →
              Returns (flatten allow fetch max_depth visited field.2) :=
          fun field member copied => induction field member
            fun slot below => fetches slot (.value member copied below)
        clear induction fetches
        generalize uriByStem allow obj = slots at each ⊢
        induction obj with
        | nil => exact returns_pure []
        | cons field fields rest =>
            obtain ⟨key, value⟩ := field
            rw [List.forall_mem_cons] at each
            rw [walkFields]
            by_cases skipped : isSkipped slots key = true
            · rw [if_pos skipped]
              exact rest each.2
            · rw [if_neg skipped]
              apply returns_bind
              · have first := each.1 (Bool.eq_false_iff.mpr skipped)
                rw [flatten_eq] at first
                exact first
              · intro _ walked _ _
                apply returns_bind (rest each.2)
                exact fun _ others _ _ => returns_pure ((key, walked) :: others)
      · intro _ copied _ _
        apply returns_bind
        · apply returns_expandSlots
          · intro slot member deep fresh
            obtain ⟨depth, same⟩ := Nat.exists_eq_succ_of_ne_zero
              (Nat.ne_of_gt deep)
            rw [same] at fetches
            exact fetches slot (.here member fresh)
          · intro slot member fresh depth payload same fetched
            apply deeper depth
            · rw [same]
              exact Nat.lt_succ_self depth
            · intro inner below
              rw [same] at fetches
              exact fetches inner (.inside member fresh fetched below)
        · exact fun _ expanded _ _ => returns_pure (Json.obj expanded)

end Returning

end FlattenRefs

end Cats
