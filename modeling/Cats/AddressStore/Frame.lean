import Cats.AddressStore.Read

/-!
# Reads change nothing but the number of GETs

The frame is proved once for the whole of `cat_bytes`, raising or not.
-/

namespace Cats

open Effect

/-- Stores, disk and write log agree. -/
structure Machine.Same (before after : Machine) : Prop where
  home : after.home = before.home
  disk : after.disk = before.disk
  writes : after.writes = before.writes

namespace Machine.Same

theorem refl (machine : Machine) : Machine.Same machine machine :=
  ⟨rfl, rfl, rfl⟩

theorem trans {first second third : Machine} (left : Machine.Same first second)
    (right : Machine.Same second third) : Machine.Same first third :=
  ⟨right.home.trans left.home, right.disk.trans left.disk,
    right.writes.trans left.writes⟩

end Machine.Same

theorem relates_lift {α : Type} {relation : Machine → Machine → Prop}
    (reflexive : ∀ machine, relation machine machine)
    (result : Except Raised α) : Relates relation (Act.lift result) := by
  intro machine
  cases result with
  | ok value => exact reflexive machine
  | error raised => exact reflexive machine

namespace AddressStore

variable (net : Network)

/-- A computation that only reads. -/
abbrev Reads {α : Type} (action : Act α) : Prop :=
  Relates Machine.Same action

theorem reads_lift {α : Type} (result : Except Raised α) :
    Reads (Act.lift result) :=
  relates_lift Machine.Same.refl result

theorem reads_pure {α : Type} (value : α) : Reads (pure value : Act α) :=
  Relates.pure Machine.Same.refl value

theorem reads_throw {α : Type} (raised : Raised) :
    Reads (throw raised : Act α) :=
  Relates.throw Machine.Same.refl raised

theorem reads_bind {α β : Type} {action : Act α} {next : α → Act β}
    (first : Reads action) (later : ∀ value, Reads (next value)) :
    Reads (action >>= next) :=
  Relates.bind (fun left right => left.trans right) first later

theorem reads_get : Reads (get : Act Machine) :=
  Relates.get Machine.Same.refl

theorem reads_urlopen (uri : String) : Reads (urlopen net uri) := by
  refine reads_bind reads_get ?_
  intro machine
  refine reads_bind (fun _ => ⟨rfl, rfl, rfl⟩) ?_
  intro _
  cases net.answer machine.gets uri with
  | none => exact reads_throw _
  | some data => exact reads_pure data

theorem reads_fetchUri (uri : String) : Reads (fetchUri net uri) := by
  refine reads_bind reads_get ?_
  intro machine
  refine reads_bind (reads_lift _) ?_
  intro found
  cases found with
  | some fetched => exact reads_pure fetched
  | none =>
      exact reads_bind (reads_urlopen net uri) fun data => reads_pure (data, none)

theorem reads_attempt {fetch : Act Bytes} (reads : Reads fetch) :
    Reads (attempt fetch) :=
  Relates.tryCatch (fun left right => left.trans right)
    (reads_bind reads fun _ => reads_pure _) (fun _ => reads_pure none)

theorem reads_locatorBytes (content_id : String) (uris : List String) :
    Reads (locatorBytes net content_id uris) := by
  induction uris with
  | nil => exact reads_pure none
  | cons uri uris induction =>
      refine reads_bind (reads_attempt (reads_urlopen net uri)) ?_
      intro fetched
      cases fetched with
      | none => exact induction
      | some data =>
          refine reads_bind (reads_lift _) ?_
          intro digest
          exact Relates.ite (fun _ => reads_throw _) (fun _ => reads_pure _)

theorem reads_hintBytes (content_id : String) (digest : Digest)
    (uris : List String) : Reads (hintBytes net content_id digest uris) := by
  induction uris with
  | nil => exact reads_pure none
  | cons uri uris induction =>
      refine Relates.ite (fun _ => ?_) (fun _ => induction)
      have fetched : Reads (fetch_hint_uri net uri) :=
        reads_bind (reads_fetchUri net uri) fun pair => reads_pure pair.1
      refine reads_bind (reads_attempt fetched) ?_
      intro fetched
      cases fetched with
      | none => exact induction
      | some data =>
          exact Relates.ite (fun _ => reads_throw _) (fun _ => reads_pure _)

theorem reads_catHttp (uri : String) (expect_digest : Option String) :
    Reads (catHttp net uri expect_digest) := by
  refine reads_bind (reads_fetchUri net uri) ?_
  rintro ⟨data, pathDigest⟩
  refine reads_bind reads_get ?_
  intro machine
  refine reads_bind (reads_lift _) ?_
  intro resolved
  cases resolved <|> pathDigest with
  | none => exact reads_pure data
  | some digest =>
      exact Relates.ite (fun _ => reads_throw _) (fun _ => reads_pure _)

theorem reads_catDigest (content_id : String) :
    Reads (catDigest net content_id) := by
  have located : Reads (locate net content_id) := by
    refine reads_bind reads_get ?_
    intro machine
    refine reads_bind (reads_lift _) ?_
    intro stored
    cases stored with
    | some data => exact reads_pure _
    | none =>
        refine reads_bind reads_get ?_
        intro machine
        cases machine.home with
        | none => exact reads_pure none
        | some home =>
            exact reads_bind (reads_lift _) fun uris =>
              reads_locatorBytes net content_id uris
  refine reads_bind located ?_
  intro found
  cases found with
  | none => exact reads_throw _
  | some data =>
      refine reads_bind (reads_lift _) ?_
      intro digest
      exact Relates.ite (fun _ => reads_throw _) (fun _ => reads_pure _)

theorem reads_catPlain (content_id : String)
    (expect_digest : Option String) :
    Reads (catPlain net content_id expect_digest) :=
  Relates.ite (fun _ => reads_catHttp net content_id expect_digest) fun _ =>
    Relates.ite (fun _ => reads_catDigest net content_id) fun _ =>
      reads_throw _

/-- A read leaves stores, disk and log alone. -/
theorem reads_cat_bytes (content_id : String)
    (expect_digest : Option String) :
    Reads (cat_bytes net content_id expect_digest) := by
  refine Relates.ite (fun _ => ?_)
    (fun _ => reads_catPlain net content_id expect_digest)
  refine reads_bind (reads_lift _) ?_
  rintro ⟨ni, uris⟩
  refine reads_bind (reads_lift _) ?_
  intro digest
  refine reads_bind (reads_hintBytes net content_id digest uris) ?_
  intro hinted
  cases hinted with
  | some data => exact reads_pure data
  | none => exact reads_catPlain net ni expect_digest

theorem reads_cat (content_id : String) : Reads (cat net content_id) :=
  reads_bind (reads_cat_bytes net content_id none) fun _ => reads_lift _

/-- The states around a read that returned. -/
theorem same_of_ok {α : Type} {action : Act α} {machine after : Machine}
    {value : α} (reads : Reads action)
    (ran : action machine = .ok value after) : Machine.Same machine after := by
  have related := reads machine
  rwa [ran] at related

end AddressStore

end Cats
