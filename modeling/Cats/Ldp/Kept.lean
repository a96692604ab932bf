import Cats.AddressStore.Frame
import Cats.Cas.Tree
import Cats.Ldp.Resources
import Cats.Posix.Files

/-!
# Blobs stay

Whatever a Node mints, registers or publishes, on whichever way out, the blobs
it held it still holds.
-/

namespace Cats

open Effect

/-- The blob the Node holds under a digest. -/
def Machine.blob? (machine : Machine) (digest : Digest) : Option Bytes :=
  machine.home.bind fun home => home.cas.blobs digest

/-- A blob that was held is held. -/
def Keeps (before after : Machine) : Prop :=
  ∀ digest blob, before.blob? digest = some blob →
    after.blob? digest = some blob

namespace Keeps

theorem refl (machine : Machine) : Keeps machine machine :=
  fun _ _ held => held

theorem trans {first second third : Machine} (left : Keeps first second)
    (right : Keeps second third) : Keeps first third :=
  fun digest blob held => right digest blob (left digest blob held)

theorem of_home {before after : Machine} (same : after.home = before.home) :
    Keeps before after := by
  intro digest blob held
  unfold Machine.blob?
  rw [same]
  exact held

end Keeps

/-- A computation that keeps the blobs. -/
abbrev Adds {α : Type} (action : Act α) : Prop := Relates Keeps action

section Rules

variable {α β : Type}

theorem adds_pure (value : α) : Adds (pure value : Act α) :=
  Relates.pure Keeps.refl value

theorem adds_throw (raised : Raised) : Adds (throw raised : Act α) :=
  Relates.throw Keeps.refl raised

theorem adds_get : Adds (get : Act Machine) := Relates.get Keeps.refl

theorem adds_lift (result : Except Raised α) : Adds (Act.lift result) :=
  relates_lift Keeps.refl result

theorem adds_bind {action : Act α} {next : α → Act β} (first : Adds action)
    (later : ∀ value, Adds (next value)) : Adds (action >>= next) :=
  Relates.bind (fun left right => left.trans right) first later

theorem adds_tryCatch {action : Act α} {handler : Raised → Act α}
    (body : Adds action) (handled : ∀ raised, Adds (handler raised)) :
    Adds (tryCatch action handler) :=
  Relates.tryCatch (fun left right => left.trans right) body handled

theorem adds_of_reads {action : Act α} (reads : AddressStore.Reads action) :
    Adds action :=
  fun machine => .of_home (reads machine).home

theorem adds_of_fileless {action : Act α} (fileless : Fileless action) :
    Adds action :=
  fun machine => .of_home (fileless machine).home

/-- The states around a computation that returned. -/
theorem Adds.of_ok {action : Act α} (adds : Adds action)
    {before after : Machine} {value : α}
    (ran : action before = .ok value after) : Keeps before after := by
  have kept := adds before
  rwa [ran] at kept

theorem adds_withIndex
    (step : Option LocatorIndex → Except Raised (α × Option LocatorIndex)) :
    Adds (Act.withIndex step) := by
  apply adds_bind adds_get
  intro machine
  apply adds_bind (adds_lift _)
  intro pair
  apply adds_bind _ fun _ => adds_pure _
  apply Relates.modify
  intro state digest blob held
  unfold Machine.blob? at held ⊢
  cases local_home : state.home with
  | none =>
      rw [local_home] at held
      cases held
  | some home =>
      rw [local_home] at held
      dsimp only
      cases pair.2 with
      | none => exact held
      | some index => exact held

theorem withHome_ok {step : Home → Except Raised (α × Home)}
    {machine after : Machine} {value : α}
    (ran : Act.withHome step machine = .ok value after) :
    ∃ home changed, machine.home = some home ∧
      step home = .ok (value, changed) ∧
      after = { machine with home := some changed } := by
  unfold Act.withHome at ran
  rw [bind_run_ok (get_run machine)] at ran
  cases local_home : machine.home with
  | none =>
      rw [local_home] at ran
      cases ran
  | some home =>
      rw [local_home] at ran
      dsimp only at ran
      cases stepped : step home with
      | error raised =>
          rw [stepped] at ran
          cases ran
      | ok pair =>
          rw [stepped] at ran
          cases ran
          exact ⟨home, pair.2, rfl, stepped, rfl⟩

theorem adds_withHome {step : Home → Except Raised (α × Home)}
    (keeps : ∀ home value changed, step home = .ok (value, changed) →
      ∀ digest blob, home.cas.blobs digest = some blob →
        changed.cas.blobs digest = some blob) :
    Adds (Act.withHome step) := by
  intro machine
  unfold Act.withHome
  rw [bind_run_ok (get_run machine)]
  cases local_home : machine.home with
  | none => exact .refl machine
  | some home =>
      dsimp only
      cases stepped : step home with
      | error raised => exact .refl machine
      | ok pair =>
          intro digest blob held
          unfold Machine.blob? at held
          rw [local_home] at held
          exact keeps home pair.1 pair.2 stepped digest blob held

end Rules

namespace Disk

theorem adds_writeFile (path : String) (data : Bytes) :
    Adds (writeFile path data) := by
  apply adds_bind (adds_of_fileless (fileless_checkNul path))
  intro _
  apply adds_bind adds_get
  intro machine
  apply Relates.ite
  · exact fun _ => adds_throw _
  · intro _
    apply Relates.ite
    · exact fun _ state => .of_home rfl
    · intro _
      apply Relates.ite
      · exact fun _ => adds_throw _
      · exact fun _ => adds_throw _

theorem adds_mkdtemp (path : String) : Adds (mkdtemp path) := by
  apply adds_bind adds_get
  intro machine
  apply Relates.ite
  · exact fun _ => adds_throw _
  · intro _
    apply Relates.ite
    · exact fun _ state => .of_home rfl
    · exact fun _ => adds_throw _

theorem adds_rmtree (path : String) : Adds (rmtree path) :=
  fun _ => .of_home rfl

end Disk

section Trees

theorem putFiles_keeps {files : List (String × Bytes)}
    {store stored : CasHttpStore} {entries put : Fields}
    (ran : putFiles store entries files = .ok (put, stored)) {digest : Digest}
    {blob : Bytes} (held : store.blobs digest = some blob) :
    stored.blobs digest = some blob := by
  induction files generalizing store entries with
  | nil =>
      cases ran
      exact held
  | cons file files induction =>
      obtain ⟨pair, first, rest⟩ := Raised.bind_returns ran
      exact induction rest (CasHttpStore.put_keeps first held)

theorem put_tree_keeps {store stored : CasHttpStore} {directory : Directory}
    {ignore : String → Bool} {content_id : String}
    (ran : put_tree store directory ignore = .ok (content_id, stored))
    {digest : Digest} {blob : Bytes}
    (held : store.blobs digest = some blob) :
    stored.blobs digest = some blob := by
  obtain ⟨pair, files, rest⟩ := Raised.bind_returns ran
  obtain ⟨manifest, _, put⟩ := Raised.bind_returns rest
  exact CasHttpStore.put_keeps put (putFiles_keeps files held)

end Trees

section Minting

variable (base_url : String)

theorem adds_registerLocator (content_id uri : String)
    (media_type : Option String) :
    Adds (registerLocator content_id uri media_type) := by
  apply adds_withHome
  intro home value changed stepped digest blob held
  obtain ⟨index, _, same⟩ := Raised.bind_returns stepped
  cases same
  exact held

theorem adds_putResource (kind : ResourceKind) (content_id : String)
    (obj : Json) : Adds (putResource kind content_id obj) := by
  apply adds_withHome
  intro home value changed stepped digest blob held
  obtain ⟨index, _, same⟩ := Raised.bind_returns stepped
  cases same
  exact held

theorem adds_put_bytes (data : Bytes) (media_type : Option String) :
    Adds (ContentMesh.put_bytes base_url data media_type) := by
  apply adds_bind
  · apply adds_withHome
    intro home value changed stepped digest blob held
    obtain ⟨pair, stored, same⟩ := Raised.bind_returns stepped
    cases same
    exact CasHttpStore.put_keeps stored held
  intro content_id
  apply adds_bind _ fun _ => adds_pure _
  apply adds_withHome
  intro home value changed stepped digest blob held
  obtain ⟨index, _, same⟩ := Raised.bind_returns stepped
  cases same
  exact held

theorem adds_put_json (obj : Json) : Adds (ContentMesh.put_json base_url obj) :=
  adds_put_bytes base_url _ _

/-- An object is held under its id. -/
structure Minted (machine : Machine) (content_id : String) (obj : Fields) :
    Prop where
  named : content_id = to_ni (sha256_hex (mintedBytes (.obj obj)))
  held : machine.blob? (sha256_hex (mintedBytes (.obj obj))) =
    some (mintedBytes (.obj obj))

theorem Minted.later {before after : Machine} {content_id : String}
    {obj : Fields} (minted : Minted before content_id obj)
    (keeps : Keeps before after) : Minted after content_id obj :=
  ⟨minted.named, keeps _ _ minted.held⟩

variable {base_url}

theorem put_bytes_ok {data : Bytes} {media_type : Option String}
    {machine after : Machine} {content_id : String}
    (ran : ContentMesh.put_bytes base_url data media_type machine =
      .ok content_id after) :
    content_id = to_ni (sha256_hex data) ∧
      after.blob? (sha256_hex data) = some data := by
  obtain ⟨name, middle, stored, rest⟩ := bind_ok ran
  obtain ⟨_, last, registered, returned⟩ := bind_ok rest
  cases returned
  have keeps : Keeps middle after := by
    apply Adds.of_ok _ registered
    apply adds_withHome
    intro home value changed stepped digest blob held
    obtain ⟨index, _, same⟩ := Raised.bind_returns stepped
    cases same
    exact held
  obtain ⟨home, changed, _, stepped, rfl⟩ := withHome_ok stored
  obtain ⟨pair, put, same⟩ := Raised.bind_returns stepped
  cases same
  obtain ⟨named, blobs⟩ := CasHttpStore.put_ok put
  refine ⟨named, keeps _ _ ?_⟩
  change pair.2.blobs _ = _
  rw [blobs, Function.update_self]

theorem put_json_ok {obj : Fields} {machine after : Machine}
    {content_id : String}
    (ran : ContentMesh.put_json base_url (.obj obj) machine =
      .ok content_id after) : Minted after content_id obj := by
  obtain ⟨named, held⟩ := put_bytes_ok ran
  exact ⟨named, held⟩

end Minting

end Cats
