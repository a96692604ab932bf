import Cats.Cas.Store

/-!
# Puts that do not finish

`CasHttpStore.put` writes a blob in place, under its final name.  A process
that stops during the write leaves the bytes written so far, and the next
`put` of the whole bytes compares itself with them.
-/

namespace Cats

namespace CasHttpStore

/-- `CasHttpStore.has(content_id)`. -/
def has (store : CasHttpStore) (content_id : String) : Except Raised Bool :=
  (store.get content_id).map Option.isSome

/-- A call of `put`, whole or stopped on the way: before the file is opened, or
after some of its bytes. -/
inductive Attempt where
  | whole (data : Bytes)
  | stopped (data : Bytes) (written : Option Nat)

/-- The store an attempt leaves behind. -/
def attempt (store : CasHttpStore) : Attempt → CasHttpStore
  | .whole data =>
      match store.put data with
      | .ok (_, after) => after
      | .error _ => store
  | .stopped data written =>
      match store.blobs (sha256_hex data), written with
      | none, some count =>
          { blobs := Function.update store.blobs (sha256_hex data)
              (some (data.take count)) }
      | _, _ => store

/-- The store after a run of attempts on an empty one. -/
def attempts (run : List Attempt) : CasHttpStore :=
  run.foldl attempt empty

@[simp] theorem attempts_nil : attempts [] = empty := rfl

@[simp] theorem attempts_concat (run : List Attempt) (last : Attempt) :
    attempts (run ++ [last]) = (attempts run).attempt last := by
  simp [attempts]

/-- Every blob hashes to its name. -/
def Intact (store : CasHttpStore) : Prop :=
  ∀ digest data, store.blobs digest = some data → sha256_hex data = digest

/-- What a reader and a later writer rely on: a blob is the bytes of its
digest, so one that is there is whole; and a put returns its bytes, unless
other bytes with the same sha256 are there. -/
structure Sound (store : CasHttpStore) : Prop where
  read : ∀ digest data, store.get (to_ni digest) = .ok (some data) →
    sha256_hex data = digest
  has : ∀ digest, store.has (to_ni digest) = .ok true →
    ∃ data, store.get (to_ni digest) = .ok (some data) ∧
      sha256_hex data = digest
  again : ∀ data, (∃ after,
      store.put data = .ok (to_ni (sha256_hex data), after) ∧
      after.get (to_ni (sha256_hex data)) = .ok (some data)) ∨
    ∃ other, other ≠ data ∧ sha256_hex other = sha256_hex data ∧
      store.get (to_ni (sha256_hex data)) = .ok (some other)

theorem intact_empty : Intact empty := by
  intro digest data found
  simp [empty] at found

/-- Soundness is one fact about the files. -/
theorem sound_iff_intact {store : CasHttpStore} :
    Sound store ↔ Intact store := by
  constructor
  · intro sound digest data found
    apply sound.read digest data
    rw [get_to_ni, found]
  · intro intact
    constructor
    · intro digest data read
      rw [get_to_ni, Except.ok.injEq] at read
      exact intact digest data read
    · intro digest there
      rw [has, get_to_ni, Except.map, Except.ok.injEq] at there
      obtain ⟨data, found⟩ := Option.isSome_iff_exists.mp there
      refine ⟨data, ?_, intact digest data found⟩
      rw [get_to_ni, found]
    · intro data
      cases found : store.blobs (sha256_hex data) with
      | none =>
          left
          refine ⟨_, by simp only [put, found]; rfl, ?_⟩
          rw [get_to_ni]
          dsimp only
          rw [Function.update_self]
      | some existing =>
          by_cases same : existing = data
          · left
            refine ⟨store, by simp only [put, found, same, if_true], ?_⟩
            rw [get_to_ni, found, same]
          · right
            refine ⟨existing, same, intact _ existing found, ?_⟩
            rw [get_to_ni, found]

/-- Storing bytes under their own digest keeps the blobs intact. -/
theorem Intact.store {store : CasHttpStore} (intact : Intact store)
    (data : Bytes) (digest : Digest) (named : sha256_hex data = digest) :
    Intact { blobs := Function.update store.blobs digest (some data) } := by
  intro other bytes found
  dsimp only at found
  by_cases same : other = digest
  · rw [same, Function.update_self, Option.some.injEq] at found
    rw [← found, named, same]
  · rw [Function.update_of_ne same] at found
    exact intact other bytes found

/-- An attempt that leaves no torn file: a whole put, one stopped before it
opens the file or because the file is there, or one stopped when all bytes were
written. -/
def Untorn (store : CasHttpStore) : Attempt → Prop
  | .whole _ => True
  | .stopped data written =>
      ∀ count, written = some count → store.blobs (sha256_hex data) = none →
        sha256_hex (data.take count) = sha256_hex data

/-- An attempt on intact blobs leaves them intact exactly when it is not
torn. -/
theorem intact_attempt_iff {store : CasHttpStore} (intact : Intact store)
    (step : Attempt) : Intact (store.attempt step) ↔ Untorn store step := by
  cases step with
  | whole data =>
      refine ⟨fun _ => trivial, fun _ => ?_⟩
      rw [attempt]
      cases stored : store.put data with
      | error raised => exact intact
      | ok outcome =>
          obtain ⟨content_id, after⟩ := outcome
          have blobs := (put_ok stored).2
          intro digest bytes found
          rw [blobs] at found
          apply intact.store data (sha256_hex data) rfl digest bytes
          dsimp only
          exact found
  | stopped data written =>
      cases there : store.blobs (sha256_hex data) with
      | some existing =>
          have same : store.attempt (.stopped data written) = store := by
            simp only [attempt, there]
          rw [same]
          refine ⟨fun _ count _ absent => ?_, fun _ => intact⟩
          rw [there] at absent
          cases absent
      | none =>
          cases written with
          | none =>
              have same : store.attempt (.stopped data none) = store := by
                simp only [attempt, there]
              rw [same]
              refine ⟨fun _ count impossible => ?_, fun _ => intact⟩
              cases impossible
          | some count =>
              have left : store.attempt (.stopped data (some count)) =
                  { blobs := Function.update store.blobs (sha256_hex data)
                      (some (data.take count)) } := by
                simp only [attempt, there]
              rw [left]
              constructor
              · intro whole other equal _
                obtain rfl := Option.some.inj equal
                apply whole (sha256_hex data) (data.take count)
                dsimp only
                rw [Function.update_self]
              · intro untorn
                exact intact.store (data.take count) (sha256_hex data)
                  (untorn count rfl there)

/-- The stores of a run stay sound exactly when no attempt of it is torn. -/
theorem sound_iff_untorn (run : List Attempt) :
    (∀ before, before <+: run → Sound (attempts before)) ↔
      ∀ before step, before ++ [step] <+: run →
        Untorn (attempts before) step := by
  constructor
  · intro sound before step start
    have first := sound before ((List.prefix_append _ _).trans start)
    have second := sound (before ++ [step]) start
    rw [sound_iff_intact] at first second
    rw [attempts_concat] at second
    exact (intact_attempt_iff first step).mp second
  · intro untorn
    have intact : ∀ before, before <+: run → Intact (attempts before) := by
      intro before
      induction before using List.reverseRecOn with
      | nil => exact fun _ => intact_empty
      | append_singleton before step induction =>
          intro start
          have earlier :=
            induction ((List.prefix_append _ _).trans start)
          rw [attempts_concat]
          exact (intact_attempt_iff earlier step).mpr
            (untorn before step start)
    intro before start
    exact sound_iff_intact.mpr (intact before start)

/-- A put of one byte that stops after it opened the file leaves an empty
blob. -/
theorem stopped_put_unsound : ¬ ∀ run before : List Attempt,
    before <+: run → Sound (attempts before) := by
  intro sound
  have stopped := sound [.stopped [0] (some 0)] _ List.prefix_rfl
  rw [sound_iff_intact, ← List.nil_append [Attempt.stopped [0] (some 0)],
    attempts_concat, attempts_nil, intact_attempt_iff intact_empty] at stopped
  have named := stopped 0 rfl rfl
  revert named
  decide +kernel

end CasHttpStore

end Cats
