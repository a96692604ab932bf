import Cats.Raised

/-!
# Reconciling a Structure and its applied marker

A host is the marker files, the Terraform state and how many destroys ran, in
all and up to the last reconcile that returned.  `reconcile` writes the marker after
success and leaves it alone on every failure, so the marker is truthful
exactly as long as no destroy or apply fails while it stands.
-/

namespace Cats

namespace Structure

open Effect

/-- What the Terraform state holds; a failed destroy or apply leaves some
part of it. -/
inductive TerraformState where
  | empty
  | partway
  | complete (structure_id : Option String)
  deriving DecidableEq, Repr

structure Host where
  /-- `.applied-structure.id` -/
  marker : Option String
  /-- `.applied-structure.cid` -/
  legacyMarker : Option String
  terraform : TerraformState
  /-- How many destroys were started. -/
  destroys : Nat
  /-- The same count when a reconcile last returned. -/
  destroysAtReturn : Nat
  /-- `plant.rebuilt` -/
  rebuilt : Option Bool
  deriving DecidableEq, Repr

/-- One reconcile: the id it is for, and which of its phases raise. -/
structure Attempt where
  structure_id : Option String
  initializeRaises : Bool
  destroyRaises : Bool
  applyRaises : Bool
  deriving DecidableEq, Repr

/-- Text mode reads every line ending as a line feed. -/
def universalNewlines : List Char → List Char
  | [] => []
  | '\r' :: '\n' :: rest => '\n' :: universalNewlines rest
  | '\r' :: rest => '\n' :: universalNewlines rest
  | character :: rest => character :: universalNewlines rest

/-- `_read_marker_file(path)`. -/
def read_marker_file (content : Option String) : Option String :=
  match content with
  | none => none
  | some text =>
      let value := Text.strip (String.ofList (universalNewlines text.toList))
      if value = "" then none else some value

/-- `read_applied_structure_id(structure_home)`. -/
def read_applied_structure_id (host : Host) : Option String :=
  match read_marker_file host.marker with
  | some value => some value
  | none => read_marker_file host.legacyMarker

/-- `write_applied_structure_id(structure_home, structure_id)`. -/
def write_applied_structure_id (structure_id : String) :
    Effect Raised Host Unit :=
  modify fun host =>
    { host with
      marker := some structure_id
      legacyMarker := none }

def failed (command : String) : Raised :=
  .runtimeError s!"Command {command} returned non-zero exit status"

/-- `InfraStructure.initialize`. -/
def initializeTerraform (attempt : Attempt) : Effect Raised Host Unit :=
  if attempt.initializeRaises then throw (failed "terraform init")
  else pure ()

/-- `InfraStructure.destroy`. -/
def destroy (attempt : Attempt) : Effect Raised Host Unit := do
  modify fun host => { host with destroys := host.destroys + 1 }
  if attempt.destroyRaises then do
    modify fun host => { host with terraform := .partway }
    throw (failed "terraform destroy")
  else modify fun host => { host with terraform := .empty }

/-- `InfraStructure.apply`. -/
def apply (attempt : Attempt) : Effect Raised Host Unit :=
  if attempt.applyRaises then do
    modify fun host => { host with terraform := .partway }
    throw (failed "terraform apply")
  else
    modify fun host =>
      { host with terraform := .complete attempt.structure_id }

/-- `Structure.redeploy`. -/
def redeploy (attempt : Attempt) : Effect Raised Host Unit := do
  initializeTerraform attempt
  destroy attempt
  apply attempt
  modify fun host => { host with rebuilt := some true }

/-- `Structure.deploy`. -/
def deploy (attempt : Attempt) : Effect Raised Host Unit := do
  initializeTerraform attempt
  apply attempt
  modify fun host => { host with rebuilt := some false }

/-- The fields of `Plant.snapshot()` that depend on the host. -/
structure Snapshot where
  rebuilt : Option Bool
  applied_structure_id : Option String
  deriving DecidableEq, Repr

/-- The id, when it is one that is written: `if structure_id`. -/
def Attempt.recorded (attempt : Attempt) : Option String :=
  attempt.structure_id.filter (· ≠ "")

/-- The id is already applied; the reconcile takes the fast path. -/
def Attempt.inPlace (attempt : Attempt) (host : Host) : Bool :=
  attempt.recorded.isSome &&
    decide (read_applied_structure_id host = attempt.recorded)

/-- Write the marker, for an id that is written. -/
def record (attempt : Attempt) : Effect Raised Host Unit :=
  match attempt.recorded with
  | some id => write_applied_structure_id id
  | none => pure ()

/-- `self.plant.snapshot()` on the way out of a reconcile. -/
def snapshot : Effect Raised Host Snapshot := do
  let host ← get
  modify fun host => { host with destroysAtReturn := host.destroys }
  pure { rebuilt := host.rebuilt
         applied_structure_id := read_applied_structure_id host }

/-- `Structure.reconcile`. -/
def reconcile (attempt : Attempt) : Effect Raised Host Snapshot := do
  let host ← get
  if attempt.inPlace host then deploy attempt else redeploy attempt
  record attempt
  snapshot

/-- The marker names a complete apply of what it says. -/
def Truthful (host : Host) : Prop :=
  ∀ structure_id, read_applied_structure_id host = some structure_id →
    host.terraform = .complete (some structure_id)

/-- No destroy has run behind a marker. -/
def Settled (host : Host) : Prop :=
  ∀ structure_id, read_applied_structure_id host = some structure_id →
    host.destroys = host.destroysAtReturn

/-- The reconcile fails in a phase that changes the Terraform state. -/
def Attempt.breaks (attempt : Attempt) (host : Host) : Bool :=
  !attempt.initializeRaises &&
    ((!attempt.inPlace host && attempt.destroyRaises) || attempt.applyRaises)

/-- The condition on one reconcile: while a marker stands no destroy or apply
fails, and what a returning one leaves as marker is the id it applied. -/
def Attempt.Sound (attempt : Attempt) (host : Host) : Prop :=
  if attempt.initializeRaises = true then True
  else if attempt.breaks host = true then
    read_applied_structure_id host = none
  else
    match attempt.recorded with
    | some id => ∀ read, read_marker_file (some id) = some read → read = id
    | none => read_applied_structure_id host = none

/-- The reconcile returns. -/
def Attempt.returns (attempt : Attempt) (host : Host) : Bool :=
  !attempt.initializeRaises && !attempt.breaks host

/-- The host a reconcile leaves behind. -/
def settle (attempt : Attempt) (host : Host) : Host :=
  if attempt.initializeRaises = true then host
  else if attempt.inPlace host = true then
    if attempt.applyRaises = true then { host with terraform := .partway }
    else
      { marker := attempt.recorded
        legacyMarker := none
        terraform := .complete attempt.structure_id
        destroys := host.destroys
        destroysAtReturn := host.destroys
        rebuilt := some false }
  else if attempt.destroyRaises = true ∨ attempt.applyRaises = true then
    { host with
      terraform := .partway
      destroys := host.destroys + 1 }
  else
    { marker := attempt.recorded.or host.marker
      legacyMarker := attempt.recorded.elim host.legacyMarker fun _ => none
      terraform := .complete attempt.structure_id
      destroys := host.destroys + 1
      destroysAtReturn := host.destroys + 1
      rebuilt := some true }

theorem redeploy_run (attempt : Attempt) (host : Host) :
    redeploy attempt host =
      if attempt.initializeRaises = true then
        .error (failed "terraform init") host
      else if attempt.destroyRaises = true then
        .error (failed "terraform destroy")
          { host with terraform := .partway, destroys := host.destroys + 1 }
      else if attempt.applyRaises = true then
        .error (failed "terraform apply")
          { host with terraform := .partway, destroys := host.destroys + 1 }
      else
        .ok () { host with
          terraform := .complete attempt.structure_id
          destroys := host.destroys + 1
          rebuilt := some true } := by
  obtain ⟨structure_id, initializeRaises, destroyRaises, applyRaises⟩ := attempt
  cases initializeRaises <;> cases destroyRaises <;> cases applyRaises <;> rfl

theorem deploy_run (attempt : Attempt) (host : Host) :
    deploy attempt host =
      if attempt.initializeRaises = true then
        .error (failed "terraform init") host
      else if attempt.applyRaises = true then
        .error (failed "terraform apply") { host with terraform := .partway }
      else
        .ok () { host with
          terraform := .complete attempt.structure_id
          rebuilt := some false } := by
  obtain ⟨structure_id, initializeRaises, destroyRaises, applyRaises⟩ := attempt
  cases initializeRaises <;> cases applyRaises <;> rfl

theorem record_run (attempt : Attempt) (host : Host) :
    record attempt host = .ok () { host with
      marker := attempt.recorded.or host.marker
      legacyMarker := attempt.recorded.elim host.legacyMarker fun _ => none
      } := by
  unfold record
  cases attempt.recorded <;> rfl

theorem snapshot_run (host : Host) :
    snapshot host = .ok
      { rebuilt := host.rebuilt
        applied_structure_id := read_applied_structure_id host }
      { host with destroysAtReturn := host.destroys } := rfl

/-- A reconcile that returned: its host and whether it rebuilt. -/
theorem reconcile_run (attempt : Attempt) (host : Host) :
    if attempt.returns host = true then
      ∃ taken, reconcile attempt host = .ok taken (settle attempt host) ∧
        taken.rebuilt = some (!attempt.inPlace host)
    else
      ∃ raised, reconcile attempt host =
        .error raised (settle attempt host) := by
  unfold reconcile
  rw [bind_run_ok (get_run host)]
  cases place : attempt.inPlace host with
  | true =>
      have recorded : attempt.recorded.isSome = true := by
        simp only [Attempt.inPlace, Bool.and_eq_true] at place
        exact place.1
      obtain ⟨id, named⟩ := Option.isSome_iff_exists.mp recorded
      have ran := deploy_run attempt host
      cases failsInit : attempt.initializeRaises with
      | true =>
          simp only [failsInit, if_true] at ran
          simp [Attempt.returns, failsInit, bind_run_error ran, settle]
      | false =>
          cases failsApply : attempt.applyRaises with
          | true =>
              simp only [failsInit, failsApply, Bool.false_eq_true, if_false,
                if_true] at ran
              simp [Attempt.returns, Attempt.breaks, failsInit, failsApply,
                bind_run_error ran, settle, place]
          | false =>
              simp only [failsInit, failsApply, Bool.false_eq_true,
                if_false] at ran
              simp [Attempt.returns, Attempt.breaks, failsInit, failsApply,
                place, bind_run_ok ran, bind_run_ok (record_run attempt _),
                snapshot_run, settle, named]
  | false =>
      have ran := redeploy_run attempt host
      cases failsInit : attempt.initializeRaises with
      | true =>
          simp only [failsInit, if_true] at ran
          simp [Attempt.returns, failsInit, bind_run_error ran, settle]
      | false =>
          cases failsDestroy : attempt.destroyRaises with
          | true =>
              simp only [failsInit, failsDestroy, Bool.false_eq_true,
                if_false, if_true] at ran
              simp [Attempt.returns, Attempt.breaks, failsInit, failsDestroy,
                bind_run_error ran, settle, place]
          | false =>
              cases failsApply : attempt.applyRaises with
              | true =>
                  simp only [failsInit, failsDestroy, failsApply,
                    Bool.false_eq_true, if_false, if_true] at ran
                  simp [Attempt.returns, Attempt.breaks, failsInit,
                    failsDestroy, failsApply, bind_run_error ran, settle,
                    place]
              | false =>
                  simp only [failsInit, failsDestroy, failsApply,
                    Bool.false_eq_true, if_false] at ran
                  simp [Attempt.returns, Attempt.breaks, failsInit,
                    failsDestroy, failsApply, place, bind_run_ok ran,
                    bind_run_ok (record_run attempt _), snapshot_run, settle]

theorem final_reconcile (attempt : Attempt) (host : Host) :
    final (reconcile attempt host) = settle attempt host := by
  have ran := reconcile_run attempt host
  split_ifs at ran with returned
  · obtain ⟨taken, result, _⟩ := ran
    rw [result, final_ok]
  · obtain ⟨raised, result⟩ := ran
    rw [result, final_error]

theorem read_marker_file_ne_empty {content : Option String} {value : String}
    (read : read_marker_file content = some value) : value ≠ "" := by
  cases content with
  | none => exact nomatch read
  | some text =>
      simp only [read_marker_file] at read
      split_ifs at read with blank
      exact Option.some.inj read ▸ blank

theorem read_applied_ne_empty {host : Host} {value : String}
    (read : read_applied_structure_id host = some value) : value ≠ "" := by
  unfold read_applied_structure_id at read
  split at read
  · rename_i found
    exact read_marker_file_ne_empty (found.trans read)
  · exact read_marker_file_ne_empty read

theorem recorded_eq {attempt : Attempt} {id : String}
    (named : attempt.recorded = some id) :
    attempt.structure_id = some id ∧ id ≠ "" := by
  rw [Attempt.recorded, Option.filter_eq_some_iff] at named
  exact ⟨named.1, by simpa using named.2⟩

/-- What is read after the marker was written. -/
theorem read_written (id : String) (terraform : TerraformState)
    (destroys destroysAtReturn : Nat) (rebuilt : Option Bool) :
    read_applied_structure_id
        { marker := some id
          legacyMarker := none
          terraform := terraform
          destroys := destroys
          destroysAtReturn := destroysAtReturn
          rebuilt := rebuilt } = read_marker_file (some id) := by
  unfold read_applied_structure_id
  cases read_marker_file (some id) <;> rfl

/-- A state whose Terraform apply is not complete is truthful only without a
marker. -/
theorem truthful_partway {host : Host}
    (partway : host.terraform = .partway) :
    Truthful host ↔ read_applied_structure_id host = none := by
  constructor
  · intro truthful
    cases read : read_applied_structure_id host with
    | none => rfl
    | some id =>
        have complete := truthful id read
        rw [partway] at complete
        exact nomatch complete
  · intro none id read
    rw [none] at read
    exact nomatch read

/-- One reconcile keeps the marker truthful exactly when it is sound. -/
theorem truthful_settle_iff {attempt : Attempt} {host : Host}
    (truthful : Truthful host) :
    Truthful (settle attempt host) ↔ attempt.Sound host := by
  cases failsInit : attempt.initializeRaises with
  | true => simpa [settle, Attempt.Sound, failsInit] using truthful
  | false =>
      cases breaks : attempt.breaks host with
      | true =>
          have state : (settle attempt host).terraform = .partway ∧
              read_applied_structure_id (settle attempt host) =
                read_applied_structure_id host := by
            simp only [Attempt.breaks, failsInit, Bool.not_false,
              Bool.true_and, Bool.or_eq_true, Bool.and_eq_true,
              Bool.not_eq_true'] at breaks
            simp only [settle, failsInit, Bool.false_eq_true, if_false]
            split_ifs with place fails failing
            · exact ⟨rfl, rfl⟩
            · simp [place, fails] at breaks
            · exact ⟨rfl, rfl⟩
            · exact absurd (breaks.imp And.right id) failing
          rw [truthful_partway state.1, state.2]
          simp [Attempt.Sound, failsInit, breaks]
      | false =>
          have succeeds := breaks
          simp only [Attempt.breaks, failsInit, Bool.not_false, Bool.true_and,
            Bool.or_eq_false_iff, Bool.and_eq_false_iff,
            Bool.not_eq_false'] at succeeds
          cases named : attempt.recorded with
          | some id =>
              obtain ⟨sameId, nonempty⟩ := recorded_eq named
              have written : read_applied_structure_id (settle attempt host) =
                  read_marker_file (some id) := by
                simp only [settle, failsInit, Bool.false_eq_true, if_false,
                  succeeds.2, named, Option.some_or, Option.elim_some,
                  or_false]
                split_ifs with place fails
                · exact read_written ..
                · simp [place, fails] at succeeds
                · exact read_written ..
              have complete : (settle attempt host).terraform =
                  .complete (some id) := by
                simp only [settle, failsInit, Bool.false_eq_true, if_false,
                  succeeds.2, sameId, or_false]
                split_ifs with place fails
                · rfl
                · simp [place, fails] at succeeds
                · rfl
              simp only [Truthful, written, complete, Attempt.Sound,
                failsInit, breaks, named, Bool.false_eq_true, if_false,
                TerraformState.complete.injEq, Option.some.injEq]
              exact ⟨fun all read same => (all read same).symm,
                fun all read same => (all read same).symm⟩
          | none =>
              have notPlace : attempt.inPlace host = false := by
                simp [Attempt.inPlace, named]
              have kept : read_applied_structure_id (settle attempt host) =
                  read_applied_structure_id host := by
                have destroyed : attempt.destroyRaises = false := by
                  simpa [notPlace] using succeeds.1
                simp [settle, failsInit, notPlace, succeeds.2, destroyed,
                  named, read_applied_structure_id]
              have complete : (settle attempt host).terraform =
                  .complete attempt.structure_id := by
                have destroyed : attempt.destroyRaises = false := by
                  simpa [notPlace] using succeeds.1
                simp [settle, failsInit, notPlace, succeeds.2, destroyed]
              simp only [Truthful, kept, complete, Attempt.Sound, failsInit,
                breaks, named, Bool.false_eq_true, if_false]
              constructor
              · intro all
                cases read : read_applied_structure_id host with
                | none => rfl
                | some id =>
                    have same := all id read
                    simp only [TerraformState.complete.injEq] at same
                    have recorded : attempt.recorded = some id := by
                      simp [Attempt.recorded, same, Option.filter,
                        read_applied_ne_empty read]
                    rw [named] at recorded
                    exact nomatch recorded
              · intro none id read
                rw [none] at read
                exact nomatch read

/-- A sound reconcile leaves no destroy behind a marker. -/
theorem settled_settle {attempt : Attempt} {host : Host}
    (settled : Settled host) (sound : attempt.Sound host) :
    Settled (settle attempt host) := by
  intro id read
  cases failsInit : attempt.initializeRaises with
  | true =>
      simp only [settle, failsInit, if_true] at read ⊢
      exact settled id read
  | false =>
      simp only [settle, failsInit, Bool.false_eq_true, if_false] at read ⊢
      split_ifs at read ⊢ with place fails failing
      · exact settled id read
      · rfl
      · have breaks : attempt.breaks host = true := by
          rcases failing with destroying | applying
          · simp [Attempt.breaks, failsInit, place, destroying]
          · simp [Attempt.breaks, failsInit, applying]
        simp only [Attempt.Sound, failsInit, Bool.false_eq_true, if_false,
          breaks, if_true] at sound
        have same : read_applied_structure_id host = some id := read
        rw [sound] at same
        exact nomatch same
      · rfl

/-- The host after a sequence of reconciles, returned or raised. -/
def runAll (attempts : List Attempt) (host : Host) : Host :=
  attempts.foldl (fun host attempt => final (reconcile attempt host)) host

theorem runAll_append (earlier later : List Attempt) (host : Host) :
    runAll (earlier ++ later) host = runAll later (runAll earlier host) :=
  List.foldl_append ..

theorem runAll_cons (attempt : Attempt) (attempts : List Attempt)
    (host : Host) :
    runAll (attempt :: attempts) host =
      runAll attempts (settle attempt host) := by
  simp only [runAll, List.foldl_cons, final_reconcile]

/-- Every reconcile of the run is sound where it is made. -/
def SoundRun (attempts : List Attempt) (host : Host) : Prop :=
  ∀ earlier attempt later, attempts = earlier ++ attempt :: later →
    attempt.Sound (runAll earlier host)

theorem honest_of_soundRun {attempts : List Attempt} {host : Host}
    (truthful : Truthful host) (settled : Settled host)
    (sound : SoundRun attempts host) :
    Truthful (runAll attempts host) ∧ Settled (runAll attempts host) := by
  induction attempts generalizing host with
  | nil => exact ⟨truthful, settled⟩
  | cons attempt attempts induction =>
      have first : attempt.Sound host := sound [] attempt attempts rfl
      rw [runAll_cons]
      refine induction ((truthful_settle_iff truthful).mpr first)
        (settled_settle settled first) ?_
      intro earlier later rest split
      have whole := sound (attempt :: earlier) later rest (by rw [split]; rfl)
      rwa [runAll_cons] at whole

theorem soundRun_of_append {earlier later : List Attempt} {host : Host}
    (sound : SoundRun (earlier ++ later) host) : SoundRun earlier host := by
  intro before attempt after split
  exact sound before attempt (after ++ later) (by rw [split]; simp)

/-- The marker is truthful in every state of a run, and a snapshot that
reports no rebuild follows no destroy, exactly when every reconcile of the run
is sound. -/
theorem marker_truthful_iff (start : Host) (truthful : Truthful start)
    (settled : Settled start) (attempts : List Attempt) :
    ((∀ earlier later, attempts = earlier ++ later →
        Truthful (runAll earlier start)) ∧
      ∀ earlier attempt later taken after,
        attempts = earlier ++ attempt :: later →
        reconcile attempt (runAll earlier start) = .ok taken after →
        taken.rebuilt = some false →
          after.destroys = (runAll earlier start).destroysAtReturn) ↔
      SoundRun attempts start := by
  constructor
  · rintro ⟨always, _⟩ earlier attempt later split
    have before := always earlier (attempt :: later) split
    have behind := always (earlier ++ [attempt]) later (by rw [split]; simp)
    rw [runAll_append, runAll_cons] at behind
    exact (truthful_settle_iff before).mp behind
  · intro sound
    refine ⟨?_, ?_⟩
    · rintro earlier later rfl
      exact (honest_of_soundRun truthful settled
        (soundRun_of_append sound)).1
    · rintro earlier attempt later taken after rfl returned kept
      have honest := honest_of_soundRun truthful settled
        (soundRun_of_append sound)
      have ran := reconcile_run attempt (runAll earlier start)
      split_ifs at ran with returns
      · obtain ⟨result, same, flag⟩ := ran
        rw [returned] at same
        simp only [EStateM.Result.ok.injEq] at same
        rw [same.1, flag] at kept
        have place : attempt.inPlace (runAll earlier start) = true := by
          simpa using kept
        have marked := place
        simp only [Attempt.inPlace, Bool.and_eq_true,
          decide_eq_true_eq] at marked
        obtain ⟨id, named⟩ := Option.isSome_iff_exists.mp marked.1
        have quiet := honest.2 id (marked.2.trans named)
        simp only [Attempt.returns, Attempt.breaks, place, Bool.and_eq_true,
          Bool.not_eq_true', Bool.not_true, Bool.false_and, Bool.false_or,
          Bool.and_eq_false_iff, Bool.not_eq_false'] at returns
        have failsApply : attempt.applyRaises = false := by
          rcases returns.2 with impossible | fine
          · rw [returns.1] at impossible
            exact nomatch impossible
          · exact fine
        rw [same.2]
        simp only [settle, returns.1, place, failsApply, Bool.false_eq_true,
          if_false, if_true]
        exact quiet
      · obtain ⟨raised, same⟩ := ran
        rw [returned] at same
        exact nomatch same

/-- A host nothing was applied on. -/
def freshHost : Host :=
  { marker := none
    legacyMarker := none
    terraform := .empty
    destroys := 0
    destroysAtReturn := 0
    rebuilt := none }

def succeeding (structure_id : String) : Attempt :=
  { structure_id := some structure_id
    initializeRaises := false
    destroyRaises := false
    applyRaises := false }

/-- After one Structure is applied and another fails to, the marker still
names the first, and the next reconcile of the first trusts it. -/
theorem marker_untruthful_after_failure :
    ¬ ∀ (attempts : List Attempt),
      Truthful (runAll attempts freshHost) ∧
        ∀ attempt taken after,
          reconcile attempt (runAll attempts freshHost) = .ok taken after →
          taken.rebuilt = some false →
            after.destroys =
              (runAll attempts freshHost).destroysAtReturn := by
  intro always
  have marked := (always [succeeding "a",
    { succeeding "b" with applyRaises := true }]).1 "a" (by decide +kernel)
  revert marked
  decide +kernel

theorem marker_truthful_iff_fresh :
    ((∀ earlier later, [succeeding "a", succeeding "b"] = earlier ++ later →
        Truthful (runAll earlier freshHost)) ∧
      ∀ earlier attempt later taken after,
        [succeeding "a", succeeding "b"] = earlier ++ attempt :: later →
        reconcile attempt (runAll earlier freshHost) = .ok taken after →
        taken.rebuilt = some false →
          after.destroys = (runAll earlier freshHost).destroysAtReturn) ↔
      SoundRun [succeeding "a", succeeding "b"] freshHost :=
  marker_truthful_iff freshHost (by rintro id ⟨⟩) (by rintro id ⟨⟩)
    [succeeding "a", succeeding "b"]

end Structure

end Cats
