import Mathlib.Order.Defs.Unbundled

/-!
# Computations that change a state and may raise

A computation is an `EStateM` action: the state it leaves behind survives a
raise, as it does in the host language.  `Ensures` is a postcondition of the
value returned, `Relates` a relation between the states before and after that
holds whether or not the computation raises, `Triple` has a precondition and
one postcondition for each way out, and `Completes` says that the computation
returns.  Each has one rule for every way a computation is built.
-/

namespace Cats

abbrev Effect (ε σ α : Type) : Type := EStateM ε σ α

namespace Effect

variable {ε σ α β : Type}

/-- The state left behind, returned or raised. -/
def final : EStateM.Result ε σ α → σ
  | .ok _ state => state
  | .error _ state => state

@[simp] theorem final_ok (value : α) (state : σ) :
    final (.ok value state : EStateM.Result ε σ α) = state := rfl

@[simp] theorem final_error (raised : ε) (state : σ) :
    final (.error raised state : EStateM.Result ε σ α) = state := rfl

section Running

variable {action : Effect ε σ α} {next : α → Effect ε σ β} {state after : σ}

@[simp] theorem pure_run (value : α) (state : σ) :
    (pure value : Effect ε σ α) state = .ok value state := rfl

@[simp] theorem throw_run (raised : ε) (state : σ) :
    (throw raised : Effect ε σ α) state = .error raised state := rfl

@[simp] theorem get_run (state : σ) :
    (get : Effect ε σ σ) state = .ok state state := rfl

@[simp] theorem modify_run (change : σ → σ) (state : σ) :
    (modify change : Effect ε σ PUnit) state = .ok ⟨⟩ (change state) := rfl

theorem bind_run_ok {value : α} {middle : σ}
    (ran : action state = .ok value middle) :
    (action >>= next) state = next value middle := by
  change EStateM.bind action next state = next value middle
  simp only [EStateM.bind, ran]

theorem bind_run_error {raised : ε} {middle : σ}
    (ran : action state = .error raised middle) :
    (action >>= next) state = .error raised middle := by
  change EStateM.bind action next state = .error raised middle
  simp only [EStateM.bind, ran]

/-- A sequence depends on its second part only after what the first returns. -/
theorem bind_congr_ok {other : α → Effect ε σ β}
    (same : ∀ state value after, action state = .ok value after →
      next value = other value) :
    action >>= next = action >>= other := by
  funext state
  cases ran : action state with
  | ok value after =>
      rw [bind_run_ok ran, bind_run_ok ran, same state value after ran]
  | error raised after => rw [bind_run_error ran, bind_run_error ran]

/-- A sequence that returned went through both of its parts. -/
theorem bind_ok {result : β}
    (ran : (action >>= next) state = .ok result after) :
    ∃ value middle, action state = .ok value middle ∧
      next value middle = .ok result after := by
  cases first : action state with
  | ok value middle =>
      rw [bind_run_ok first] at ran
      exact ⟨value, middle, rfl, ran⟩
  | error raised middle =>
      rw [bind_run_error first] at ran
      exact nomatch ran

theorem bind_ok_iff {result : β} :
    (action >>= next) state = .ok result after ↔
      ∃ value middle, action state = .ok value middle ∧
        next value middle = .ok result after := by
  constructor
  · exact bind_ok
  · rintro ⟨value, middle, first, rest⟩
    exact (bind_run_ok first).trans rest

theorem tryCatch_run_ok {handler : ε → Effect ε σ α} {value : α}
    (ran : action state = .ok value after) :
    (tryCatch action handler) state = .ok value after := by
  change EStateM.tryCatch action handler state = .ok value after
  delta EStateM.tryCatch
  simp only [ran]

theorem tryCatch_run_error {handler : ε → Effect ε σ α} {raised : ε}
    {middle : σ} (ran : action state = .error raised middle) :
    (tryCatch action handler) state = handler raised middle := by
  change EStateM.tryCatch action handler state = handler raised middle
  delta EStateM.tryCatch
  simp only [ran]
  rfl

end Running

/-- Every value returned satisfies the condition. -/
def Ensures (condition : α → Prop) (action : Effect ε σ α) : Prop :=
  ∀ state value after, action state = .ok value after → condition value

namespace Ensures

variable {condition : α → Prop} {final : β → Prop}

theorem pure {value : α} (holds : condition value) :
    Ensures condition (Pure.pure value : Effect ε σ α) := by
  intro state result after ran
  simp only [pure_run, EStateM.Result.ok.injEq] at ran
  exact ran.1 ▸ holds

theorem throw (raised : ε) :
    Ensures condition (MonadExcept.throw raised : Effect ε σ α) := by
  intro state result after ran
  simp at ran

theorem bind {action : Effect ε σ α} {next : α → Effect ε σ β}
    (later : ∀ value, Ensures final (next value)) :
    Ensures final (action >>= next) := by
  intro state result after ran
  obtain ⟨value, middle, _, rest⟩ := bind_ok ran
  exact later value middle result after rest

/-- The first part's postcondition is available to the second. -/
theorem bind_of {action : Effect ε σ α} {next : α → Effect ε σ β}
    (first : Ensures condition action)
    (later : ∀ value, condition value → Ensures final (next value)) :
    Ensures final (action >>= next) := by
  intro state result after ran
  obtain ⟨value, middle, start, rest⟩ := bind_ok ran
  exact later value (first state value middle start) middle result after rest

theorem tryCatch {action : Effect ε σ α} {handler : ε → Effect ε σ α}
    (body : Ensures condition action)
    (handled : ∀ raised, Ensures condition (handler raised)) :
    Ensures condition (MonadExcept.tryCatch action handler) := by
  intro state result after ran
  cases first : action state with
  | ok value middle =>
      rw [tryCatch_run_ok first] at ran
      exact body state result after (first.trans ran)
  | error raised middle =>
      rw [tryCatch_run_error first] at ran
      exact handled raised middle result after ran

theorem ite {test : Prop} [Decidable test] {yes no : Effect ε σ α}
    (whenTrue : test → Ensures condition yes)
    (whenFalse : ¬ test → Ensures condition no) :
    Ensures condition (if test then yes else no) := by
  by_cases holds : test
  · rw [if_pos holds]
    exact whenTrue holds
  · rw [if_neg holds]
    exact whenFalse holds

theorem mono {weaker : α → Prop} {action : Effect ε σ α}
    (ensures : Ensures condition action)
    (implies : ∀ value, condition value → weaker value) :
    Ensures weaker action :=
  fun state value after ran =>
    implies value (ensures state value after ran)

end Ensures

/-- The state before is related to the state left behind. -/
def Relates (relation : σ → σ → Prop) (action : Effect ε σ α) : Prop :=
  ∀ state, relation state (final (action state))

namespace Relates

variable {relation : σ → σ → Prop}

section Reflexive

variable (reflexive : ∀ state, relation state state)

include reflexive

theorem pure (value : α) :
    Relates relation (Pure.pure value : Effect ε σ α) :=
  fun state => reflexive state

theorem throw (raised : ε) :
    Relates relation (MonadExcept.throw raised : Effect ε σ α) :=
  fun state => reflexive state

theorem get : Relates relation (MonadState.get : Effect ε σ σ) :=
  fun state => reflexive state

end Reflexive

section Transitive

variable (transitive : ∀ {first second third}, relation first second →
  relation second third → relation first third)

include transitive

theorem bind {action : Effect ε σ α} {next : α → Effect ε σ β}
    (first : Relates relation action)
    (later : ∀ value, Relates relation (next value)) :
    Relates relation (action >>= next) := by
  intro state
  have start := first state
  cases ran : action state with
  | ok value middle =>
      rw [bind_run_ok ran]
      rw [ran] at start
      exact transitive start (later value middle)
  | error raised middle =>
      rw [bind_run_error ran]
      rwa [ran] at start

theorem tryCatch {action : Effect ε σ α} {handler : ε → Effect ε σ α}
    (body : Relates relation action)
    (handled : ∀ raised, Relates relation (handler raised)) :
    Relates relation (MonadExcept.tryCatch action handler) := by
  intro state
  have start := body state
  cases ran : action state with
  | ok value middle =>
      rw [tryCatch_run_ok ran]
      rwa [ran] at start
  | error raised middle =>
      rw [tryCatch_run_error ran]
      rw [ran] at start
      exact transitive start (handled raised middle)

end Transitive

theorem modify {change : σ → σ}
    (holds : ∀ state, relation state (change state)) :
    Relates relation
      (MonadStateOf.modifyGet fun state => (PUnit.unit, change state) :
        Effect ε σ PUnit) :=
  fun state => holds state

theorem ite {test : Prop} [Decidable test] {yes no : Effect ε σ α}
    (whenTrue : test → Relates relation yes)
    (whenFalse : ¬ test → Relates relation no) :
    Relates relation (if test then yes else no) := by
  by_cases holds : test
  · rw [if_pos holds]
    exact whenTrue holds
  · rw [if_neg holds]
    exact whenFalse holds

end Relates

/-- From a state with `before`, a return leaves `after` and a raise leaves
`raising`. -/
structure Triple (before : σ → Prop) (action : Effect ε σ α)
    (after : α → σ → Prop) (raising : σ → Prop) : Prop where
  returned : ∀ state value later, before state →
    action state = .ok value later → after value later
  raised : ∀ state error later, before state →
    action state = .error error later → raising later

namespace Triple

variable {before : σ → Prop} {action : Effect ε σ α} {after : α → σ → Prop}
  {raising : σ → Prop}

theorem pure {value : α} (holds : ∀ state, before state → after value state) :
    Triple before (Pure.pure value : Effect ε σ α) after raising where
  returned state result later start ran := by
    simp only [pure_run, EStateM.Result.ok.injEq] at ran
    rw [← ran.1, ← ran.2]
    exact holds state start
  raised state error later start ran := nomatch ran

theorem throw {error : ε} (holds : ∀ state, before state → raising state) :
    Triple before (MonadExcept.throw error : Effect ε σ α) after raising where
  returned state result later start ran := by simp at ran
  raised state other later start ran := by
    simp only [throw_run, EStateM.Result.error.injEq] at ran
    rw [← ran.2]
    exact holds state start

theorem modify {change : σ → σ} {after : PUnit → σ → Prop}
    (holds : ∀ state, before state → after ⟨⟩ (change state)) :
    Triple before (MonadStateOf.modifyGet fun state => (PUnit.unit, change state) :
      Effect ε σ PUnit) after raising where
  returned state result later start ran := by
    rw [← (EStateM.Result.ok.inj ran).2]
    exact holds state start
  raised state error later start ran := nomatch ran

theorem bind {next : α → Effect ε σ β} {final : β → σ → Prop}
    (first : Triple before action after raising)
    (later : ∀ value, Triple (after value) (next value) final raising) :
    Triple before (action >>= next) final raising where
  returned state result ended start ran := by
    obtain ⟨value, middle, head, rest⟩ := bind_ok ran
    exact (later value).returned middle result ended
      (first.returned state value middle start head) rest
  raised state error ended start ran := by
    cases head : action state with
    | ok value middle =>
        rw [bind_run_ok head] at ran
        exact (later value).raised middle error ended
          (first.returned state value middle start head) ran
    | error other middle =>
        rw [bind_run_error head, EStateM.Result.error.injEq] at ran
        rw [← ran.2]
        exact first.raised state other middle start head

/-- A sequence whose middle condition is given. -/
theorem via {next : α → Effect ε σ β} {final : β → σ → Prop}
    (middle : α → σ → Prop) (first : Triple before action middle raising)
    (later : ∀ value, Triple (middle value) (next value) final raising) :
    Triple before (action >>= next) final raising :=
  first.bind later

/-- A computation that looks at the state runs from that very state. -/
theorem get_bind {next : σ → Effect ε σ α}
    (later : ∀ state, before state →
      Triple (fun other => other = state) (next state) after raising) :
    Triple before ((MonadState.get : Effect ε σ σ) >>= next) after
      raising where
  returned state value ended start ran := by
    rw [bind_run_ok (get_run state)] at ran
    exact (later state start).returned state value ended rfl ran
  raised state error ended start ran := by
    rw [bind_run_ok (get_run state)] at ran
    exact (later state start).raised state error ended rfl ran

theorem conseq {stronger : σ → Prop} {weaker : α → σ → Prop}
    (triple : Triple before action after raising)
    (strengthen : ∀ state, stronger state → before state)
    (weaken : ∀ value state, after value state → weaker value state) :
    Triple stronger action weaker raising where
  returned state value later start ran :=
    weaken value later
      (triple.returned state value later (strengthen state start) ran)
  raised state error later start ran :=
    triple.raised state error later (strengthen state start) ran

theorem loosen {other : σ → Prop}
    (triple : Triple before action after raising)
    (weaken : ∀ state, raising state → other state) :
    Triple before action after other where
  returned := triple.returned
  raised state error later start ran :=
    weaken later (triple.raised state error later start ran)

theorem never : Triple (fun _ => False) action after raising where
  returned _ _ _ start := start.elim
  raised _ _ _ start := start.elim

/-- A postcondition of the value joins the one of the state. -/
theorem ensuring {condition : α → Prop}
    (triple : Triple before action after raising)
    (ensures : Ensures condition action) :
    Triple before action
      (fun value state => after value state ∧ condition value) raising where
  returned state value later start ran :=
    ⟨triple.returned state value later start ran,
      ensures state value later ran⟩
  raised := triple.raised

/-- A fact that does not mention the state leaves the precondition. -/
theorem of_fact {fact : Prop}
    (triple : fact → Triple before action after raising) :
    Triple (fun state => before state ∧ fact) action after raising where
  returned state value later start ran :=
    (triple start.2).returned state value later start.1 ran
  raised state error later start ran :=
    (triple start.2).raised state error later start.1 ran

theorem ite {test : Prop} [Decidable test] {yes no : Effect ε σ α}
    (whenTrue : test → Triple before yes after raising)
    (whenFalse : ¬ test → Triple before no after raising) :
    Triple before (if test then yes else no) after raising := by
  by_cases holds : test
  · rw [if_pos holds]
    exact whenTrue holds
  · rw [if_neg holds]
    exact whenFalse holds

theorem tryCatch {handler : ε → Effect ε σ α} {caught : σ → Prop}
    (body : Triple before action after caught)
    (handled : ∀ error, Triple caught (handler error) after raising) :
    Triple before (MonadExcept.tryCatch action handler) after raising where
  returned state value ended start ran := by
    cases head : action state with
    | ok found middle =>
        rw [tryCatch_run_ok head] at ran
        exact body.returned state value ended start (head.trans ran)
    | error error middle =>
        rw [tryCatch_run_error head] at ran
        exact (handled error).returned middle value ended
          (body.raised state error middle start head) ran
  raised state error ended start ran := by
    cases head : action state with
    | ok found middle =>
        rw [tryCatch_run_ok head] at ran
        exact nomatch ran
    | error other middle =>
        rw [tryCatch_run_error head] at ran
        exact (handled other).raised middle error ended
          (body.raised state other middle start head) ran

/-- What holds however the computation ends. -/
theorem final {both : σ → Prop} (triple : Triple before action after raising)
    (onReturn : ∀ value state, after value state → both state)
    (onRaise : ∀ state, raising state → both state) {state : σ}
    (start : before state) : both (Effect.final (action state)) := by
  cases ran : action state with
  | ok value later =>
      exact onReturn value later
        (triple.returned state value later start ran)
  | error raised later =>
      exact onRaise later (triple.raised state raised later start ran)

end Triple

/-- From a state with `before` the computation returns, and leaves `after`. -/
def Completes (before : σ → Prop) (action : Effect ε σ α)
    (after : α → σ → Prop) : Prop :=
  ∀ state, before state →
    ∃ value later, action state = .ok value later ∧ after value later

namespace Completes

variable {before : σ → Prop} {action : Effect ε σ α} {after : α → σ → Prop}

theorem pure {value : α} (holds : ∀ state, before state → after value state) :
    Completes before (Pure.pure value : Effect ε σ α) after :=
  fun state start => ⟨value, state, rfl, holds state start⟩

theorem bind {next : α → Effect ε σ β} {final : β → σ → Prop}
    (first : Completes before action after)
    (later : ∀ value, Completes (after value) (next value) final) :
    Completes before (action >>= next) final := by
  intro state start
  obtain ⟨value, middle, ran, reached⟩ := first state start
  obtain ⟨result, ended, rest, holds⟩ := later value middle reached
  exact ⟨result, ended, (bind_run_ok ran).trans rest, holds⟩

/-- The value of the first part is known. -/
theorem bind_known {next : α → Effect ε σ β} {value : α} {middle : σ → Prop}
    {final : β → σ → Prop}
    (first : Completes before action
      fun found state => found = value ∧ middle state)
    (later : Completes middle (next value) final) :
    Completes before (action >>= next) final := by
  apply bind first
  intro found state reached
  rw [reached.1]
  exact later state reached.2

theorem get_bind {next : σ → Effect ε σ α}
    (later : ∀ state, before state →
      Completes (fun other => other = state) (next state) after) :
    Completes before ((MonadState.get : Effect ε σ σ) >>= next) after := by
  intro state start
  obtain ⟨value, ended, ran, holds⟩ := later state start state rfl
  exact ⟨value, ended, (bind_run_ok (get_run state)).trans ran, holds⟩

theorem tryCatch {handler : ε → Effect ε σ α}
    (body : Completes before action after) :
    Completes before (MonadExcept.tryCatch action handler) after := by
  intro state start
  obtain ⟨value, later, ran, holds⟩ := body state start
  exact ⟨value, later, tryCatch_run_ok ran, holds⟩

theorem conseq {stronger : σ → Prop} {weaker : α → σ → Prop}
    (completes : Completes before action after)
    (strengthen : ∀ state, stronger state → before state)
    (weaken : ∀ value state, after value state → weaker value state) :
    Completes stronger action weaker := by
  intro state start
  obtain ⟨value, later, ran, holds⟩ := completes state (strengthen state start)
  exact ⟨value, later, ran, weaken value later holds⟩

end Completes

end Effect

end Cats
