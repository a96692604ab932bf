import Mathlib.Data.Set.Insert
import Mathlib.Data.List.Basic

/-!
# Interleaved threads

Threads share a store and take turns: a schedule says whose turn it is, each
step reads and changes the store at once, and the steps made are kept in a
trace.  `Pool.run_induction` is the rule by which an invariant of every step is
one of every schedule.
-/

namespace Cats

/-- Threads over one store, and the steps they made so far. -/
structure Pool (θ σ α : Type) where
  threads : List θ
  store : σ
  trace : List (Nat × α)

namespace Pool

variable {θ σ α : Type}

def start (threads : List θ) (store : σ) : Pool θ σ α :=
  { threads := threads
    store := store
    trace := [] }

section

variable (step : θ → σ → Option (α × θ × σ))

/-- The turn of one thread, which may have nothing left to do. -/
def advance (pool : Pool θ σ α) (index : Nat) : Pool θ σ α :=
  match pool.threads[index]? with
  | none => pool
  | some thread =>
      match step thread pool.store with
      | none => pool
      | some (access, after, store) =>
          { threads := pool.threads.set index after
            store := store
            trace := pool.trace ++ [(index, access)] }

def run (pool : Pool θ σ α) (schedule : List Nat) : Pool θ σ α :=
  schedule.foldl (advance step) pool

/-- No thread has anything left to do. -/
def Finished (pool : Pool θ σ α) : Prop :=
  ∀ thread ∈ pool.threads, step thread pool.store = none

variable {step}

/-- A turn changes nothing or is a step of its thread. -/
theorem advance_cases (pool : Pool θ σ α) (index : Nat) :
    advance step pool index = pool ∨
      ∃ thread access after store, pool.threads[index]? = some thread ∧
        step thread pool.store = some (access, after, store) ∧
        advance step pool index =
          { threads := pool.threads.set index after
            store := store
            trace := pool.trace ++ [(index, access)] } := by
  unfold advance
  cases there : pool.threads[index]? with
  | none => exact .inl rfl
  | some thread =>
      dsimp only
      cases stepped : step thread pool.store with
      | none => exact .inl rfl
      | some made =>
          obtain ⟨access, after, store⟩ := made
          exact .inr ⟨thread, access, after, store, rfl, stepped, rfl⟩

/-- What every turn keeps holds after every schedule. -/
theorem run_induction {motive : Pool θ σ α → Prop} {pool : Pool θ σ α}
    (holds : motive pool)
    (kept : ∀ pool index, motive pool → motive (advance step pool index))
    (schedule : List Nat) : motive (run step pool schedule) := by
  induction schedule generalizing pool with
  | nil => exact holds
  | cons index schedule induction =>
      exact induction (kept pool index holds)

/-- The trace only grows. -/
theorem trace_advance (pool : Pool θ σ α) (index : Nat) :
    ∃ more, (advance step pool index).trace = pool.trace ++ more := by
  rcases @advance_cases _ _ _ step pool index with same | stepped
  · exact ⟨[], by rw [same, List.append_nil]⟩
  · obtain ⟨_, access, _, _, _, _, same⟩ := stepped
    exact ⟨[(index, access)], by rw [same]⟩

/-- The thread at an index after the turn of another or of itself. -/
theorem getElem?_set_cases {threads : List θ} {index place : Nat}
    {after thread : θ} (found : (threads.set index after)[place]? = some thread) :
    (place = index ∧ thread = after) ∨
      (place ≠ index ∧ threads[place]? = some thread) := by
  by_cases same : place = index
  · left
    rw [same, List.getElem?_set_self'] at found
    obtain ⟨_, _, made⟩ := Option.map_eq_some_iff.mp found
    exact ⟨same, made.symm⟩
  · right
    rw [List.getElem?_set_ne (Ne.symm same)] at found
    exact ⟨same, found⟩

end

end Pool

end Cats
