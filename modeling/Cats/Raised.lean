import Cats.Effect
import Cats.Python.Text

/-!
# What the program raises

An exception is its class and its text.  The classes are the ones some handler
of the program tells apart.
-/

namespace Cats

inductive ErrorKind where
  | valueError
  | unicodeDecodeError
  | unicodeEncodeError
  | jsonDecodeError
  | keyError
  | attributeError
  | typeError
  | runtimeError
  | fileNotFoundError
  | fileExistsError
  | notADirectoryError
  | isADirectoryError
  | sameFileError
  | urlError
  | registryError
  | ambiguousBomError
  | assertionError
  deriving DecidableEq, Repr

structure Raised where
  kind : ErrorKind
  text : String
  deriving DecidableEq, Repr

namespace Raised

/-- `except ValueError` also catches the codec errors. -/
def isValueError (raised : Raised) : Bool :=
  raised.kind = .valueError || raised.kind = .unicodeDecodeError ||
    raised.kind = .unicodeEncodeError || raised.kind = .jsonDecodeError

/-- `except OSError`. -/
def isOSError (raised : Raised) : Bool :=
  raised.kind = .fileNotFoundError || raised.kind = .fileExistsError ||
    raised.kind = .notADirectoryError || raised.kind = .isADirectoryError ||
    raised.kind = .sameFileError || raised.kind = .urlError

/-- `except RegistryError`; `AmbiguousBomError` is one. -/
def isRegistryError (raised : Raised) : Bool :=
  raised.kind = .registryError || raised.kind = .ambiguousBomError

def valueError (text : String) : Raised := ⟨.valueError, text⟩

def runtimeError (text : String) : Raised := ⟨.runtimeError, text⟩

def assertionError (text : String) : Raised := ⟨.assertionError, text⟩

/-- A block that returns got past its first step. -/
theorem bind_returns {α β : Type} {step : Except Raised α}
    {next : α → Except Raised β} {result : β}
    (returned : step >>= next = .ok result) :
    ∃ value, step = .ok value ∧ next value = .ok result := by
  cases step with
  | error raised => exact absurd returned (by simp [bind, Except.bind])
  | ok value => exact ⟨value, rfl, returned⟩

/-- A loop that returns got past each of its steps. -/
theorem mapM_returns {α β : Type} {read : α → Except Raised β}
    {items : List α} {results : List β} (ran : items.mapM read = .ok results)
    {item : α} (member : item ∈ items) :
    ∃ result ∈ results, read item = .ok result := by
  induction items generalizing results with
  | nil => cases member
  | cons first items induction =>
      rw [List.mapM_cons] at ran
      obtain ⟨value, here, ran⟩ := bind_returns ran
      obtain ⟨values, later, ran⟩ := bind_returns ran
      cases ran
      rcases List.mem_cons.mp member with same | member
      · rw [same]
        exact ⟨value, List.mem_cons_self, here⟩
      · obtain ⟨result, inside, reads⟩ := induction later member
        exact ⟨result, List.mem_cons_of_mem _ inside, reads⟩

end Raised

/-- What a program returns, when its result is changed. -/
theorem map_eq_ok {α β : Type} {first : Except Raised α} {next : α → β}
    {result : β} :
    first.map next = .ok result ↔ ∃ value, first = .ok value ∧ next value = result := by
  cases first with
  | error raised =>
      constructor
      · intro returned
        cases returned
      · rintro ⟨value, impossible, -⟩
        cases impossible
  | ok value =>
      constructor
      · intro returned
        cases returned
        exact ⟨value, rfl, rfl⟩
      · rintro ⟨other, same, rfl⟩
        cases same
        rfl

end Cats
