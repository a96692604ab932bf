import Cats.Function.NamedBinds

/-!
# Whose code a named bind runs

One interpreter serves every Order.  The module it holds under a name is the
one it found when the name was first imported, whatever was laid out since; a
bind is checked by the id of its package only.
-/

namespace Cats

open Effect

/-- What happens to the interpreter of a Node: files are laid out, an entry is
put on the search path, a module is imported, or a slot is resolved. -/
inductive ImportEvent (Obj : Type) where
  | lay (files : String → String → Option Obj)
  | insert (entry : String)
  | imports (name : String)
  | resolve (raw : Bytes) (expected_source_id : String)

/-- The bind of a slot that names the expected package. -/
def accepted (raw : Bytes) (expected_source_id : String) : Option NamedBind :=
  match parse_named_bind_leaf raw, equality_id expected_source_id with
  | .ok (some bind), .ok id => if bind.source_id = id then some bind else none
  | _, _ => none

section Runs

variable {Obj : Type} (getattr : Obj → String → Option Obj)
  (cats_home : Option String)

namespace ImportEvent

/-- The interpreter after an event, which may have raised. -/
def step (interpreter : Interpreter Obj) : ImportEvent Obj → Interpreter Obj
  | .lay files => { interpreter with files := files }
  | .insert entry =>
      { interpreter with path := Interpreter.inserted entry interpreter.path }
  | .imports name => Effect.final (import_module name interpreter)
  | .resolve raw expected_source_id =>
      Effect.final (resolve_subproc getattr cats_home raw expected_source_id
        interpreter)

/-- The module an event imports. -/
def name? : ImportEvent Obj → Option String
  | .imports name => some name
  | .resolve raw expected_source_id =>
      (accepted raw expected_source_id).map NamedBind.module_name
  | _ => none

/-- The search path and the files after an event. -/
def laidOut (path : List String) (files : String → String → Option Obj) :
    ImportEvent Obj → List String × (String → String → Option Obj)
  | .lay files => (path, files)
  | .insert entry => (Interpreter.inserted entry path, files)
  | .imports _ => (path, files)
  | .resolve raw expected_source_id =>
      match accepted raw expected_source_id with
      | some _ => (Interpreter.withHome cats_home path, files)
      | none => (path, files)

/-- What is found for a name when it is first imported. -/
def firstFound (path : List String) (files : String → String → Option Obj)
    (name : String) : List (ImportEvent Obj) → Option Obj
  | [] => none
  | event :: events =>
      let laid := event.laidOut cats_home path files
      (if event.name? = some name then Interpreter.look laid.1 laid.2 name
        else none).or (firstFound laid.1 laid.2 name events)

end ImportEvent

namespace Interpreter

/-- The interpreter after a run. -/
def run (start : Interpreter Obj) (events : List (ImportEvent Obj)) :
    Interpreter Obj :=
  events.foldl (ImportEvent.step getattr cats_home) start

/-- The version of a module that is held after a run: the one held from the
start, else the first one found. -/
def heldVersion (start : Interpreter Obj) (events : List (ImportEvent Obj))
    (name : String) : Option Obj :=
  (start.modules name).or
    (ImportEvent.firstFound cats_home start.path start.files name events)

end Interpreter

/-- Importing keeps what is held, and adds the first thing found. -/
theorem import_module_run (name : String) (interpreter : Interpreter Obj) :
    ∃ after found, import_module name interpreter = .ok found after ∧
      after.path = interpreter.path ∧ after.files = interpreter.files ∧
      found = (interpreter.modules name).or
        (Interpreter.look interpreter.path interpreter.files name) ∧
      after.modules = Function.update interpreter.modules name found := by
  unfold import_module
  rw [bind_run_ok (get_run interpreter)]
  cases held : interpreter.modules name with
  | some found =>
      refine ⟨interpreter, some found, rfl, rfl, rfl, rfl, ?_⟩
      rw [← held, Function.update_eq_self]
  | none =>
      dsimp only
      cases sought : Interpreter.look interpreter.path interpreter.files name with
      | some found => exact ⟨_, some found, rfl, rfl, rfl, rfl, rfl⟩
      | none =>
          refine ⟨interpreter, none, rfl, rfl, rfl, rfl, ?_⟩
          rw [← held, Function.update_eq_self]

/-- A bind puts `CATS_HOME` on the search path, imports the module, and reads
the name off what it holds then. -/
theorem bindTarget_run (bind : NamedBind) (interpreter : Interpreter Obj) :
    ∃ after found, after.path = Interpreter.withHome cats_home interpreter.path ∧
      after.files = interpreter.files ∧
      found = (interpreter.modules bind.module_name).or
        (Interpreter.look after.path after.files bind.module_name) ∧
      after.modules =
        Function.update interpreter.modules bind.module_name found ∧
      final (bindTarget getattr cats_home bind interpreter) = after ∧
      ∀ target state, bindTarget getattr cats_home bind interpreter =
          .ok target state ↔
        state = after ∧
          found.bind (namedAttribute getattr · bind.qualname) = some target := by
  obtain ⟨after, found, ran, path, files, version, modules⟩ :=
    import_module_run bind.module_name
      { interpreter with
        path := Interpreter.withHome cats_home interpreter.path }
  have started : bindTarget getattr cats_home bind interpreter = _ :=
    (bind_run_ok (modify_run _ interpreter)).trans (bind_run_ok ran)
  refine ⟨after, found, path, files, ?_, modules, ?_⟩
  · rw [path, files]
    exact version
  · rw [started]
    cases found with
    | none =>
        constructor
        · rfl
        · intro target state
          constructor
          · intro returned
            exact nomatch returned
          · rintro ⟨_, read⟩
            exact nomatch read
    | some module_object =>
        dsimp only [Option.bind_some]
        cases read : namedAttribute getattr module_object bind.qualname with
        | none =>
            constructor
            · rfl
            · intro target state
              constructor
              · intro returned
                exact nomatch returned
              · rintro ⟨_, found⟩
                exact nomatch found
        | some value =>
            constructor
            · rfl
            · intro target state
              constructor
              · intro returned
                cases returned
                exact ⟨rfl, rfl⟩
              · rintro ⟨rfl, found⟩
                cases found
                rfl

/-- An accepted slot names the equality id of the expected package. -/
theorem accepted_names {raw : Bytes} {expected_source_id : String}
    {bind : NamedBind} (names : accepted raw expected_source_id = some bind) :
    parse_named_bind_leaf raw = .ok (some bind) ∧
      equality_id expected_source_id = .ok bind.source_id := by
  unfold accepted at names
  split at names
  case h_1 _ _ spec id parsed identified =>
    split_ifs at names with same
    cases names
    rw [same]
    exact ⟨parsed, identified⟩
  case h_2 => exact nomatch names

section Leaf

variable {getattr cats_home} {raw : Bytes} {expected_source_id : String}
  {interpreter : Interpreter Obj}

/-- A slot that names the expected package is resolved by its bind. -/
theorem resolve_accepted {bind : NamedBind}
    (names : accepted raw expected_source_id = some bind) :
    resolve_subproc getattr cats_home raw expected_source_id =
      bindTarget getattr cats_home bind >>= fun target =>
        pure (.bound target) := by
  obtain ⟨parsed, identified⟩ := accepted_names names
  unfold resolve_subproc
  rw [parsed, identified]
  funext interpreter
  exact congrFun (if_neg (not_not_intro rfl)) interpreter

variable (getattr cats_home interpreter) in
/-- Any other slot returns a pickle or is refused, and nothing is imported. -/
theorem resolve_other (other : accepted raw expected_source_id = none) :
    (∃ raised, resolve_subproc getattr cats_home raw expected_source_id
        interpreter = .error raised interpreter) ∨
      resolve_subproc getattr cats_home raw expected_source_id interpreter =
        .ok (.pickled raw) interpreter := by
  unfold resolve_subproc
  unfold accepted at other
  cases parsed : parse_named_bind_leaf raw with
  | error raised => exact .inl ⟨raised, rfl⟩
  | ok spec =>
      cases spec with
      | none => exact .inr rfl
      | some bind =>
          cases identified : equality_id expected_source_id with
          | error raised => exact .inl ⟨raised, rfl⟩
          | ok id =>
              have foreign : bind.source_id ≠ id := by
                intro same
                rw [parsed, identified] at other
                exact nomatch (if_pos same).symm.trans other
              exact .inl ⟨bind.mismatch id,
                congrFun (if_pos foreign) interpreter⟩

/-- The callable returned is the name as read off the version then held. -/
theorem resolve_bound_iff {target : Obj} :
    (∃ after, resolve_subproc getattr cats_home raw expected_source_id
        interpreter = .ok (.bound target) after) ↔
      ∃ bind, accepted raw expected_source_id = some bind ∧
        ((interpreter.modules bind.module_name).or (Interpreter.look
            (Interpreter.withHome cats_home interpreter.path) interpreter.files
            bind.module_name)).bind
          (namedAttribute getattr · bind.qualname) = some target := by
  cases names : accepted raw expected_source_id with
  | none =>
      constructor
      · rintro ⟨after, returned⟩
        obtain ⟨raised, refused⟩ | pickled :=
          resolve_other getattr cats_home interpreter names
        · exact nomatch refused.symm.trans returned
        · exact nomatch pickled.symm.trans returned
      · rintro ⟨bind, named, _⟩
        exact nomatch named
  | some bind =>
      obtain ⟨after, found, path, files, version, _, _, returns⟩ :=
        bindTarget_run getattr cats_home bind interpreter
      rw [path, files] at version
      constructor
      · rintro ⟨last, returned⟩
        rw [resolve_accepted names] at returned
        obtain ⟨value, middle, ran, rest⟩ := bind_ok returned
        cases rest
        refine ⟨bind, rfl, ?_⟩
        rw [← version]
        exact ((returns target last).mp ran).2
      · rintro ⟨_, same, read⟩
        cases same
        rw [← version] at read
        refine ⟨after, ?_⟩
        rw [resolve_accepted names]
        exact bind_run_ok ((returns target after).mpr ⟨rfl, read⟩)

end Leaf

/-- What is returned does not change the state left behind. -/
theorem final_bind_pure {ε σ α β : Type} (action : Effect ε σ α) (f : α → β)
    (state : σ) :
    final ((action >>= fun value => pure (f value)) state) =
      final (action state) := by
  cases ran : action state with
  | ok value after => rw [bind_run_ok ran, pure_run, final_ok, final_ok]
  | error raised after => rw [bind_run_error ran, final_error, final_error]

/-- Holding the first thing found for one name, as seen from any name. -/
theorem updated_or {modules : String → Option Obj} {imported : String}
    {found : Option Obj} {sought : String → Option Obj}
    (version : found = (modules imported).or (sought imported)) (name : String) :
    Function.update modules imported found name =
      (modules name).or
        (if some imported = some name then sought name else none) := by
  by_cases same : name = imported
  · cases same
    rw [Function.update_self, if_pos rfl, version]
  · have apart : some imported ≠ some name := by
      intro equal
      exact same (Option.some.inj equal).symm
    rw [Function.update_of_ne same, if_neg apart, Option.or_none]

/-- One event lays out what it says, keeps every module that is held, and holds
the first thing found for the module it imports. -/
theorem ImportEvent.step_spec (event : ImportEvent Obj)
    (interpreter : Interpreter Obj) :
    ((event.step getattr cats_home interpreter).path,
        (event.step getattr cats_home interpreter).files) =
      event.laidOut cats_home interpreter.path interpreter.files ∧
    ∀ name, (event.step getattr cats_home interpreter).modules name =
      (interpreter.modules name).or
        (if event.name? = some name then
          Interpreter.look (event.step getattr cats_home interpreter).path
            (event.step getattr cats_home interpreter).files name
        else none) := by
  cases event with
  | lay files =>
      constructor
      · rfl
      · intro name
        exact (Option.or_none).symm
  | insert entry =>
      constructor
      · rfl
      · intro name
        exact (Option.or_none).symm
  | imports imported =>
      obtain ⟨after, found, ran, path, files, version, modules⟩ :=
        import_module_run imported interpreter
      have state : (ImportEvent.imports imported).step getattr cats_home
          interpreter = after := by
        change final (import_module imported interpreter) = after
        rw [ran, final_ok]
      rw [state, path, files]
      constructor
      · rfl
      · intro name
        rw [modules]
        exact updated_or version name
  | resolve raw expected_source_id =>
      cases names : accepted raw expected_source_id with
      | none =>
          have state : (ImportEvent.resolve raw expected_source_id).step getattr
              cats_home interpreter = interpreter := by
            change final (resolve_subproc getattr cats_home raw
              expected_source_id interpreter) = interpreter
            obtain ⟨raised, refused⟩ | pickled :=
              resolve_other getattr cats_home interpreter names
            · rw [refused, final_error]
            · rw [pickled, final_ok]
          rw [state]
          simp [ImportEvent.laidOut, ImportEvent.name?, names]
      | some bind =>
          obtain ⟨after, found, path, files, version, modules, ended, _⟩ :=
            bindTarget_run getattr cats_home bind interpreter
          have state : (ImportEvent.resolve raw expected_source_id).step getattr
              cats_home interpreter = after := by
            change final (resolve_subproc getattr cats_home raw
              expected_source_id interpreter) = after
            rw [resolve_accepted names, final_bind_pure, ended]
          rw [state, path, files]
          rw [path, files] at version
          constructor
          · simp [ImportEvent.laidOut, names]
          · intro name
            rw [modules, updated_or version name]
            simp [ImportEvent.name?, names]

end Runs

section Law

variable {Obj : Type} (getattr : Obj → String → Option Obj)
  (cats_home : Option String)

/-- What a run holds under a name is what was held from the start, else the
first thing found when the name was imported. -/
theorem Interpreter.run_modules (events : List (ImportEvent Obj))
    (start : Interpreter Obj) (name : String) :
    (Interpreter.run getattr cats_home start events).modules name =
      Interpreter.heldVersion cats_home start events name := by
  induction events generalizing start with
  | nil => exact Option.or_none.symm
  | cons event events induction =>
      obtain ⟨layout, modules⟩ :=
        ImportEvent.step_spec getattr cats_home event start
      have rest := induction (event.step getattr cats_home start)
      have path : (event.step getattr cats_home start).path =
          (event.laidOut cats_home start.path start.files).1 :=
        congrArg Prod.fst layout
      have files : (event.step getattr cats_home start).files =
          (event.laidOut cats_home start.path start.files).2 :=
        congrArg Prod.snd layout
      calc (Interpreter.run getattr cats_home start (event :: events)).modules
              name
          = Interpreter.heldVersion cats_home
              (event.step getattr cats_home start) events name := rest
        _ = Interpreter.heldVersion cats_home start (event :: events) name := by
            unfold Interpreter.heldVersion
            rw [modules name, path, files, Option.or_assoc]
            rfl

/-- What an accepted slot reads its name off is what the run, the slot
included, holds under the module. -/
theorem Interpreter.run_resolve {raw : Bytes} {expected_source_id : String}
    {bind : NamedBind} (names : accepted raw expected_source_id = some bind)
    (before : List (ImportEvent Obj)) (start : Interpreter Obj) :
    ((Interpreter.run getattr cats_home start before).modules
        bind.module_name).or
      (Interpreter.look
        (Interpreter.withHome cats_home
          (Interpreter.run getattr cats_home start before).path)
        (Interpreter.run getattr cats_home start before).files
        bind.module_name) =
      Interpreter.heldVersion cats_home start
        (before ++ [.resolve raw expected_source_id]) bind.module_name := by
  let reached := Interpreter.run getattr cats_home start before
  obtain ⟨layout, modules⟩ := ImportEvent.step_spec getattr cats_home
    (.resolve raw expected_source_id) reached
  simp only [ImportEvent.laidOut, names, Prod.mk.injEq] at layout
  have imported : (.resolve raw expected_source_id : ImportEvent Obj).name? =
      some bind.module_name := by
    simp only [ImportEvent.name?, names, Option.map_some]
  have last := modules bind.module_name
  rw [if_pos imported, layout.1, layout.2] at last
  rw [← Interpreter.run_modules getattr cats_home]
  unfold Interpreter.run
  rw [List.foldl_append]
  exact last.symm

variable (package : String → String → Option Obj) (start : Interpreter Obj)
  (events : List (ImportEvent Obj))

/-- Every callable that a run resolves a named bind to is the one the expected
package defines. -/
def ResolvesOwn : Prop :=
  ∀ before raw expected_source_id later,
    events = before ++ .resolve raw expected_source_id :: later →
    ∀ bind target after, parse_named_bind_leaf raw = .ok (some bind) →
      resolve_subproc getattr cats_home raw expected_source_id
        (Interpreter.run getattr cats_home start before) =
          .ok (.bound target) after →
      ∃ id, equality_id expected_source_id = .ok id ∧
        (package id bind.module_name).bind
          (namedAttribute getattr · bind.qualname) = some target

/-- Whatever a slot of the expected package reads off the first version held is
what that package defines. -/
def FirstsOwn : Prop :=
  ∀ before raw expected_source_id later,
    events = before ++ .resolve raw expected_source_id :: later →
    ∀ bind target, accepted raw expected_source_id = some bind →
      (Interpreter.heldVersion cats_home start
          (before ++ [.resolve raw expected_source_id]) bind.module_name).bind
        (namedAttribute getattr · bind.qualname) = some target →
      (package bind.source_id bind.module_name).bind
        (namedAttribute getattr · bind.qualname) = some target

end Law

end Cats
