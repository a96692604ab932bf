import Cats.Interleaving

/-!
# Updates of shared files

An update reads a file, works out its new content and writes it, in two steps
that other threads may come between.  Each update is there to add one entry to
what the file shows.  When no thread adds another entry to a file between the
read and the write of it, no entry is ever lost.
-/

namespace Cats

/-- A store seen as files. -/
structure FileView (σ κ γ : Type) where
  read : κ → σ → Option γ
  write : κ → γ → σ → σ
  read_write_self : ∀ file data store,
    read file (write file data store) = some data
  read_write_of_ne : ∀ {file other : κ}, other ≠ file → ∀ data store,
    read other (write file data store) = read other store

/-- An update of one file, there to add one entry; no new content when the file
is to stay as it is. -/
structure Update (κ ε γ ρ : Type) where
  file : κ
  entry : ε
  compute : Option γ → Except ρ (Option γ)

/-- What a thread has to do: updates, and changes made in one step. -/
inductive Action (σ κ ε γ ρ : Type) where
  | change (apply : σ → σ)
  | update (update : Update κ ε γ ρ)

/-- How a step goes at a file. -/
inductive Access (κ ε : Type) where
  | read (file : κ)
  | write (file : κ) (entry : ε)
  | other
  deriving DecidableEq

/-- A thread: what is left to do, and what the first update is about to write. -/
structure Worker (σ κ ε γ ρ : Type) where
  tasks : List (Action σ κ ε γ ρ)
  held : Option γ

namespace Worker

variable {σ κ ε γ ρ : Type}

def start (tasks : List (Action σ κ ε γ ρ)) : Worker σ κ ε γ ρ :=
  { tasks := tasks
    held := none }

/-- What an update that has read its file does next; a thread that raises does
nothing more. -/
def afterRead (update : Update κ ε γ ρ) (tasks : List (Action σ κ ε γ ρ))
    (content : Option γ) : Worker σ κ ε γ ρ :=
  match update.compute content with
  | .error _ => start []
  | .ok none => start tasks
  | .ok (some data) =>
      { tasks := .update update :: tasks
        held := some data }

/-- One step of a thread. -/
def step (files : FileView σ κ γ) (worker : Worker σ κ ε γ ρ) (store : σ) :
    Option (Access κ ε × Worker σ κ ε γ ρ × σ) :=
  match worker.tasks, worker.held with
  | [], _ => none
  | .change apply :: tasks, _ => some (.other, start tasks, apply store)
  | .update update :: tasks, none =>
      some (.read update.file,
        afterRead update tasks (files.read update.file store), store)
  | .update update :: tasks, some data =>
      some (.write update.file update.entry, start tasks,
        files.write update.file data store)

end Worker

section

variable {σ κ ε γ ρ : Type}

/-- A thread that has the store to itself. -/
def alone (files : FileView σ κ γ) : List (Action σ κ ε γ ρ) → σ → Except ρ σ
  | [], store => .ok store
  | .change apply :: tasks, store => alone files tasks (apply store)
  | .update update :: tasks, store =>
      match update.compute (files.read update.file store) with
      | .error raised => .error raised
      | .ok none => alone files tasks store
      | .ok (some data) =>
          alone files tasks (files.write update.file data store)

/-- Between a thread's read of a file and its write of it no other thread writes
the file to add another entry. -/
def Undisturbed (trace : List (Nat × Access κ ε)) : Prop :=
  ∀ before between after index file entry,
    trace = before ++ (index, .read file) ::
      (between ++ (index, .write file entry) :: after) →
    ∀ other added, (other, Access.write file added) ∈ between →
      other ≠ index → added = entry

theorem Undisturbed.of_append {trace more : List (Nat × Access κ ε)}
    (undisturbed : Undisturbed (trace ++ more)) : Undisturbed trace := by
  intro before between after index file entry same
  apply undisturbed before between (after ++ more) index file entry
  rw [same]
  simp only [List.append_assoc, List.cons_append]

variable (shows : κ → Option γ → Set ε → Prop)

/-- The update adds its entry to what its file shows and keeps the others. -/
def Update.Adds (update : Update κ ε γ ρ) : Prop :=
  ∀ content entries, shows update.file content entries →
    (update.compute content = .ok none ∧ update.entry ∈ entries) ∨
      ∃ data, update.compute content = .ok (some data) ∧
        shows update.file (some data) (insert update.entry entries)

/-- A task that changes no file but by adding an entry to it. -/
def Action.Sound (files : FileView σ κ γ) : Action σ κ ε γ ρ → Prop
  | .change apply => ∀ file store,
      files.read file (apply store) = files.read file store
  | .update job => job.Adds shows

/-- A write that is pending keeps all the file shows, if it was not disturbed
so far. -/
structure Pending (trace : List (Nat × Access κ ε)) (entries : κ → Set ε)
    (index : Nat) (update : Update κ ε γ ρ) (data : γ) : Prop where
  holds : ∃ snapshot before between,
    shows update.file (some data) (insert update.entry snapshot) ∧
    snapshot ⊆ entries update.file ∧
    trace = before ++ (index, .read update.file) :: between ∧
    (∀ access ∈ between, access.1 ≠ index) ∧
    ((∀ other added, (other, Access.write update.file added) ∈ between →
        added = update.entry) →
      entries update.file ⊆ insert update.entry snapshot)

/-- Nothing that was added is lost: the files show the entries, those of the
updates made among them. -/
structure Accounted (files : FileView σ κ γ) (work : List (List (Action σ κ ε γ ρ)))
    (entries : κ → Set ε)
    (pool : Pool (Worker σ κ ε γ ρ) σ (Access κ ε)) : Prop where
  shown : ∀ file, shows file (files.read file pool.store) (entries file)
  threads : pool.threads.length = work.length
  made : ∀ (index : Nat) (worker : Worker σ κ ε γ ρ),
    pool.threads[index]? = some worker →
    ∃ earlier, work[index]? = some (earlier ++ worker.tasks) ∧
      ∀ update, Action.update update ∈ earlier →
        update.entry ∈ entries update.file
  pending : ∀ (index : Nat) (worker : Worker σ κ ε γ ρ) (data : γ),
    pool.threads[index]? = some worker →
    worker.held = some data →
    ∃ update tasks, worker.tasks = .update update :: tasks ∧
      Pending shows pool.trace entries index update data

end

section Steps

variable {σ κ ε γ ρ : Type} {files : FileView σ κ γ}

/-- A thread's step is a change, a read, or the write it has read for. -/
theorem Worker.step_cases {worker after : Worker σ κ ε γ ρ} {store next : σ}
    {access : Access κ ε}
    (stepped : worker.step files store = some (access, after, next)) :
    (∃ apply tasks, worker.tasks = .change apply :: tasks ∧
      access = .other ∧ after = start tasks ∧ next = apply store) ∨
    (∃ update tasks, worker.tasks = .update update :: tasks ∧
      access = .read update.file ∧
      after = afterRead update tasks (files.read update.file store) ∧
      next = store) ∨
    ∃ update tasks data, worker.tasks = .update update :: tasks ∧
      worker.held = some data ∧ access = .write update.file update.entry ∧
      after = start tasks ∧ next = files.write update.file data store := by
  obtain ⟨tasks, held⟩ := worker
  cases tasks with
  | nil => cases stepped
  | cons action tasks =>
      cases action with
      | change apply =>
          cases stepped
          exact .inl ⟨apply, tasks, rfl, rfl, rfl, rfl⟩
      | update update =>
          cases held with
          | none =>
              cases stepped
              exact .inr (.inl ⟨update, tasks, rfl, rfl, rfl, rfl⟩)
          | some data =>
              cases stepped
              exact .inr (.inr ⟨update, tasks, data, rfl, rfl, rfl, rfl, rfl⟩)

theorem Worker.tasks_of_step_eq_none {worker : Worker σ κ ε γ ρ} {store : σ}
    (finished : worker.step files store = none) : worker.tasks = [] := by
  obtain ⟨tasks, held⟩ := worker
  cases tasks with
  | nil => rfl
  | cons action tasks =>
      cases action with
      | change apply => cases finished
      | update update =>
          cases held with
          | none => cases finished
          | some data => cases finished

variable {shows : κ → Option γ → Set ε → Prop}
  {entries after : κ → Set ε} {trace : List (Nat × Access κ ε)}

/-- A pending write stays one when another thread takes a step. -/
theorem Pending.extend {index other : Nat} {update : Update κ ε γ ρ} {data : γ}
    {access : Access κ ε}
    (pending : Pending shows trace entries index update data)
    (apart : other ≠ index)
    (grows : entries update.file ⊆ after update.file)
    (only : (∀ added, access = .write update.file added →
        added = update.entry) →
      after update.file ⊆ insert update.entry (entries update.file)) :
    Pending shows (trace ++ [(other, access)]) after index update data := by
  obtain ⟨snapshot, before, between, shown, inside, same, others, keeps⟩ :=
    pending.holds
  constructor
  refine ⟨snapshot, before, between ++ [(other, access)], shown,
    inside.trans grows, ?_, ?_, ?_⟩
  · rw [same, List.append_assoc, List.cons_append]
  · intro made member
    rcases List.mem_append.mp member with earlier | last
    · exact others made earlier
    · rw [List.mem_singleton.mp last]
      exact apart
  · intro undisturbed
    have earlier : ∀ thread added,
        (thread, Access.write update.file added) ∈ between →
          added = update.entry := by
      intro thread added member
      exact undisturbed thread added (List.mem_append_left _ member)
    have last : ∀ added, access = .write update.file added →
        added = update.entry := by
      intro added written
      apply undisturbed other added
      rw [written]
      exact List.mem_append_right _ List.mem_cons_self
    calc after update.file
        ⊆ insert update.entry (entries update.file) := only last
      _ ⊆ insert update.entry (insert update.entry snapshot) :=
        Set.insert_subset_insert (keeps earlier)
      _ = insert update.entry snapshot := Set.insert_idem _ _

/-- What was disturbed by nothing keeps everything when it is written. -/
theorem Pending.keeps {index : Nat} {update : Update κ ε γ ρ} {data : γ}
    (pending : Pending shows trace entries index update data)
    (undisturbed : Undisturbed
      (trace ++ [(index, .write update.file update.entry)])) :
    ∃ snapshot, shows update.file (some data) (insert update.entry snapshot) ∧
      entries update.file ⊆ insert update.entry snapshot ∧
      snapshot ⊆ entries update.file := by
  obtain ⟨snapshot, before, between, shown, inside, same, others, keeps⟩ :=
    pending.holds
  refine ⟨snapshot, shown, keeps ?_, inside⟩
  intro other added member
  apply undisturbed before between [] index update.file update.entry ?_ other
    added member (others _ member)
  rw [same, List.append_assoc, List.cons_append]

variable {work : List (List (Action σ κ ε γ ρ))}
  {pool : Pool (Worker σ κ ε γ ρ) σ (Access κ ε)}

/-- The tasks a thread started with are sound, so those it has left are. -/
theorem Accounted.sound (accounted : Accounted shows files work entries pool)
    (sound : ∀ tasks ∈ work, ∀ action ∈ tasks, action.Sound shows files)
    {index : Nat} {worker : Worker σ κ ε γ ρ}
    (found : pool.threads[index]? = some worker) :
    ∀ action ∈ worker.tasks, action.Sound shows files := by
  intro action member
  obtain ⟨earlier, given, _⟩ := accounted.made index worker found
  exact sound _ (List.mem_of_getElem? given) action
    (List.mem_append_right _ member)

/-- A step of one thread, when the files still show all entries and that thread
accounts for its own. -/
theorem Accounted.step {index : Nat} {worker next : Worker σ κ ε γ ρ} {store : σ}
    {access : Access κ ε} (accounted : Accounted shows files work entries pool)
    (found : pool.threads[index]? = some worker)
    (shown : ∀ file, shows file (files.read file store) (after file))
    (grows : ∀ file, entries file ⊆ after file)
    (only : ∀ file entry, (∀ added, access = .write file added →
        added = entry) → after file ⊆ insert entry (entries file))
    (made : ∃ earlier, worker.tasks = earlier ++ next.tasks ∧
      ∀ update, Action.update update ∈ earlier →
        update.entry ∈ after update.file)
    (pending : ∀ data, next.held = some data →
      ∃ update tasks, next.tasks = .update update :: tasks ∧
        Pending shows (pool.trace ++ [(index, access)]) after index update
          data) :
    Accounted shows files work after
      { threads := pool.threads.set index next
        store := store
        trace := pool.trace ++ [(index, access)] } := by
  constructor
  · exact shown
  · rw [List.length_set]
    exact accounted.threads
  · intro place other there
    rcases Pool.getElem?_set_cases there with ⟨same, is⟩ | ⟨_, there⟩
    · rw [same, is]
      obtain ⟨before, given, added⟩ := accounted.made index worker found
      obtain ⟨now, split, addedNow⟩ := made
      refine ⟨before ++ now, ?_, ?_⟩
      · rw [given, split, List.append_assoc]
      · intro update member
        rcases List.mem_append.mp member with earlier | here
        · exact grows _ (added update earlier)
        · exact addedNow update here
    · obtain ⟨before, given, added⟩ := accounted.made place other there
      exact ⟨before, given, fun update member =>
        grows _ (added update member)⟩
  · intro place other data there held
    rcases Pool.getElem?_set_cases there with ⟨same, is⟩ | ⟨apart, there⟩
    · rw [is] at held ⊢
      rw [same]
      exact pending data held
    · obtain ⟨update, tasks, split, waiting⟩ :=
        accounted.pending place other data there held
      exact ⟨update, tasks, split, waiting.extend (Ne.symm apart) (grows _)
        (only _ _)⟩

/-- A turn loses nothing, if its write was not disturbed. -/
theorem Accounted.advance
    (sound : ∀ tasks ∈ work, ∀ action ∈ tasks, action.Sound shows files)
    (accounted : Accounted shows files work entries pool) (index : Nat)
    (undisturbed : Undisturbed
      (pool.advance (Worker.step files) index).trace) :
    ∃ after, Accounted shows files work after
      (pool.advance (Worker.step files) index) := by
  have turn := @Pool.advance_cases _ _ _ (Worker.step files) pool index
  rcases turn with same |
    ⟨worker, access, next, store, found, stepped, same⟩
  · exact ⟨entries, by rw [same]; exact accounted⟩
  rw [same] at undisturbed ⊢
  have tasksSound := accounted.sound sound found
  rcases Worker.step_cases stepped with
    ⟨apply, tasks, split, isAccess, isNext, isStore⟩ |
    ⟨update, tasks, split, isAccess, isNext, isStore⟩ |
    ⟨update, tasks, data, split, held, isAccess, isNext, isStore⟩
  · have frame := tasksSound _ (by rw [split]; exact List.mem_cons_self)
    refine ⟨entries, accounted.step found ?_ (fun _ => subset_rfl) ?_ ?_ ?_⟩
    · intro file
      rw [isStore, frame file pool.store]
      exact accounted.shown file
    · exact fun file entry _ => Set.subset_insert _ _
    · refine ⟨[.change apply], ?_, ?_⟩
      · rw [split, isNext]
        rfl
      · intro update member
        cases List.mem_singleton.mp member
    · intro data waiting
      rw [isNext] at waiting
      cases waiting
  · have adds := tasksSound _ (by rw [split]; exact List.mem_cons_self)
    refine ⟨entries, accounted.step found ?_ (fun _ => subset_rfl) ?_ ?_ ?_⟩
    · intro file
      rw [isStore]
      exact accounted.shown file
    · exact fun file entry _ => Set.subset_insert _ _
    · rcases adds _ _ (accounted.shown update.file) with ⟨computed, known⟩ |
        ⟨data, computed, _⟩
      · refine ⟨[.update update], ?_, ?_⟩
        · rw [split, isNext, Worker.afterRead, computed]
          rfl
        · intro other member
          cases List.mem_singleton.mp member
          exact known
      · refine ⟨[], ?_, ?_⟩
        · rw [split, isNext, Worker.afterRead, computed]
          rfl
        · intro other member
          cases member
    · intro data waiting
      rcases adds _ _ (accounted.shown update.file) with ⟨computed, _⟩ |
        ⟨content, computed, shown⟩
      · rw [isNext, Worker.afterRead, computed] at waiting
        cases waiting
      · rw [isNext, Worker.afterRead, computed] at waiting ⊢
        cases waiting
        refine ⟨update, tasks, rfl, ⟨entries update.file, pool.trace, [],
          shown, subset_rfl, ?_, ?_, ?_⟩⟩
        · rw [isAccess]
        · intro made member
          cases member
        · exact fun _ => Set.subset_insert _ _
  · obtain ⟨first, others, alsoSplit, pending⟩ :=
      accounted.pending index worker data found held
    rw [split] at alsoSplit
    cases alsoSplit
    rw [isAccess] at undisturbed
    obtain ⟨snapshot, shown, keeps, inside⟩ := pending.keeps undisturbed
    have whole : insert update.entry snapshot =
        insert update.entry (entries update.file) := by
      apply Set.Subset.antisymm
      · exact Set.insert_subset_insert inside
      · exact Set.insert_subset (Set.mem_insert _ _) keeps
    refine ⟨fun file => {entry | entry ∈ entries file ∨
      file = update.file ∧ entry = update.entry},
      accounted.step found ?_ ?_ ?_ ?_ ?_⟩
    · intro file
      rw [isStore]
      by_cases same : file = update.file
      · have here : {entry | entry ∈ entries file ∨
            file = update.file ∧ entry = update.entry} =
              insert update.entry snapshot := by
          rw [whole, same]
          ext entry
          simp [or_comm]
        rw [here, same, files.read_write_self]
        exact shown
      · rw [files.read_write_of_ne same]
        simp only [same, false_and, or_false, Set.ofPred_mem_eq]
        exact accounted.shown file
    · exact fun file entry member => .inl member
    · intro file entry alike added member
      rcases member with known | ⟨same, is⟩
      · exact .inr known
      · left
        rw [is]
        apply alike
        rw [isAccess, same]
    · refine ⟨[.update update], ?_, ?_⟩
      · rw [split, isNext]
        rfl
      · intro other member
        cases List.mem_singleton.mp member
        exact .inr ⟨rfl, rfl⟩
    · intro content waiting
      rw [isNext] at waiting
      cases waiting

/-- Threads that have done nothing yet. -/
theorem Accounted.start {store : σ}
    (shown : ∀ file, shows file (files.read file store) (entries file)) :
    Accounted shows files work entries
      (Pool.start (work.map Worker.start) store) := by
  constructor
  · exact shown
  · exact List.length_map _
  · intro index worker found
    rw [Pool.start, List.getElem?_map] at found
    obtain ⟨tasks, given, is⟩ := Option.map_eq_some_iff.mp found
    refine ⟨[], ?_, fun update member => by cases member⟩
    rw [given, ← is]
    rfl
  · intro index worker data found held
    rw [Pool.start, List.getElem?_map] at found
    obtain ⟨tasks, given, is⟩ := Option.map_eq_some_iff.mp found
    rw [← is] at held
    cases held

/-- Whatever the schedule, nothing is lost when no write was disturbed. -/
theorem kept_of_undisturbed
    (sound : ∀ tasks ∈ work, ∀ action ∈ tasks, action.Sound shows files)
    {store : σ}
    (shown : ∀ file, shows file (files.read file store) (entries file))
    (schedule : List Nat)
    (undisturbed : Undisturbed ((Pool.start (work.map Worker.start)
      store).run (Worker.step files) schedule).trace) :
    ∃ after, Accounted shows files work after
      ((Pool.start (work.map Worker.start) store).run (Worker.step files)
        schedule) := by
  revert undisturbed
  apply Pool.run_induction (motive := fun pool => Undisturbed pool.trace →
    ∃ after, Accounted shows files work after pool)
  · exact fun _ => ⟨entries, Accounted.start shown⟩
  · intro pool index holds undisturbed
    obtain ⟨more, grown⟩ :=
      @Pool.trace_advance _ _ _ (Worker.step files) pool index
    have before : Undisturbed pool.trace := by
      rw [grown] at undisturbed
      exact undisturbed.of_append
    obtain ⟨after, accounted⟩ := holds before
    exact accounted.advance sound index undisturbed

/-- Once every thread has finished, the files show every entry. -/
theorem Accounted.finished (accounted : Accounted shows files work entries pool)
    (finished : pool.Finished (Worker.step files))
    {tasks : List (Action σ κ ε γ ρ)} (given : tasks ∈ work)
    {update : Update κ ε γ ρ} (member : Action.update update ∈ tasks) :
    update.entry ∈ entries update.file := by
  obtain ⟨index, there⟩ := List.mem_iff_getElem?.mp given
  have bound : index < pool.threads.length := by
    rw [accounted.threads]
    exact (List.getElem?_eq_some_iff.mp there).1
  have found := List.getElem?_eq_getElem bound
  obtain ⟨earlier, is, added⟩ := accounted.made index _ found
  have idle := Worker.tasks_of_step_eq_none
    (finished _ (List.getElem_mem bound))
  rw [there, idle, List.append_nil, Option.some.injEq] at is
  exact added update (is ▸ member)

end Steps

end Cats
