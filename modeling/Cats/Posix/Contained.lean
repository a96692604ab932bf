import Cats.AddressStore.Get

/-!
# Writes within bounds

`Within` is the invariant of a run whose writes are confined: what the log
gained is allowed, certain directories still stand and certain files are still
there.  Making directories along a path may stop early, at a NUL or at one of
those files, so what it touches is described part by part.
-/

namespace Cats

open Effect

/-- What a run may write, and what it finds on the disk. -/
structure Bounds where
  allowed : Write → Prop
  standing : Path → Prop
  files : Path → Prop

namespace Bounds

variable (bounds : Bounds)

/-- The directories made along the parts are allowed or standing, and the last
of them satisfies `final`, unless a NUL or a file stops the making first. -/
inductive Stays (final : Path → Prop) : Path → List (List Char) → Prop where
  | arrived {here : Path} (holds : final here) : Stays final here []
  | nul {here : Path} {part : List Char} {parts : List (List Char)}
      (refused : Disk.hasNul part = true) : Stays final here (part :: parts)
  | file {here : Path} {part : List Char} {parts : List (List Char)}
      (there : bounds.files (Posix.enter here part)) :
      Stays final here (part :: parts)
  | made {here : Path} {part : List Char} {parts : List (List Char)}
      (touched : bounds.allowed ⟨Posix.enter here part, none⟩ ∨
        bounds.standing (Posix.enter here part))
      (rest : Stays final (Posix.enter here part) parts) :
      Stays final here (part :: parts)

variable {bounds} {final : Path → Prop} {here : Path}
  {parts more : List (List Char)}

theorem stays_nil : bounds.Stays final here [] ↔ final here := by
  constructor
  · intro stays
    cases stays with
    | arrived holds => exact holds
  · exact .arrived

theorem Stays.mono {weaker : Path → Prop}
    (stays : bounds.Stays final here parts)
    (implies : ∀ path, final path → weaker path) :
    bounds.Stays weaker here parts := by
  induction stays with
  | arrived holds => exact .arrived (implies _ holds)
  | nul refused => exact .nul refused
  | file there => exact .file there
  | made touched _ induction => exact .made touched induction

/-- The making ends at the place the parts lead to. -/
theorem Stays.ends (stays : bounds.Stays final here parts) :
    bounds.Stays
      (fun path => path = parts.foldl Posix.enter here ∧ final path) here
      parts := by
  induction stays with
  | arrived holds => exact .arrived ⟨rfl, holds⟩
  | nul refused => exact .nul refused
  | file there => exact .file there
  | made touched _ induction => exact .made touched induction

theorem stays_append :
    bounds.Stays final here (parts ++ more) ↔
      bounds.Stays (fun path => bounds.Stays final path more) here parts := by
  constructor
  · intro stays
    induction parts generalizing here with
    | nil => exact .arrived stays
    | cons part parts induction =>
        cases stays with
        | nul refused => exact .nul refused
        | file there => exact .file there
        | made touched rest => exact .made touched (induction rest)
  · intro stays
    induction stays with
    | arrived holds => exact holds
    | nul refused => exact .nul refused
    | file there => exact .file there
    | made touched _ induction => exact .made touched induction

/-- The first parts stay where all of them do. -/
theorem Stays.dropLast (stays : bounds.Stays final here parts) :
    bounds.Stays (fun _ => True) here parts.dropLast := by
  rcases List.eq_nil_or_concat parts with rfl | ⟨start, last, rfl⟩
  · exact .arrived trivial
  · rw [List.concat_eq_append] at stays ⊢
    rw [List.dropLast_concat]
    exact (stays_append.mp stays).mono fun _ _ => trivial

/-- The way to a place stays when each directory on it is allowed or
stands. -/
theorem stays_onWay
    (touched : ∀ start, start <+: parts → bounds.allowed
        ⟨start.foldl Posix.enter here, none⟩ ∨
      bounds.standing (start.foldl Posix.enter here)) :
    bounds.Stays (fun path => path = parts.foldl Posix.enter here) here
      parts := by
  induction parts generalizing here with
  | nil => exact .arrived rfl
  | cons part parts induction =>
      apply Stays.made (touched [part] (by simp))
      apply induction
      intro start inside
      exact touched (part :: start) (List.cons_prefix_cons.mpr ⟨rfl, inside⟩)

/-- Below an allowed directory, parts that do not climb stay. -/
theorem stays_below {directory : Path}
    (allowed : ∀ write, directory <+: write.path → bounds.allowed write)
    (inside : directory <+: here) (climbs : ['.', '.'] ∉ parts) :
    bounds.Stays (fun path => directory <+: path) here parts := by
  induction parts generalizing here with
  | nil => exact .arrived inside
  | cons part parts induction =>
      simp only [List.mem_cons, not_or] at climbs
      have deeper : directory <+: Posix.enter here part := by
        unfold Posix.enter
        have notParent : part ≠ ['.', '.'] := Ne.symm climbs.1
        split_ifs
        · exact inside
        · exact inside.trans (List.prefix_append here [part])
      exact .made (.inl (allowed _ deeper)) (induction deeper climbs.2)

end Bounds

/-- The log gained only allowed writes. -/
def Logged (allowed : Write → Prop) (start : List Write) (machine : Machine) :
    Prop :=
  ∃ added, machine.writes = start ++ added ∧ ∀ write ∈ added, allowed write

/-- The invariant of a confined run. -/
structure Within (bounds : Bounds) (start : List Write) (machine : Machine) :
    Prop where
  log : Logged bounds.allowed start machine
  standing : ∀ path, bounds.standing path → machine.inode? path = some .dir
  files : ∀ path, bounds.files path →
    ∃ data, machine.inode? path = some (.file data)

/-- A computation that keeps the invariant, and ensures more if it returns. -/
abbrev Confined {α : Type} (bounds : Bounds) (start : List Write)
    (action : Act α) (after : Prop := True) : Prop :=
  Triple (Within bounds start) action
    (fun _ machine => Within bounds start machine ∧ after)
    (Logged bounds.allowed start)

section Confinement

variable {bounds : Bounds} {start : List Write}

theorem Within.same {before after : Machine}
    (within : Within bounds start before) (same : Machine.Same before after) :
    Within bounds start after := by
  have inodes : after.inode? = before.inode? := by
    funext path
    simp only [Machine.inode?, same.disk]
  exact
    { log := by unfold Logged; rw [same.writes]; exact within.log
      standing := by rw [inodes]; exact within.standing
      files := by rw [inodes]; exact within.files }

theorem confined_pure {α : Type} (value : α) :
    Confined bounds start (pure value : Act α) :=
  Triple.pure fun _ within => ⟨within, trivial⟩

theorem confined_throw {α : Type} (raised : Raised) {after : Prop} :
    Confined bounds start (throw raised : Act α) after :=
  Triple.throw fun _ within => within.log

theorem Confined.mono {α : Type} {action : Act α} {stronger weaker : Prop}
    (confined : Confined bounds start action stronger)
    (implies : stronger → weaker) : Confined bounds start action weaker :=
  confined.conseq (fun _ within => within)
    fun _ _ outcome => ⟨outcome.1, implies outcome.2⟩

/-- What the first part ensures is known to the second. -/
theorem Confined.bind {α β : Type} {action : Act α} {next : α → Act β}
    {known after : Prop} (first : Confined bounds start action known)
    (later : known → ∀ value, Confined bounds start (next value) after) :
    Confined bounds start (action >>= next) after :=
  Triple.bind first fun value =>
    Triple.of_fact fun fact => later fact value

theorem confined_of_reads {α : Type} {action : Act α}
    (reads : AddressStore.Reads action) : Confined bounds start action where
  returned machine value after within ran := by
    have same := reads machine
    rw [ran] at same
    exact ⟨within.same same, trivial⟩
  raised machine error after within ran := by
    have same := reads machine
    rw [ran] at same
    exact (within.same same).log

theorem confined_get : Confined bounds start (get : Act Machine) :=
  confined_of_reads AddressStore.reads_get

/-- A computation on the locator index leaves the disk alone. -/
theorem confined_withIndex {α : Type}
    (step : Option LocatorIndex → Except Raised (α × Option LocatorIndex)) :
    Confined bounds start (Act.withIndex step) := by
  refine confined_get.bind fun _ machine => ?_
  refine Confined.bind
    (confined_of_reads (AddressStore.reads_lift (step _))) fun _ outcome => ?_
  refine Confined.bind (?_ : Confined bounds start _ True)
    fun _ _ => confined_pure _
  exact Triple.modify fun machine within =>
    ⟨⟨within.log, within.standing, within.files⟩, trivial⟩

theorem Within.put {machine : Machine} {path : Path} {inode : Inode}
    {content : Option Bytes} (within : Within bounds start machine)
    (allowed : bounds.allowed ⟨path, content⟩)
    (keepsDirs : ¬ bounds.standing path)
    (keepsFiles : bounds.files path → ∃ data, inode = .file data)
    (nonroot : path ≠ []) :
    Within bounds start
      { machine with
        disk := Function.update machine.disk path (some inode)
        writes := machine.writes ++ [⟨path, content⟩] } := by
  have others : ∀ other, other ≠ path →
      ({ machine with
          disk := Function.update machine.disk path (some inode)
          writes := machine.writes ++ [⟨path, content⟩] } : Machine).inode?
        other = machine.inode? other := by
    intro other different
    simp only [Machine.inode?, Function.update_of_ne different]
  obtain ⟨added, whole, inside⟩ := within.log
  refine ⟨⟨added ++ [⟨path, content⟩], ?_, ?_⟩, ?_, ?_⟩
  · simp [whole]
  · intro write member
    rcases List.mem_append.mp member with earlier | latest
    · exact inside write earlier
    · rw [List.mem_singleton.mp latest]
      exact allowed
  · intro other stands
    have different : other ≠ path := fun same => keepsDirs (same ▸ stands)
    rw [others other different]
    exact within.standing other stands
  · intro other isFile
    by_cases same : other = path
    · subst same
      obtain ⟨data, rfl⟩ := keepsFiles isFile
      exact ⟨data, by simp [Machine.inode?, nonroot]⟩
    · rw [others other same]
      exact within.files other isFile

namespace Disk

theorem confined_mkdir {path : Path} (isLast : Bool)
    (made : bounds.allowed ⟨path, none⟩ ∨ bounds.standing path ∨
      bounds.files path) :
    Confined bounds start (mkdir path isLast) (¬ bounds.files path) := by
  refine Triple.get_bind fun machine within => ?_
  cases found : machine.inode? path with
  | some inode =>
      cases inode with
      | file data => exact Triple.throw (by rintro _ rfl; exact within.log)
      | dir =>
          refine Triple.pure ?_
          rintro _ rfl
          refine ⟨within, fun isFile => ?_⟩
          obtain ⟨data, holds⟩ := within.files path isFile
          rw [found] at holds
          exact nomatch holds
  | none =>
      have notStanding : ¬ bounds.standing path := fun stands => by
        have directory := within.standing path stands
        rw [found] at directory
        exact nomatch directory
      have notFile : ¬ bounds.files path := fun isFile => by
        obtain ⟨data, holds⟩ := within.files path isFile
        rw [found] at holds
        exact nomatch holds
      have nonroot : path ≠ [] := by
        rintro rfl
        simp [Machine.inode?] at found
      have allowed : bounds.allowed ⟨path, none⟩ := by
        rcases made with allowed | stands | isFile
        · exact allowed
        · exact absurd stands notStanding
        · exact absurd isFile notFile
      refine Triple.modify ?_
      rintro _ rfl
      exact ⟨within.put allowed notStanding
        (fun isFile => absurd isFile notFile) nonroot, notFile⟩

/-- Directories are made where the bounds say. -/
theorem confined_mkdirsFrom {final : Path → Prop} {here : Path}
    {parts : List (List Char)} (stays : bounds.Stays final here parts) :
    Confined bounds start (mkdirsFrom here parts)
      (final (parts.foldl Posix.enter here)) := by
  induction stays with
  | arrived holds => exact Triple.pure fun _ within => ⟨within, holds⟩
  | nul refused =>
      exact Triple.ite (fun _ => confined_throw _)
        fun plain => absurd refused plain
  | @file here part parts there =>
      apply Triple.ite (fun _ => confined_throw _)
      intro _
      exact (confined_mkdir parts.isEmpty (.inr (.inr there))).bind
        fun notFile _ => absurd there notFile
  | @made here part parts touched rest induction =>
      apply Triple.ite (fun _ => confined_throw _)
      intro _
      have made : bounds.allowed ⟨Posix.enter here part, none⟩ ∨
          bounds.standing (Posix.enter here part) ∨
          bounds.files (Posix.enter here part) := by
        rcases touched with allowed | stands
        · exact .inl allowed
        · exact .inr (.inl stands)
      exact (confined_mkdir parts.isEmpty made).bind fun _ _ => induction

theorem confined_makedirs {final : Path → Prop} {path : String}
    (stays : bounds.Stays final [] (Posix.parts path)) :
    Confined bounds start (makedirs path) (final (Posix.resolve path)) := by
  refine Triple.ite (fun _ => confined_throw _) fun _ => ?_
  rw [Posix.resolve_eq_foldl]
  exact confined_mkdirsFrom stays

theorem confined_mkdirParents {final : Path → Prop} {parts : List (List Char)}
    (stays : bounds.Stays final [] parts) :
    Confined bounds start (mkdirParents parts)
      (final (parts.foldl Posix.enter [])) :=
  Triple.ite (fun _ => confined_throw _) fun _ => confined_mkdirsFrom stays

theorem confined_writeAt {path : Path} (data : Bytes)
    (allowed : bounds.allowed ⟨path, some data⟩) :
    Confined bounds start (writeAt path data) := by
  refine Triple.get_bind fun machine within => ?_
  refine Triple.ite (fun _ => Triple.throw (by rintro _ rfl; exact within.log))
    fun directory => ?_
  refine Triple.ite (fun _ => ?_) fun _ => ?_
  · have nonroot : path ≠ [] := by
      rintro rfl
      simp [Machine.inode?] at directory
    refine Triple.modify ?_
    rintro _ rfl
    exact ⟨within.put allowed
      (fun stands => directory (within.standing path stands))
      (fun _ => ⟨data, rfl⟩) nonroot, trivial⟩
  · exact Triple.ite (fun _ => Triple.throw (by rintro _ rfl; exact within.log))
      fun _ => Triple.throw (by rintro _ rfl; exact within.log)

theorem confined_checkNul (path : String) :
    Confined bounds start (checkNul path) :=
  Triple.ite (fun _ => confined_throw _) fun _ => confined_pure ()

theorem confined_writeFile {path : String} (data : Bytes)
    (allowed : bounds.allowed ⟨Posix.resolve path, some data⟩) :
    Confined bounds start (writeFile path data) :=
  (confined_checkNul path).bind fun _ _ => confined_writeAt data allowed

/-- A temporary directory is none of the places that were there, nor do they
lie below it. -/
theorem confined_mkdtemp {path : String}
    (allowed : bounds.allowed ⟨Posix.resolve path, none⟩)
    (closed : ∀ place, bounds.standing place ∨ bounds.files place →
      ∀ above, above <+: place → bounds.standing above ∨ bounds.files above) :
    Confined bounds start (mkdtemp path)
      (∀ place, bounds.standing place ∨ bounds.files place →
        ¬ Posix.resolve path <+: place) := by
  refine Triple.get_bind fun machine within => ?_
  refine Triple.ite (fun _ => Triple.throw (by rintro _ rfl; exact within.log))
    fun absent => ?_
  refine Triple.ite (fun _ => ?_)
    fun _ => Triple.throw (by rintro _ rfl; exact within.log)
  have missing : machine.inode? (Posix.resolve path) = none :=
    not_not.mp absent
  have fresh : ¬ (bounds.standing (Posix.resolve path) ∨
      bounds.files (Posix.resolve path)) := by
    rintro (stands | isFile)
    · have directory := within.standing _ stands
      rw [missing] at directory
      exact nomatch directory
    · obtain ⟨data, holds⟩ := within.files _ isFile
      rw [missing] at holds
      exact nomatch holds
  have nonroot : Posix.resolve path ≠ [] := by
    intro root
    simp [Machine.inode?, root] at missing
  refine Triple.modify ?_
  rintro _ rfl
  refine ⟨within.put allowed (fun stands => fresh (.inl stands))
    (fun isFile => absurd (.inr isFile) fresh) nonroot, ?_⟩
  exact fun place there above => fresh (closed place there _ above)

theorem confined_rmtree {path : String}
    (apart : ∀ place, bounds.standing place ∨ bounds.files place →
      ¬ Posix.resolve path <+: place) :
    Confined bounds start (rmtree path) := by
  refine Triple.modify fun machine within => ⟨⟨within.log, ?_, ?_⟩, trivial⟩
  · intro place stands
    have kept := within.standing place stands
    simpa [Machine.inode?, apart place (.inl stands)] using kept
  · intro place isFile
    have kept := within.files place isFile
    simpa [Machine.inode?, apart place (.inr isFile)] using kept

theorem logged_rmtree (allowed : Write → Prop) (path : String) :
    Triple (Logged allowed start) (rmtree path)
      (fun _ => Logged allowed start) (Logged allowed start) :=
  Triple.modify fun _ logged => logged

theorem reads_readFile (path : String) : AddressStore.Reads (readFile path) := by
  refine AddressStore.reads_bind (Relates.ite
    (fun _ => AddressStore.reads_throw _)
    fun _ => AddressStore.reads_pure _) fun _ => ?_
  refine AddressStore.reads_bind AddressStore.reads_get fun machine => ?_
  cases machine.inode? (Posix.resolve path) with
  | none => exact AddressStore.reads_throw _
  | some inode =>
      cases inode with
      | file data => exact AddressStore.reads_pure _
      | dir => exact AddressStore.reads_throw _

end Disk

end Confinement

end Cats
