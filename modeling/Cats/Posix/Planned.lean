import Cats.Posix.Contained

/-!
# Runs that nothing on the disk obstructs

A plan says which places may be directories and which may be files.  As long
as the disk keeps to a plan, making planned directories and writing planned
files returns, and the disk still keeps to it.  `Kept` adds what is known to
be there.
-/

namespace Cats

open Effect

/-- What may be where. -/
structure Plan where
  dir : Path → Prop
  file : Path → Prop
  apart : ∀ path, dir path → ¬ file path

/-- The disk keeps to the plan, and these directories and files are there. -/
structure Kept (plan : Plan) (home : Option Home) (known : Path → Prop)
    (held : Path → Bytes → Prop) (machine : Machine) : Prop where
  home : machine.home = home
  dirs : ∀ path, machine.inode? path = some .dir → plan.dir path
  files : ∀ path data, machine.inode? path = some (.file data) →
    plan.file path
  known : ∀ path, known path → machine.inode? path = some .dir
  held : ∀ path data, held path data →
    machine.inode? path = some (.file data)

namespace Kept

variable {plan : Plan} {home : Option Home} {known : Path → Prop}
  {held : Path → Bytes → Prop} {machine : Machine}

theorem mono {fewer : Path → Prop} {less : Path → Bytes → Prop}
    (kept : Kept plan home known held machine)
    (dirs : ∀ path, fewer path → known path)
    (files : ∀ path data, less path data → held path data) :
    Kept plan home fewer less machine where
  home := kept.home
  dirs := kept.dirs
  files := kept.files
  known path member := kept.known path (dirs path member)
  held path data member := kept.held path data (files path data member)

theorem same {after : Machine} (kept : Kept plan home known held machine)
    (frame : Machine.Same machine after) :
    Kept plan home known held after := by
  have inodes : after.inode? = machine.inode? := by
    funext path
    simp only [Machine.inode?, frame.disk]
  constructor
  · rw [frame.home]
    exact kept.home
  · rw [inodes]
    exact kept.dirs
  · rw [inodes]
    exact kept.files
  · rw [inodes]
    exact kept.known
  · rw [inodes]
    exact kept.held

/-- A wider plan is kept too. -/
theorem widen {wide : Plan} (kept : Kept plan home known held machine)
    (dirs : ∀ path, plan.dir path → wide.dir path)
    (files : ∀ path, plan.file path → wide.file path) :
    Kept wide home known held machine where
  home := kept.home
  dirs path found := dirs path (kept.dirs path found)
  files path data found := files path (kept.files path data found)
  known := kept.known
  held := kept.held

/-- Where nothing is planned there is nothing. -/
theorem absent (kept : Kept plan home known held machine) {path : Path}
    (notDir : ¬ plan.dir path) (notFile : ¬ plan.file path) :
    machine.inode? path = none := by
  cases found : machine.inode? path with
  | none => rfl
  | some inode =>
      cases inode with
      | file data => exact absurd (kept.files path data found) notFile
      | dir => exact absurd (kept.dirs path found) notDir

theorem root (kept : Kept plan home known held machine) :
    Kept plan home (fun path => known path ∨ path = []) held machine where
  home := kept.home
  dirs := kept.dirs
  files := kept.files
  known path member := by
    rcases member with old | rfl
    · exact kept.known path old
    · rfl
  held := kept.held

/-- One planned directory more. -/
theorem putDir {path : Path} (kept : Kept plan home known held machine)
    (planned : plan.dir path) (absent : machine.inode? path = none) :
    Kept plan home (fun other => known other ∨ other = path) held
      { machine with
        disk := Function.update machine.disk path (some .dir)
        writes := machine.writes ++ [⟨path, none⟩] } := by
  have nonroot : path ≠ [] := by
    intro root
    simp [Machine.inode?, root] at absent
  have here : ({ machine with
      disk := Function.update machine.disk path (some .dir)
      writes := machine.writes ++ [⟨path, none⟩] } : Machine).inode? path =
        some .dir := by
    simp [Machine.inode?, nonroot]
  have others : ∀ other, other ≠ path → ({ machine with
      disk := Function.update machine.disk path (some .dir)
      writes := machine.writes ++ [⟨path, none⟩] } : Machine).inode? other =
        machine.inode? other := by
    intro other different
    simp only [Machine.inode?, Function.update_of_ne different]
  constructor
  · exact kept.home
  · intro other found
    by_cases same : other = path
    · exact same ▸ planned
    · rw [others other same] at found
      exact kept.dirs other found
  · intro other data found
    by_cases same : other = path
    · rw [same, here] at found
      cases found
    · rw [others other same] at found
      exact kept.files other data found
  · intro other member
    by_cases same : other = path
    · rw [same]
      exact here
    · rw [others other same]
      exact kept.known other (member.resolve_right same)
  · intro other data member
    have different : other ≠ path := by
      intro same
      have found := kept.held other data member
      rw [same, absent] at found
      cases found
    rw [others other different]
    exact kept.held other data member

/-- One planned file more. -/
theorem putFile {path : Path} {data : Bytes}
    (kept : Kept plan home known held machine) (planned : plan.file path)
    (fresh : ∀ old, held path old → old = data) (nonroot : path ≠ []) :
    Kept plan home known
      (fun other bytes => held other bytes ∨ other = path ∧ bytes = data)
      { machine with
        disk := Function.update machine.disk path (some (.file data))
        writes := machine.writes ++ [⟨path, some data⟩] } := by
  have here : ({ machine with
      disk := Function.update machine.disk path (some (.file data))
      writes := machine.writes ++ [⟨path, some data⟩] } : Machine).inode? path =
        some (.file data) := by
    simp [Machine.inode?, nonroot]
  have others : ∀ other, other ≠ path → ({ machine with
      disk := Function.update machine.disk path (some (.file data))
      writes := machine.writes ++ [⟨path, some data⟩] } : Machine).inode?
        other = machine.inode? other := by
    intro other different
    simp only [Machine.inode?, Function.update_of_ne different]
  constructor
  · exact kept.home
  · intro other found
    by_cases same : other = path
    · rw [same, here] at found
      cases found
    · rw [others other same] at found
      exact kept.dirs other found
  · intro other bytes found
    by_cases same : other = path
    · exact same ▸ planned
    · rw [others other same] at found
      exact kept.files other bytes found
  · intro other member
    have different : other ≠ path := by
      intro same
      have directory := kept.dirs other (kept.known other member)
      exact plan.apart other directory (same ▸ planned)
    rw [others other different]
    exact kept.known other member
  · intro other bytes member
    by_cases same : other = path
    · subst same
      rcases member with old | ⟨_, rfl⟩
      · rw [fresh bytes old]
        exact here
      · exact here
    · rw [others other same]
      rcases member with old | ⟨equal, _⟩
      · exact kept.held other bytes old
      · exact absurd equal same

end Kept

/-- A computation that returns and keeps to the plan. -/
abbrev Runs {α : Type} (plan : Plan) (home : Option Home)
    (known : Path → Prop) (held : Path → Bytes → Prop) (action : Act α)
    (after : α → Machine → Prop) : Prop :=
  Completes (Kept plan home known held) action after

namespace Disk

variable {plan : Plan} {home : Option Home} {known : Path → Prop}
  {held : Path → Bytes → Prop}

theorem hasNul_eq_false {text : String}
    (noNul : ∀ part ∈ Posix.parts text, hasNul part = false) :
    hasNul text.toList = false := by
  by_contra nul
  have member : Char.ofNat 0 ∈ text.toList := by
    simpa [hasNul] using nul
  obtain ⟨part, inside, found⟩ := Posix.exists_part_of_mem member
    (by decide) (by decide)
  have plain := noNul part inside
  simp [hasNul, found] at plain

theorem runs_mkdir {path : Path} (isLast : Bool) (planned : plan.dir path) :
    Runs plan home known held (mkdir path isLast)
      (fun _ => Kept plan home (fun other => known other ∨ other = path)
        held) := by
  unfold mkdir
  apply Completes.get_bind
  intro machine kept
  cases found : machine.inode? path with
  | none =>
      intro state same
      rw [same]
      exact ⟨_, _, rfl, kept.putDir planned found⟩
  | some inode =>
      cases inode with
      | file data =>
          exact absurd (kept.files path data found) (plan.apart path planned)
      | dir =>
          intro state same
          rw [same]
          refine ⟨_, _, rfl, kept.home, kept.dirs, kept.files, ?_, kept.held⟩
          intro other member
          rcases member with old | rfl
          · exact kept.known other old
          · exact found

/-- Planned directories can be made one below the other. -/
theorem runs_mkdirsFrom {here : Path} {parts : List (List Char)}
    (noNul : ∀ part ∈ parts, hasNul part = false)
    (planned : ∀ way, way <+: parts → way ≠ [] →
      plan.dir (way.foldl Posix.enter here))
    (there : known here ∨ here = [] ∨ parts ≠ []) :
    Runs plan home known held (mkdirsFrom here parts)
      (fun _ => Kept plan home
        (fun path => known path ∨ path = parts.foldl Posix.enter here)
        held) := by
  induction parts generalizing here known with
  | nil =>
      apply Completes.pure
      intro machine kept
      refine ⟨kept.home, kept.dirs, kept.files, ?_, kept.held⟩
      intro path member
      rcases member with old | rfl
      · exact kept.known path old
      · rcases there with old | root | impossible
        · exact kept.known _ old
        · rw [root]
          rfl
        · exact absurd rfl impossible
  | cons part parts induction =>
      have plain := noNul part List.mem_cons_self
      unfold mkdirsFrom
      rw [plain]
      apply Completes.bind (runs_mkdir parts.isEmpty
        (planned [part] (by simp) (by simp)))
      intro _
      have later : ∀ way, way <+: parts → way ≠ [] →
          plan.dir (way.foldl Posix.enter (Posix.enter here part)) := by
        intro way inside nonempty
        exact planned (part :: way) (List.cons_prefix_cons.mpr ⟨rfl, inside⟩)
          (by simp)
      have deeper : Runs plan home
          (fun path => known path ∨ path = Posix.enter here part) held
          (mkdirsFrom (Posix.enter here part) parts) _ :=
        induction (fun other member =>
          noNul other (List.mem_cons_of_mem part member)) later
          (.inl (.inr rfl))
      apply deeper.conseq (fun _ kept => kept)
      intro _ machine kept
      apply kept.mono
      · intro path member
        rcases member with old | last
        · exact .inl (.inl old)
        · exact .inr last
      · exact fun _ _ member => member

theorem runs_makedirs {path : String} (nonempty : path ≠ "")
    (noNul : ∀ part ∈ Posix.parts path, hasNul part = false)
    (planned : ∀ way, way <+: Posix.parts path → way ≠ [] →
      plan.dir (way.foldl Posix.enter [])) :
    Runs plan home known held (makedirs path)
      (fun _ => Kept plan home
        (fun other => known other ∨ other = Posix.resolve path) held) := by
  unfold makedirs
  rw [if_neg nonempty, Posix.resolve_eq_foldl]
  exact runs_mkdirsFrom noNul planned (.inr (.inl rfl))

theorem runs_mkdirParents {parts : List (List Char)}
    (noNul : ∀ part ∈ parts, hasNul part = false)
    (planned : ∀ way, way <+: parts → way ≠ [] →
      plan.dir (way.foldl Posix.enter [])) :
    Runs plan home known held (mkdirParents parts)
      (fun _ => Kept plan home
        (fun path => known path ∨ path = parts.foldl Posix.enter [])
        held) := by
  have plain : (parts.any hasNul) = false := by
    rw [List.any_eq_false]
    intro part member
    rw [noNul part member]
    exact Bool.false_ne_true
  unfold mkdirParents
  rw [plain]
  exact runs_mkdirsFrom noNul planned (.inr (.inl rfl))

/-- A temporary directory is made where a narrower plan has nothing. -/
theorem completes_mkdtemp {wide : Plan} {path : String}
    (dirs : ∀ other, plan.dir other → wide.dir other)
    (files : ∀ other, plan.file other → wide.file other)
    (planned : wide.dir (Posix.resolve path))
    (notDir : ¬ plan.dir (Posix.resolve path))
    (notFile : ¬ plan.file (Posix.resolve path))
    (parent : known (Posix.resolve path).dropLast) :
    Completes (Kept plan home known held) (mkdtemp path)
      (fun _ => Kept wide home
        (fun other => known other ∨ other = Posix.resolve path) held) := by
  unfold mkdtemp
  apply Completes.get_bind
  intro machine kept state same
  have absent := kept.absent notDir notFile
  rw [absent, if_neg (by simp), if_pos (kept.known _ parent), same]
  exact ⟨_, _, rfl, (kept.widen dirs files).putDir planned absent⟩

/-- A planned file can be written in a directory that is there. -/
theorem runs_writeAt {path : Path} (data : Bytes) (planned : plan.file path)
    (parent : known path.dropLast) (nonroot : path ≠ [])
    (fresh : ∀ old, held path old → old = data) :
    Runs plan home known held (writeAt path data)
      (fun _ => Kept plan home known
        fun other bytes => held other bytes ∨ other = path ∧ bytes = data) := by
  unfold writeAt
  apply Completes.get_bind
  intro machine kept state same
  have notDir : ¬ machine.inode? path = some .dir := fun directory =>
    plan.apart path (kept.dirs path directory) planned
  rw [if_neg notDir, if_pos (kept.known _ parent), same]
  exact ⟨_, _, rfl, kept.putFile planned fresh nonroot⟩

theorem runs_writeFile {path : String} (data : Bytes)
    (noNul : hasNul path.toList = false)
    (planned : plan.file (Posix.resolve path))
    (parent : known (Posix.resolve path).dropLast)
    (nonroot : Posix.resolve path ≠ [])
    (fresh : ∀ old, held (Posix.resolve path) old → old = data) :
    Runs plan home known held (writeFile path data)
      (fun _ => Kept plan home known fun other bytes =>
        held other bytes ∨ other = Posix.resolve path ∧ bytes = data) := by
  have checked : checkNul path = pure () := by
    unfold checkNul
    rw [noNul]
    rfl
  unfold writeFile
  rw [checked, pure_bind]
  exact runs_writeAt data planned parent nonroot fresh

/-- A file that is there can be read. -/
theorem runs_readFile {path : String} {data : Bytes}
    (noNul : hasNul path.toList = false)
    (there : held (Posix.resolve path) data) :
    Runs plan home known held (readFile path)
      (fun value machine => value = data ∧
        Kept plan home known held machine) := by
  have checked : checkNul path = pure () := by
    unfold checkNul
    rw [noNul]
    rfl
  unfold readFile
  rw [checked, pure_bind]
  apply Completes.get_bind
  intro machine kept state same
  rw [kept.held _ _ there, same]
  exact ⟨data, machine, rfl, rfl, kept⟩

end Disk

end Cats
