import Cats.Mesh.Offer

/-!
# Structure homes that lead out

When the name an Order gives its Structure home is not confined, the Order can
be offered in such a way that `getEnhancedBom` writes outside the homes: the
walk to the Structure home makes a directory there, or ends there and the root
files follow.
-/

namespace Cats

open Effect

namespace Layout

variable {layout : Layout}

theorem resolve_INPUT_HOME : Posix.resolve layout.INPUT_HOME =
    Posix.parts layout.DATA_HOME ++ ["input".toList] := by
  rw [layout.settled_INPUT_HOME.resolve, parts_INPUT_HOME]

theorem resolve_OUTPUT_HOME : Posix.resolve layout.OUTPUT_HOME =
    Posix.parts layout.DATA_HOME ++ ["output".toList] := by
  rw [layout.settled_OUTPUT_HOME.resolve, parts_OUTPUT_HOME]

theorem OnTheWay.length_le {path : Path} (way : layout.OnTheWay path) :
    path.length ≤ (Posix.parts layout.DATA_HOME).length + 1 := by
  rcases way with input | output
  · have bound := input.length_le
    rwa [resolve_INPUT_HOME, List.length_append] at bound
  · have bound := output.length_le
    rwa [resolve_OUTPUT_HOME, List.length_append] at bound

theorem length_documents {path : Path} (member : path ∈ layout.documents) :
    path.length = (Posix.parts layout.DATA_HOME).length + 2 := by
  simp only [documents, documentPath, List.mem_cons, List.not_mem_nil,
    or_false] at member
  rcases member with rfl | rfl | rfl
  · simp [resolve_OUTPUT_HOME]
  · simp [resolve_OUTPUT_HOME]
  · simp [resolve_INPUT_HOME]

/-- A name that is no home's stands on the way to a home only above
`data`. -/
theorem OnTheWay.above {path : Path} {name : List Char}
    (way : layout.OnTheWay (path ++ [name])) (notInput : name ≠ "input".toList)
    (notOutput : name ≠ "output".toList) :
    path ++ [name] <+: Posix.parts layout.DATA_HOME := by
  have last : ∀ {home : List Char}, name ≠ home →
      path ++ [name] <+: Posix.parts layout.DATA_HOME ++ [home] →
        path ++ [name] <+: Posix.parts layout.DATA_HOME := by
    intro home different inside
    rcases List.prefix_concat_iff.mp inside with whole | above
    · have ends := congrArg List.getLast? whole
      simp only [List.getLast?_concat, Option.some.injEq] at ends
      exact absurd ends different
    · exact above
  rcases way with input | output
  · rw [resolve_INPUT_HOME] at input
    exact last notInput input
  · rw [resolve_OUTPUT_HOME] at output
    exact last notOutput output

/-- A root file that is not on the way to a home when it lies in the
directory. -/
def strayRootFile (layout : Layout) (directory : Path) : String :=
  if layout.OnTheWay (directory ++ ["main.tf".toList]) then "outputs.tf"
  else "main.tf"

theorem strayRootFile_cases (directory : Path) :
    layout.strayRootFile directory = "main.tf" ∨
      layout.strayRootFile directory = "outputs.tf" := by
  unfold strayRootFile
  split_ifs
  · exact .inr rfl
  · exact .inl rfl

theorem strayRootFile_notOnTheWay (directory : Path) :
    ¬ layout.OnTheWay
      (directory ++ [(layout.strayRootFile directory).toList]) := by
  unfold strayRootFile
  split_ifs with main
  · intro outputs
    have first := main.above (by decide) (by decide)
    have second := outputs.above (by decide) (by decide)
    have same := List.IsPrefix.eq_of_length
      (List.prefix_of_prefix_length_le first second (by simp)) (by simp)
    have names := List.append_cancel_left same
    revert names
    decide
  · exact main

theorem strayRootFile_notInside {directory : Path}
    (outside : ¬ layout.Inside directory) :
    ¬ layout.Inside
      (directory ++ [(layout.strayRootFile directory).toList]) := by
  have stray := layout.strayRootFile_notOnTheWay directory
  rintro (input | output)
  · rcases List.prefix_concat_iff.mp input with whole | above
    · exact stray (.inl (whole ▸ List.prefix_rfl))
    · exact outside (.inl above)
  · rcases List.prefix_concat_iff.mp output with whole | above
    · exact stray (.inr (whole ▸ List.prefix_rfl))
    · exact outside (.inr above)

end Layout

namespace Posix

theorem length_le_of_mem_parts {text : String} {part : List Char}
    (member : part ∈ parts text) : part.length ≤ text.toList.length := by
  have between := infix_of_mem_splitOn (List.mem_filter.mp member).1
  have bound := between.length_le
  simp only [List.length_cons, List.length_append, List.length_nil] at bound
  omega

/-- What a walk passes through it was told to enter. -/
theorem mem_foldl_enter {components : List (List Char)} {here : Path}
    {name : List Char} (member : name ∈ components.foldl enter here) :
    name ∈ here ∨ name ∈ components := by
  induction components generalizing here with
  | nil => exact .inl member
  | cons component components induction =>
      rcases induction member with above | later
      · unfold enter at above
        split_ifs at above
        · exact .inl above
        · exact .inl (List.dropLast_subset here above)
        · rcases List.mem_append.mp above with old | new
          · exact .inl old
          · rw [List.mem_singleton.mp new]
            exact .inr List.mem_cons_self
      · exact .inr (List.mem_cons_of_mem component later)

end Posix

/-- A computation that only adds to the log. -/
abbrev Grows {α : Type} (action : Act α) : Prop :=
  Relates (fun before after : Machine => before.writes <+: after.writes) action

/-- Bounds that allow everything. -/
def Bounds.free : Bounds :=
  { allowed := fun _ => True
    standing := fun _ => False
    files := fun _ => False }

theorem Bounds.stays_free {final : Path → Prop} (here : Path)
    (parts : List (List Char)) (holds : ∀ path, final path) :
    Bounds.free.Stays final here parts :=
  (Bounds.stays_onWay fun _ _ => .inl trivial).mono fun path _ => holds path

/-- Where no NUL and no file stops the walk, it arrives. -/
theorem Bounds.Stays.arrives {bounds : Bounds} {final : Path → Prop}
    {here : Path} {parts : List (List Char)}
    (stays : bounds.Stays final here parts)
    (noNul : ∀ part ∈ parts, Disk.hasNul part = false)
    (free : ∀ way ∈ parts.inits,
      ¬ bounds.files (way.foldl Posix.enter here)) :
    final (parts.foldl Posix.enter here) := by
  induction stays with
  | arrived holds => exact holds
  | nul refused =>
      rw [noNul _ List.mem_cons_self] at refused
      exact nomatch refused
  | @file here part parts there => exact absurd there (free [part] (by simp))
  | @made here part parts touched rest induction =>
      apply induction
      · exact fun other member =>
          noNul other (List.mem_cons_of_mem part member)
      · intro way inside
        apply free (part :: way)
        rw [List.mem_inits] at inside ⊢
        exact List.cons_prefix_cons.mpr ⟨rfl, inside⟩

theorem grows_of_confined {α : Type} {action : Act α} {after : Prop}
    (confined : ∀ start, Confined Bounds.free start action after) :
    Grows action := by
  intro machine
  have within : Within Bounds.free machine.writes machine :=
    ⟨⟨[], by simp, by simp⟩, fun _ => False.elim, fun _ => False.elim⟩
  obtain ⟨added, whole, _⟩ := (confined machine.writes).final
    (fun _ _ outcome => outcome.1.log) (fun _ logged => logged) within
  exact ⟨added, whole.symm⟩

theorem grows_bind {α β : Type} {action : Act α} {next : α → Act β}
    (first : Grows action) (later : ∀ value, Grows (next value)) :
    Grows (action >>= next) :=
  Relates.bind (fun left right => left.trans right) first later

namespace Layout

variable (layout : Layout)

/-- Something was written outside the homes. -/
def Escaped (machine : Machine) : Prop :=
  ∃ write ∈ machine.writes, ¬ layout.Inside write.path

variable {layout}

theorem Escaped.of_grows {α : Type} {action : Act α} {machine : Machine}
    (escaped : layout.Escaped machine) (grows : Grows action) :
    layout.Escaped (final (action machine)) := by
  obtain ⟨write, member, outside⟩ := escaped
  exact ⟨write, (grows machine).subset member, outside⟩

/-- A sequence has escaped when its first part has. -/
theorem escaped_bind {α β : Type} {action : Act α} {next : α → Act β}
    {machine : Machine} (escaped : layout.Escaped (final (action machine)))
    (grows : ∀ value, Grows (next value)) :
    layout.Escaped (final ((action >>= next) machine)) := by
  cases ran : action machine with
  | ok value middle =>
      rw [ran] at escaped
      rw [bind_run_ok ran]
      exact escaped.of_grows (grows value)
  | error raised middle =>
      rw [ran] at escaped
      rwa [bind_run_error ran]

end Layout

namespace Disk

variable {layout : Layout} {plan : Plan} {home : Option Home}
  {known : Path → Prop} {held : Path → Bytes → Prop}

theorem grows_mkdirsFrom (here : Path) (parts : List (List Char)) :
    Grows (mkdirsFrom here parts) :=
  grows_of_confined fun _ => confined_mkdirsFrom
    (Bounds.stays_free here parts fun _ => trivial)

/-- The directories of a plan for the homes and the files a walk meets. -/
structure Surrounds (layout : Layout) (plan : Plan) (parts : List (List Char))
    (here : Path) : Prop where
  dir : ∀ path, layout.OnTheWay path ∨ layout.Inside path →
    ¬ plan.file path → plan.dir path
  dirs : ∀ path, plan.dir path → layout.OnTheWay path ∨ layout.Inside path
  files : ∀ way, way <+: parts → way ≠ [] →
    plan.file (way.foldl Posix.enter here) →
      way.foldl Posix.enter here ∈ layout.documents

/-- A walk that does not stay makes a directory outside, or ends outside. -/
theorem mkdirsFrom_leaves {here : Path} {parts : List (List Char)}
    {machine : Machine} (kept : Kept plan home known held machine)
    (surrounds : Surrounds layout plan parts here)
    (there : machine.inode? here = some .dir)
    (leaves : ¬ Bounds.Stays
      { allowed := fun write => layout.Inside write.path
        standing := layout.OnTheWay
        files := fun path => path ∈ layout.documents }
      layout.Inside here parts) :
    layout.Escaped (final (mkdirsFrom here parts machine)) ∨
      ∃ after, mkdirsFrom here parts machine = .ok () after ∧
        Kept plan home known held after ∧
        after.inode? (parts.foldl Posix.enter here) = some .dir ∧
        ¬ layout.Inside (parts.foldl Posix.enter here) ∧
        ∀ part ∈ parts, hasNul part = false := by
  induction parts generalizing here machine with
  | nil =>
      right
      refine ⟨machine, rfl, kept, there, ?_, by simp⟩
      exact fun inside => leaves (.arrived inside)
  | cons part parts induction =>
      have plain : hasNul part = false := by
        rw [Bool.eq_false_iff]
        exact fun nul => leaves (.nul nul)
      have notDocument : Posix.enter here part ∉ layout.documents :=
        fun member => leaves (.file member)
      have notFile : ¬ plan.file (Posix.enter here part) := fun isFile =>
        notDocument (surrounds.files [part] (by simp) (by simp) isFile)
      unfold mkdirsFrom
      rw [plain, if_neg Bool.false_ne_true]
      by_cases touched : layout.Inside (Posix.enter here part) ∨
          layout.OnTheWay (Posix.enter here part)
      · have planned := surrounds.dir _ touched.symm notFile
        obtain ⟨_, middle, made, reached⟩ :=
          runs_mkdir parts.isEmpty planned machine kept
        rw [bind_run_ok made]
        have deeper : Surrounds layout plan parts (Posix.enter here part) :=
          { dir := surrounds.dir
            dirs := surrounds.dirs
            files := fun way inside nonempty =>
              surrounds.files (part :: way)
                (List.cons_prefix_cons.mpr ⟨rfl, inside⟩) (by simp) }
        have further := induction (reached.mono (fun _ member => .inl member)
          fun _ _ member => member) deeper (reached.known _ (.inr rfl))
          fun stays => leaves (.made touched stays)
        rcases further with escaped | ⟨after, ran, later, ends, outside, noNul⟩
        · exact .inl escaped
        · right
          refine ⟨after, ran, later, ends, outside, ?_⟩
          intro other member
          rcases List.mem_cons.mp member with rfl | among
          · exact plain
          · exact noNul other among
      · left
        have absent : machine.inode? (Posix.enter here part) = none :=
          kept.absent (fun planned =>
            touched (surrounds.dirs _ planned).symm) notFile
        have made : mkdir (Posix.enter here part) parts.isEmpty machine =
            .ok () { machine with
              disk := Function.update machine.disk (Posix.enter here part)
                (some .dir)
              writes := machine.writes ++
                [⟨Posix.enter here part, none⟩] } := by
          unfold mkdir
          rw [bind_run_ok (get_run machine), absent]
          rfl
        rw [bind_run_ok made]
        apply Layout.Escaped.of_grows _ (grows_mkdirsFrom _ parts)
        refine ⟨⟨Posix.enter here part, none⟩, by simp, ?_⟩
        exact fun inside => touched (.inl inside)

end Disk

namespace Packaging

variable {layout : Layout} {plan : Plan} {home : Option Home}
  {known : Path → Prop} {held : Path → Bytes → Prop} {machine : Machine}

theorem grows_copyRootFiles (source_dir structure_home : String)
    {names : List String}
    (plain : ∀ name ∈ names, AddressStore.PlainName name) :
    Grows (copyRootFiles source_dir structure_home names) :=
  grows_of_confined fun _ =>
    confined_copyRootFiles (fun _ _ => trivial) plain

/-- Where the fetched tree has one root file, the files are taken from its
directory. -/
theorem rootSource_one {fetched_root_dir name : String}
    (root : name ∈ structureRootFiles)
    (here : Disk.isFile machine (Posix.join fetched_root_dir name) = true)
    (notNested : Disk.isFile machine (Posix.join
      (Posix.join fetched_root_dir structureRootDirname) name) = false) :
    rootSource machine fetched_root_dir = some fetched_root_dir := by
  have any : structureRootFiles.any (fun other =>
      Disk.isFile machine (Posix.join fetched_root_dir other)) = true :=
    List.any_eq_true.mpr ⟨name, root, here⟩
  have notAll : structureRootFiles.all (fun other => Disk.isFile machine
      (Posix.join (Posix.join fetched_root_dir structureRootDirname) other)) =
        false := by
    rw [List.all_eq_false]
    exact ⟨name, root, by simp [notNested]⟩
  unfold rootSource rootCandidates
  dsimp only
  split_ifs
  · cases whole : structureRootFiles.all (fun other =>
        Disk.isFile machine (Posix.join fetched_root_dir other)) with
    | true => simp [List.find?, whole]
    | false => simp [List.find?, whole, notAll, any]
  · cases whole : structureRootFiles.all (fun other =>
        Disk.isFile machine (Posix.join fetched_root_dir other)) with
    | true => simp [List.find?, whole]
    | false => simp [List.find?, whole, any]

/-- One root file is copied out of the homes. -/
theorem copyRootFiles_escapes {source_dir structure_home name : String}
    {names : List String} (among : name ∈ names)
    (plain : ∀ other ∈ names, AddressStore.PlainName other)
    (others : ∀ other ∈ names, other ≠ name →
      Disk.isFile machine (Posix.join source_dir other) = false)
    (escapes : layout.Escaped (final (copy2 (Posix.join source_dir name)
      (Posix.join structure_home name) machine)))
    (here : Disk.isFile machine (Posix.join source_dir name) = true) :
    layout.Escaped (final
      (copyRootFiles source_dir structure_home names machine)) := by
  induction names with
  | nil => simp at among
  | cons first names induction =>
      have later : ∀ other ∈ names, AddressStore.PlainName other :=
        fun other member => plain other (List.mem_cons_of_mem first member)
      unfold copyRootFiles
      rw [bind_run_ok (get_run machine)]
      by_cases same : first = name
      · rw [same, if_pos here]
        exact Layout.escaped_bind escapes fun _ =>
          grows_copyRootFiles source_dir structure_home later
      · rw [others first List.mem_cons_self same, if_neg Bool.false_ne_true]
        apply induction ((List.mem_cons.mp among).resolve_left (Ne.symm same))
          later
        exact fun other member =>
          others other (List.mem_cons_of_mem first member)

/-- A copy into a directory outside the homes writes there. -/
theorem copy2_escapes {source target : String} {data : Bytes}
    (noNulSource : Disk.hasNul source.toList = false)
    (noNulTarget : Disk.hasNul target.toList = false)
    (there : machine.inode? (Posix.resolve source) = some (.file data))
    (inside : layout.Inside (Posix.resolve source))
    (outside : ¬ layout.Inside (Posix.resolve target))
    (notDir : machine.inode? (Posix.resolve target) ≠ some .dir)
    (parent : machine.inode? (Posix.resolve target).dropLast = some .dir) :
    layout.Escaped (final (copy2 source target machine)) := by
  have place : copyTarget machine source target = target := by
    unfold copyTarget Disk.isDir
    simp [notDir]
  have read : Disk.readFile source machine = .ok data machine := by
    unfold Disk.readFile Disk.checkNul
    rw [noNulSource, if_neg Bool.false_ne_true, pure_bind,
      bind_run_ok (get_run machine), there]
    rfl
  have different : Posix.resolve source ≠ Posix.resolve target :=
    fun same => outside (same ▸ inside)
  unfold copy2
  rw [bind_run_ok (get_run machine), bind_run_ok read, place,
    if_neg different]
  unfold Disk.writeFile Disk.checkNul Disk.writeAt
  rw [noNulTarget, if_neg Bool.false_ne_true, pure_bind,
    bind_run_ok (get_run machine), if_neg notDir, if_pos parent]
  exact ⟨⟨Posix.resolve target, some data⟩,
    List.mem_append_right _ List.mem_cons_self, outside⟩

end Packaging

namespace ContentMesh

section Offering

variable (layout : Layout) (text : String)

/-- The Structure home the name leads to. -/
def namedHome : String := Posix.join layout.INPUT_HOME text

/-- A temporary directory in the input home that no part of the name is. -/
def longTemporary : TemporaryName where
  directory := layout.INPUT_HOME
  suffix := String.ofList
    (List.replicate (namedHome layout text).toList.length 'a')
  settled := layout.settled_INPUT_HOME
  noSlash := by simp

/-- The name of the one root file. -/
def strayFile : String :=
  layout.strayRootFile (Posix.resolve (namedHome layout text))

def strayOffer : Offer :=
  { structure_filepath := text
    root := [strayFile layout text]
    plant := [] }

/-- A Node with its homes and nothing else. -/
def homesMachine : Machine :=
  { home := some bareHome
    disk := fun path => if layout.OnTheWay path then some .dir else none
    writes := []
    gets := 0 }

/-- The directory the root tree is fetched to. -/
def fetchDir : String :=
  Posix.join (longTemporary layout text).path Packaging.structureRootDirname

def fetchedFile : Path :=
  Posix.resolve (fetchDir layout text) ++ [(strayFile layout text).toList]

/-- The homes and the documents of a call. -/
def homesPlan : Plan where
  dir := layout.OnTheWay
  file path := path ∈ layout.documents
  apart path way member := by
    have short := way.length_le
    have long := Layout.length_documents member
    omega

/-- What may be where once the temporary directory is made. -/
def callPlan : Plan where
  dir path := (layout.OnTheWay path ∨ layout.Inside path) ∧
    ¬ (path ∈ layout.documents ∨ path = fetchedFile layout text)
  file path := path ∈ layout.documents ∨ path = fetchedFile layout text
  apart _ directory file := directory.2 file

variable {layout text}

theorem resolve_temporary : Posix.resolve (longTemporary layout text).path =
    Posix.resolve layout.INPUT_HOME ++
      [(longTemporary layout text).name.toList] :=
  (longTemporary layout text).resolve_path

theorem resolve_fetchDir : Posix.resolve (fetchDir layout text) =
    Posix.resolve layout.INPUT_HOME ++
      [(longTemporary layout text).name.toList,
        Packaging.structureRootDirname.toList] := by
  rw [fetchDir, Packaging.plainName_structureRootDirname.resolve_join,
    resolve_temporary, List.append_assoc]
  rfl

theorem strayFile_mem : strayFile layout text ∈ Packaging.structureRootFiles := by
  rcases layout.strayRootFile_cases
    (Posix.resolve (namedHome layout text)) with main | outputs
  · rw [strayFile, main]
    decide
  · rw [strayFile, outputs]
    decide

theorem plainName_strayFile : AddressStore.PlainName (strayFile layout text) :=
  Packaging.plainName_structureRootFiles _ strayFile_mem

theorem ready_homesMachine :
    Ready layout (longTemporary layout text) (homesMachine layout) := by
  have stands : ∀ path, layout.OnTheWay path →
      (homesMachine layout).inode? path = some .dir := by
    intro path way
    simp [Machine.inode?, homesMachine, way]
  constructor
  · exact fun path inside => stands path (.inl inside)
  · exact fun path inside => stands path (.inr inside)
  · exact fun path inside => stands path (.inl inside)

theorem kept_homesMachine : Kept (homesPlan layout) (some bareHome)
    layout.OnTheWay (fun _ _ => False) (homesMachine layout) := by
  constructor
  · rfl
  · intro path found
    by_cases root : path = []
    · exact .inl (root ▸ List.nil_prefix)
    · simp only [Machine.inode?, root, if_false, homesMachine] at found
      split_ifs at found with way
      exact way
  · intro path data found
    by_cases root : path = []
    · simp [Machine.inode?, root] at found
    · simp only [Machine.inode?, root, if_false, homesMachine] at found
      split_ifs at found
      cases found
  · intro path way
    simp [Machine.inode?, homesMachine, way]
  · exact fun _ _ => False.elim

theorem roomy_homesPlan : Roomy (homesPlan layout) layout := by
  have reaches : ∀ {home : String}, Posix.Settled home →
      (∀ path, path <+: Posix.resolve home → layout.OnTheWay path) →
        AddressStore.Reaches (homesPlan layout) home := by
    intro home settled near
    refine ⟨settled.noNul, fun way inside _ => near _ ?_⟩
    rw [Posix.foldl_enter_below (fun part member =>
      Posix.leads_of_mem_parts (inside.subset member))
      (fun member => settled.climbs (inside.subset member)), settled.resolve]
    exact inside
  constructor
  · exact reaches layout.settled_INPUT_HOME fun _ inside => .inl inside
  · exact reaches layout.settled_OUTPUT_HOME fun _ inside => .inr inside
  · exact fun _ member => member

theorem resolve_fetchedFile : fetchedFile layout text =
    Posix.resolve layout.INPUT_HOME ++
      [(longTemporary layout text).name.toList,
        Packaging.structureRootDirname.toList,
        (strayFile layout text).toList] := by
  rw [fetchedFile, resolve_fetchDir, List.append_assoc]
  rfl

theorem inside_fetchedFile : layout.Inside (fetchedFile layout text) := by
  rw [resolve_fetchedFile]
  exact .inl (List.prefix_append _ _)

/-- No walk to the Structure home meets the fetched file. -/
theorem surrounds_callPlan : Disk.Surrounds layout (callPlan layout text)
    (Posix.parts (namedHome layout text)) [] := by
  constructor
  · exact fun path near free => ⟨near, free⟩
  · exact fun path planned => planned.1
  · intro way inside _ file
    refine file.resolve_right fun same => ?_
    have member : (longTemporary layout text).name.toList ∈
        way.foldl Posix.enter [] := by
      rw [same, resolve_fetchedFile]
      simp
    have entered := (Posix.mem_foldl_enter member).resolve_left (by simp)
    have short := Posix.length_le_of_mem_parts (inside.subset entered)
    have long : (longTemporary layout text).name.toList.length =
        16 + (namedHome layout text).toList.length := by
      rw [TemporaryName.name, String.toList_append, List.length_append]
      simp [longTemporary]
    omega

theorem longTemporary_notDocument :
    Posix.resolve (longTemporary layout text).path ∉ layout.documents := by
  intro member
  have last : ∀ {home : Path} {name : List Char},
      Posix.resolve (longTemporary layout text).path = home ++ [name] →
        name.length = 16 + (namedHome layout text).toList.length := by
    intro home name same
    rw [resolve_temporary] at same
    have ends := congrArg List.getLast? same
    simp only [List.getLast?_concat, Option.some.injEq] at ends
    rw [← ends, TemporaryName.name, String.toList_append,
      List.length_append]
    simp [longTemporary]
  simp only [Layout.documents, Layout.documentPath, List.mem_cons,
    List.not_mem_nil, or_false] at member
  rcases member with same | same | same
  · have long := last same
    simp at long
    omega
  · have long := last same
    simp at long
    omega
  · have long := last same
    simp at long
    omega

theorem ne_fetchedFile {path : Path} (short : path.length ≤
    (Posix.parts layout.DATA_HOME).length + 3) :
    path ≠ fetchedFile layout text := by
  intro same
  rw [same, resolve_fetchedFile, Layout.resolve_INPUT_HOME] at short
  simp at short

/-- The way to the fetched tree is planned. -/
theorem callPlan_dir {path : Path}
    (way : path <+: Posix.resolve (fetchDir layout text)) :
    (callPlan layout text).dir path := by
  have place := @resolve_fetchDir layout text
  have long := way.length_le
  rw [place, Layout.resolve_INPUT_HOME] at long
  simp only [List.length_append, List.length_cons, List.length_nil] at long
  refine ⟨?_, ?_⟩
  · by_cases above : path <+: Posix.resolve layout.INPUT_HOME
    · exact .inl (.inl above)
    · rw [place] at way
      refine .inr (.inl ?_)
      rcases List.prefix_or_prefix_of_prefix way (List.prefix_append _ _) with
        up | down
      · exact absurd up above
      · exact down
  · rintro (member | same)
    · have exact_length := Layout.length_documents member
      have whole : path = Posix.resolve (longTemporary layout text).path := by
        rw [resolve_temporary]
        rw [place, List.append_cons] at way
        apply List.IsPrefix.eq_of_length
          (List.prefix_of_prefix_length_le way (List.prefix_append _ _) ?_)
        · simp [exact_length, Layout.resolve_INPUT_HOME]
        · simp [exact_length, Layout.resolve_INPUT_HOME]
      exact longTemporary_notDocument (whole ▸ member)
    · exact ne_fetchedFile (by omega) same

/-- The temporary directory is made. -/
theorem completes_longTemporary : Completes
    (Kept (homesPlan layout) (some bareHome) layout.OnTheWay
      fun _ _ => False)
    (Disk.mkdtemp (longTemporary layout text).path)
    (fun _ => Kept (callPlan layout text) (some bareHome)
      (fun _ => False) fun _ _ => False) := by
  have length : (Posix.resolve (longTemporary layout text).path).length =
      (Posix.parts layout.DATA_HOME).length + 2 := by
    simp [resolve_temporary, Layout.resolve_INPUT_HOME]
  have wider : ∀ path, layout.OnTheWay path →
      (callPlan layout text).dir path := by
    intro path way
    have short := way.length_le
    refine ⟨.inl way, ?_⟩
    rintro (member | same)
    · exact (homesPlan layout).apart path way member
    · exact ne_fetchedFile (by omega) same
  have planned : (callPlan layout text).dir
      (Posix.resolve (longTemporary layout text).path) := by
    apply callPlan_dir
    rw [fetchDir, Packaging.plainName_structureRootDirname.resolve_join]
    exact List.prefix_append _ _
  have fresh : ¬ layout.OnTheWay
      (Posix.resolve (longTemporary layout text).path) := by
    intro way
    have short := way.length_le
    omega
  have parent : layout.OnTheWay
      (Posix.resolve (longTemporary layout text).path).dropLast := by
    rw [resolve_temporary, List.dropLast_concat]
    exact .inl List.prefix_rfl
  have made : Completes (Kept (homesPlan layout) (some bareHome)
      layout.OnTheWay fun _ _ => False)
      (Disk.mkdtemp (longTemporary layout text).path) _ :=
    Disk.completes_mkdtemp wider (fun _ member => .inl member) planned fresh
      longTemporary_notDocument parent
  exact made.conseq (fun _ kept => kept) fun _ _ kept =>
    kept.mono (fun _ impossible => impossible.elim)
      fun _ _ impossible => impossible

theorem parts_fetchDir : Posix.parts (fetchDir layout text) =
    Posix.parts layout.INPUT_HOME ++
      [(longTemporary layout text).name.toList,
        Packaging.structureRootDirname.toList] := by
  rw [fetchDir, Packaging.plainName_structureRootDirname.parts_join,
    TemporaryName.path, (longTemporary layout text).plain_name.parts_join,
    List.append_assoc]
  rfl

theorem reaches_fetchDir : AddressStore.Reaches (callPlan layout text)
    (fetchDir layout text) := by
  have noNul : ∀ part ∈ [(longTemporary layout text).name.toList,
      Packaging.structureRootDirname.toList], Disk.hasNul part = false := by
    simp [Disk.hasNul, TemporaryName.name, longTemporary,
      Packaging.structureRootDirname]
  have climbs : ['.', '.'] ∉ Posix.parts (fetchDir layout text) := by
    rw [parts_fetchDir, List.mem_append, not_or]
    refine ⟨layout.settled_INPUT_HOME.climbs, ?_⟩
    simp [TemporaryName.name, Packaging.structureRootDirname]
  constructor
  · rw [parts_fetchDir]
    intro part member
    rcases List.mem_append.mp member with above | last
    · exact layout.settled_INPUT_HOME.noNul part above
    · exact noNul part last
  · intro way inside _
    rw [Posix.foldl_enter_below (fun part member =>
      Posix.leads_of_mem_parts (inside.subset member))
      (fun member => climbs (inside.subset member))]
    apply callPlan_dir
    rw [Posix.resolve_eq_foldl, Posix.foldl_enter_below
      (fun part member => Posix.leads_of_mem_parts member) climbs,
      List.nil_append, List.nil_append]
    exact inside

open AddressStore in
/-- The one root file is fetched to the temporary directory. -/
theorem runs_fetchRoot : Runs (callPlan layout text) (some bareHome)
    (fun _ => False) (fun _ _ => False)
    (ContentMesh.get (strayOffer layout text).net rootUri
      Packaging.structureRootDirname (longTemporary layout text).path)
    (fun _ => Kept (callPlan layout text) (some bareHome) (fun _ => False)
      fun path bytes => path = fetchedFile layout text ∧ bytes = []) := by
  have plain := @plainName_strayFile layout text
  have nonempty : fetchDir layout text ≠ "" := by
    intro empty
    have place := @resolve_fetchDir layout text
    rw [empty] at place
    have length := congrArg List.length place
    simp [Posix.resolve] at length
  have listed : readManifest? (mintedBytes (Offer.listing
      (strayOffer layout text).root)) =
        some (((strayOffer layout text).root.map Offer.file).map
          ServedFile.entry) := by
    rw [readManifest?_mintedBytes]
    · simp [Offer.listing, manifestEntries?, manifestDocument]
    · simp [Offer.listing, manifestDocument, Json.wellFormed,
        Json.wellFormedFields, strayOffer, Offer.file, ServedFile.entry]
  have safe : safePath? (strayFile layout text) =
      some (strayFile layout text) := by
    rcases layout.strayRootFile_cases
      (Posix.resolve (namedHome layout text)) with main | outputs
    · rw [strayFile, main]
      decide
    · rw [strayFile, outputs]
      decide
  have noNul : Disk.hasNul (strayFile layout text).toList = false := by
    rcases layout.strayRootFile_cases
      (Posix.resolve (namedHome layout text)) with main | outputs
    · rw [strayFile, main]
      decide
    · rw [strayFile, outputs]
      decide
  have named : (Offer.file (strayFile layout text)).name =
      strayFile layout text := by
    unfold Offer.file
    rfl
  have here : (callPlan layout text).file
      (Posix.resolve (fetchDir layout text) ++
        [(Offer.file (strayFile layout text)).name.toList]) := by
    rw [named, ← fetchedFile]
    exact .inr rfl
  have accepted : ∀ file ∈ (strayOffer layout text).root.map Offer.file,
      TreeAccepted (strayOffer layout text).net (callPlan layout text)
        (fun _ _ => False) (fetchDir layout text) file := by
    intro file member
    simp only [strayOffer, List.map_cons, List.map_nil,
      List.mem_singleton] at member
    rw [member]
    constructor
    · exact (strayOffer layout text).served_text
    · rw [named]
      exact safe
    · rw [named]
      exact plain
    · rw [named]
      exact noNul
    · exact here
    · exact fun _ impossible => impossible
  have fetched : Runs (callPlan layout text) (some bareHome)
      (fun _ => False) (fun _ _ => False)
      (AddressStore.get (strayOffer layout text).net rootUri
        (fetchDir layout text) none) _ :=
    runs_get_tree (strayOffer layout text).served_root listed nonempty
      reaches_fetchDir accepted (by simp [strayOffer, Offer.file])
  unfold ContentMesh.get
  apply Completes.bind fetched
  intro _
  apply Completes.pure
  intro machine kept
  apply kept.mono (fun _ impossible => impossible)
  rintro path bytes ⟨place, content⟩
  right
  refine ⟨Offer.file (strayFile layout text), by simp [strayOffer], ?_, content⟩
  rw [place, named, fetchedFile]

theorem parts_namedHome_noNul {part : List Char}
    (noNul : ∀ other ∈ Posix.parts (namedHome layout text),
      Disk.hasNul other = false) {name : String}
    (plain : AddressStore.PlainName name)
    (here : Disk.hasNul name.toList = false)
    (member : part ∈ Posix.parts (Posix.join (namedHome layout text) name)) :
    Disk.hasNul part = false := by
  rw [plain.parts_join] at member
  rcases List.mem_append.mp member with above | last
  · exact noNul part above
  · rw [List.mem_singleton.mp last]
    exact here

theorem namedHome_ne_empty : namedHome layout text ≠ "" := by
  unfold namedHome Posix.join
  split_ifs with absolute _
  · rintro rfl
    simp [Text.startsWith] at absolute
  · intro empty
    have length := congrArg String.length empty
    simp [Layout.INPUT_HOME] at length
  · intro empty
    have length := congrArg String.length empty
    simp [Layout.INPUT_HOME] at length

/-- Laying out the root files leaves the homes when the name is not
confined. -/
theorem materializeRootFiles_escapes (unconfined : ¬ layout.Confines text)
    {machine : Machine}
    (kept : Kept (callPlan layout text) (some bareHome) (fun _ => False)
      (fun path bytes => path = fetchedFile layout text ∧ bytes = [])
      machine) :
    layout.Escaped (final (Packaging.materialize_structure_root_files
      (fetchDir layout text) (namedHome layout text) machine)) := by
  have grows : ∀ {source : String}, Grows (Packaging.copyRootFiles source
      (namedHome layout text) Packaging.structureRootFiles) :=
    Packaging.grows_copyRootFiles _ _ Packaging.plainName_structureRootFiles
  have walk := Disk.mkdirsFrom_leaves kept surrounds_callPlan rfl unconfined
  unfold Packaging.materialize_structure_root_files Disk.makedirs
  rw [if_neg namedHome_ne_empty]
  rcases walk with escaped | ⟨after, made, keeps, ends, outside, noNul⟩
  · apply Layout.escaped_bind escaped
    intro _
    apply grows_bind (Relates.get fun _ => List.prefix_rfl)
    intro state
    cases Packaging.rootSource state (fetchDir layout text) with
    | none => exact fun _ => List.prefix_rfl
    | some source => exact grows
  · rw [bind_run_ok made, bind_run_ok (get_run after)]
    rw [← Posix.resolve_eq_foldl] at ends outside
    have plain := @plainName_strayFile layout text
    have target := plain.resolve_join (namedHome layout text)
    have source := plain.resolve_join (fetchDir layout text)
    rw [← fetchedFile] at source
    have there : after.inode? (fetchedFile layout text) = some (.file []) :=
      keeps.held _ _ ⟨rfl, rfl⟩
    have noNulName : Disk.hasNul (strayFile layout text).toList = false := by
      have checked : Packaging.structureRootFiles.all (fun name =>
          !Disk.hasNul name.toList) = true := by
        decide
      simpa using List.all_eq_true.mp checked _ strayFile_mem
    have noNulSource : Disk.hasNul (Posix.join (fetchDir layout text)
        (strayFile layout text)).toList = false := by
      apply Disk.hasNul_eq_false
      rw [plain.parts_join]
      intro part member
      rcases List.mem_append.mp member with above | last
      · exact reaches_fetchDir.noNul part above
      · rw [List.mem_singleton.mp last]
        exact noNulName
    have noNulTarget : Disk.hasNul (Posix.join (namedHome layout text)
        (strayFile layout text)).toList = false :=
      Disk.hasNul_eq_false fun _ member =>
        parts_namedHome_noNul noNul plain noNulName member
    have here : Disk.isFile after (Posix.join (fetchDir layout text)
        (strayFile layout text)) = true := by
      unfold Disk.isFile
      rw [noNulSource, source, there]
      rfl
    have nothing : ∀ path, ¬ (callPlan layout text).file (Posix.resolve path) →
        Disk.isFile after path = false := by
      intro path unplanned
      unfold Disk.isFile
      cases found : after.inode? (Posix.resolve path) with
      | none => exact Bool.and_false _
      | some inode =>
          cases inode with
          | dir => exact Bool.and_false _
          | file data => exact absurd (keeps.files _ data found) unplanned
    have deep : ∀ {more : List (List Char)}, more ≠ [] →
        more ≠ [(strayFile layout text).toList] →
        ¬ (callPlan layout text).file
          (Posix.resolve (fetchDir layout text) ++ more) := by
      rintro more nonempty different (member | same)
      · have length := Layout.length_documents member
        have longer := List.length_pos_of_ne_nil nonempty
        rw [resolve_fetchDir, Layout.resolve_INPUT_HOME] at length
        simp only [List.length_append, List.length_cons,
          List.length_nil] at length
        omega
      · rw [fetchedFile] at same
        exact different (List.append_cancel_left same)
    have notNested : Disk.isFile after (Posix.join (Posix.join
        (fetchDir layout text) Packaging.structureRootDirname)
          (strayFile layout text)) = false := by
      apply nothing
      rw [plain.resolve_join,
        Packaging.plainName_structureRootDirname.resolve_join,
        List.append_assoc]
      exact deep (by simp) (by simp)
    have others : ∀ other ∈ Packaging.structureRootFiles,
        other ≠ strayFile layout text → Disk.isFile after
          (Posix.join (fetchDir layout text) other) = false := by
      intro other member different
      apply nothing
      rw [(Packaging.plainName_structureRootFiles other member).resolve_join]
      apply deep (by simp)
      intro same
      simp only [List.cons.injEq, and_true] at same
      exact different (String.toList_injective same)
    have stray := layout.strayRootFile_notInside outside
    rw [← strayFile, ← target] at stray
    have notDir : after.inode? (Posix.resolve (Posix.join
        (namedHome layout text) (strayFile layout text))) ≠ some .dir := by
      intro directory
      rcases (keeps.dirs _ directory).1 with way | inside
      · rw [target] at way
        exact layout.strayRootFile_notOnTheWay _ way
      · exact stray inside
    have parent : after.inode? (Posix.resolve (Posix.join
        (namedHome layout text) (strayFile layout text))).dropLast =
          some .dir := by
      rw [target, List.dropLast_concat]
      exact ends
    rw [Packaging.rootSource_one strayFile_mem here notNested]
    apply Packaging.copyRootFiles_escapes strayFile_mem
      Packaging.plainName_structureRootFiles others _ here
    rw [← source] at there
    have inside := @inside_fetchedFile layout text
    rw [← source] at inside
    exact Packaging.copy2_escapes noNulSource noNulTarget there inside stray
      notDir parent

theorem grows_get (net : Network) {content_id place name : String}
    (plain : AddressStore.PlainName name) :
    Grows (AddressStore.get net content_id (Posix.join place name) none) :=
  grows_of_confined fun _ => AddressStore.confined_get net plain
    (Bounds.stays_free [] _ fun _ _ _ => trivial) content_id none

theorem grows_materializeFunction (net : Network) (order : Json)
    (INPUT_HOME : String) : Grows (materializeFunction net order INPUT_HOME) := by
  apply grows_of_confined
  intro start
  apply confined_materializeFunction net (fun _ _ => trivial)
  rw [Posix.resolve_eq_foldl]
  exact Bounds.stays_onWay fun _ _ => .inl trivial

theorem grows_rmtree (path : String) : Grows (Disk.rmtree path) :=
  fun _ => List.prefix_rfl

/-- Laying out the Structure leaves the homes when the name is not
confined. -/
theorem materializeStructure_escapes (unconfined : ¬ layout.Confines text)
    {machine : Machine}
    (kept : Kept (homesPlan layout) (some bareHome) layout.OnTheWay
      (fun _ _ => False) machine) :
    layout.Escaped (final (materializeStructure (strayOffer layout text).net
      ⟨.str text, rootUri, plantUri, emptyUri⟩ layout.INPUT_HOME
      (longTemporary layout text).path machine)) := by
  have found : (Act.lift (Json.pathText (.str text)) : Act String) =
      pure text := rfl
  obtain ⟨_, made, ready, keeps⟩ := completes_longTemporary machine kept
  obtain ⟨_, fetched, got, holds⟩ := runs_fetchRoot made keeps
  have root : layout.Escaped (final (materializeRoot
      (strayOffer layout text).net rootUri
      (Posix.join layout.INPUT_HOME text) (longTemporary layout text).path
      made)) := by
    unfold materializeRoot
    rw [bind_run_ok got]
    exact materializeRootFiles_escapes unconfined holds
  have guarded : layout.Escaped (final (withTemporaryDirectory
      (longTemporary layout text).path (materializeRoot
        (strayOffer layout text).net rootUri
        (Posix.join layout.INPUT_HOME text) (longTemporary layout text).path)
      machine)) := by
    unfold withTemporaryDirectory
    rw [bind_run_ok ready]
    refine Layout.escaped_bind ?_ fun _ => grows_rmtree _
    cases ran : materializeRoot (strayOffer layout text).net rootUri
        (Posix.join layout.INPUT_HOME text) (longTemporary layout text).path
        made with
    | ok value after =>
        rw [tryCatch_run_ok ran]
        rw [ran] at root
        exact root
    | error raised after =>
        rw [tryCatch_run_error ran]
        rw [ran] at root
        apply root.of_grows
        exact grows_bind (grows_rmtree _) fun _ _ => List.prefix_rfl
  have tree : ∀ {name content_id : String}, AddressStore.PlainName name →
      Grows (ContentMesh.get (strayOffer layout text).net content_id
        (Posix.join text name) layout.INPUT_HOME) := by
    intro name content_id plain
    unfold ContentMesh.get
    rw [Posix.join_join layout.INPUT_HOME text plain.noSlash]
    exact grows_bind (grows_get _ plain) fun _ _ => List.prefix_rfl
  unfold materializeStructure
  rw [found, pure_bind]
  apply Layout.escaped_bind guarded
  intro _
  apply grows_bind (tree plainName_plant)
  intro _
  apply grows_bind (tree plainName_infrastructure)
  exact fun _ _ => List.prefix_rfl

/-- The stray offer is written outside the homes. -/
theorem getEnhancedBom_escapes (unconfined : ¬ layout.Confines text) :
    layout.Escaped (final (getEnhancedBom (strayOffer layout text).net bomUri
      layout.INPUT_HOME layout.OUTPUT_HOME (longTemporary layout text).path
      (homesMachine layout))) := by
  obtain ⟨documents, middle, fetched, order, kept⟩ :=
    (strayOffer layout text).runs_fetchDocuments roomy_homesPlan
      (homesMachine layout) kept_homesMachine
  obtain ⟨paired, later, read, pairing, keeps⟩ :=
    (strayOffer layout text).runs_readPairing middle kept
  unfold getEnhancedBom
  rw [bind_run_ok fetched, order, bind_run_ok read, pairing]
  apply Layout.escaped_bind (materializeStructure_escapes unconfined keeps)
  intro _
  apply grows_bind (grows_materializeFunction _ _ _)
  exact fun _ _ => List.prefix_rfl

theorem names_strayOffer : Names (strayOffer layout text).net layout
    (homesMachine layout) bomUri (.str text) := by
  intro documents after ran
  obtain ⟨found, later, fetched, order, _⟩ :=
    (strayOffer layout text).runs_fetchDocuments roomy_homesPlan
      (homesMachine layout) kept_homesMachine
  rw [fetched] at ran
  have same := (EStateM.Result.ok.inj ran).1
  rw [← same, order]
  rfl

end Offering

/-- Whatever an Order with this Structure home cites, a call writes inside the
homes and its own temporary directory; and a tree is written inside its
destination, but for the directories that lead there. -/
structure WritesContained (layout : Layout) (structure_filepath : String) :
    Prop where
  call : ∀ (net : Network) (temporary : TemporaryName) (machine : Machine)
    (bom_json_id : String), Ready layout temporary machine →
    Names net layout machine bom_json_id (.str structure_filepath) →
    Logged (Contained layout temporary) machine.writes
      (final (getEnhancedBom net bom_json_id layout.INPUT_HOME
        layout.OUTPUT_HOME temporary.path machine))
  tree : ∀ (net : Network) (content_id dest_dir : String)
    (machine : Machine), ∃ added,
      (final (AddressStore.materialize_tree net content_id dest_dir
        machine)).writes = machine.writes ++ added ∧
      ∀ write ∈ added, Posix.resolve dest_dir <+: write.path ∨
        write.content = none ∧ ∃ way, way <+: Posix.parts dest_dir ∧
          write.path = way.foldl Posix.enter []

theorem not_writesContained {layout : Layout} {text : String}
    (unconfined : ¬ layout.Confines text) :
    ¬ WritesContained layout text := by
  intro contained
  obtain ⟨added, whole, inside⟩ := contained.call (strayOffer layout text).net
    (longTemporary layout text) (homesMachine layout) bomUri
    ready_homesMachine names_strayOffer
  obtain ⟨write, member, outside⟩ :=
    @getEnhancedBom_escapes layout text unconfined
  rw [whole] at member
  have there : write ∈ added := member
  rcases inside write there with home | temporary
  · exact outside home
  · apply outside
    rw [resolve_temporary] at temporary
    exact .inl ((List.prefix_append _ _).trans temporary)

/-- A Node that lives in `/c`. -/
def shortLayout : Layout :=
  { CATS_HOME := "/c"
    settled := ⟨by decide, by decide⟩ }

theorem not_confines_evil : ¬ shortLayout.Confines "../../../evil" := by
  intro confines
  have arrived := Bounds.Stays.arrives confines (by decide) (by decide)
  revert arrived
  decide

end ContentMesh

end Cats
