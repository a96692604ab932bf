import Cats.Cas.TreeIdentity
import Cats.Posix.Planned

/-!
# Expanding a stored directory

`materialize_tree` takes the reader of blobs as an argument.  Read from the
store that has a directory without backslashes, it lays out the same file map.
-/

namespace Cats

open Effect

namespace CasTree

/-- The loop of `materialize_tree` over the entries. -/
def writeEntries (fetch_bytes : Json → Act Bytes) (dest_dir : String) :
    Fields → Act Unit
  | [] => pure ()
  | (rel, file_id) :: entries =>
      match safePath? rel with
      | none => throw (.valueError s!"unsafe manifest path: {Text.repr rel}")
      | some path => do
          Disk.mkdirParents (Posix.parts (Posix.join dest_dir path)).dropLast
          let data ← fetch_bytes file_id
          Disk.writeFile (Posix.join dest_dir path) data
          writeEntries fetch_bytes dest_dir entries

/-- `materialize_tree(fetch_bytes, content_id, dest_dir)`. -/
def materialize_tree (fetch_bytes : Json → Act Bytes)
    (content_id dest_dir : String) : Act Unit := do
  let raw ← fetch_bytes (.str content_id)
  let entries ← Act.lift (AddressStore.manifestOf content_id raw)
  Disk.mkdirParents (Posix.parts dest_dir)
  writeEntries fetch_bytes dest_dir entries

/-- The Node's own reader is one of them. -/
theorem materialize_tree_cat_bytes (net : Network)
    (content_id dest_dir : String) :
    AddressStore.materialize_tree net content_id dest_dir =
      materialize_tree (AddressStore.fetchEntry net) content_id dest_dir := by
  have entries : ∀ fields, AddressStore.writeEntries net dest_dir fields =
      writeEntries (AddressStore.fetchEntry net) dest_dir fields := by
    intro fields
    induction fields with
    | nil => rfl
    | cons entry fields induction =>
        obtain ⟨rel, file_id⟩ := entry
        rewrite [AddressStore.writeEntries, writeEntries, induction]
        cases safePath? rel with
        | none => rfl
        | some path => rfl
  simp only [AddressStore.materialize_tree, materialize_tree, entries]
  rfl

/-- `fetch(cid)` of `_cas_materialize`, where the store is local. -/
def fetch (store : CasHttpStore) (cid : Json) : Act Bytes :=
  match cid with
  | .str id =>
      match store.get id with
      | .error raised => throw raised
      | .ok none =>
          throw ⟨.fileNotFoundError, s!"CAS content not found: {id}"⟩
      | .ok (some data) => pure data
  | other => throw ⟨.attributeError,
      s!"'{other.typeName}' object has no attribute 'strip'"⟩

theorem fetch_to_ni {store : CasHttpStore} {digest : Digest} {data : Bytes}
    (held : store.blobs digest = some data) :
    fetch store (.str (to_ni digest)) = pure data := by
  unfold fetch
  dsimp only
  rw [CasHttpStore.get_to_ni, held]

end CasTree

/-- A place for a tree: nothing lies below it, and on the way to it there are
directories, or what is missing is the place itself or above it. -/
structure EmptyDir (dest_dir : String) (machine : Machine) : Prop where
  noNul : ∀ part ∈ Posix.parts dest_dir, Disk.hasNul part = false
  way : ∀ way, way <+: Posix.parts dest_dir → way ≠ [] →
    machine.inode? (way.foldl Posix.enter []) = some .dir ∨
      way.foldl Posix.enter [] <+: Posix.resolve dest_dir
  clear : ∀ path data, path <+: Posix.resolve dest_dir →
    machine.inode? path ≠ some (.file data)
  below : ∀ path, path ≠ [] →
    machine.inode? (Posix.resolve dest_dir ++ path) = none

/-- A directory has the files that lie below a place. -/
structure Lists (root : Path) (directory : Directory) (machine : Machine) :
    Prop where
  proper : directory.Proper
  files : ∀ path data, machine.file? (root ++ path) = some data ↔
    (path, data) ∈ directory.fileMap

section Paths

variable {rel : String}

theorem parts_of_names
    (named : ∀ part ∈ components rel, FileName (String.ofList part)) :
    Posix.parts rel = components rel := by
  apply List.filter_eq_self.mpr
  intro part member
  have name := named part member
  have nonempty := name.nonempty
  have notDot := name.notDot
  rw [String.toList_ofList] at nonempty notDot
  simp only [Posix.leads, Bool.and_eq_true, decide_eq_true_eq]
  exact ⟨nonempty, notDot⟩

/-- Components that neither stay nor climb are appended. -/
theorem foldl_enter_leading {path : Path} (base : Path)
    (leading : ∀ part ∈ path, Posix.leads part = true ∧ part ≠ ['.', '.']) :
    path.foldl Posix.enter base = base ++ path := by
  induction path generalizing base with
  | nil => rw [List.foldl_nil, List.append_nil]
  | cons part path induction =>
      obtain ⟨leads, notParent⟩ := leading part List.mem_cons_self
      simp only [Posix.leads, Bool.and_eq_true, decide_eq_true_eq] at leads
      have step : Posix.enter base part = base ++ [part] := by
        rw [Posix.enter, if_neg (not_or.mpr leads), if_neg notParent]
      rw [List.foldl_cons, step, induction _ fun other member =>
        leading other (List.mem_cons_of_mem part member), List.append_assoc]
      rfl

theorem foldl_enter_names {path : Path} (base : Path)
    (named : ∀ part ∈ path, FileName (String.ofList part)) :
    path.foldl Posix.enter base = base ++ path := by
  apply foldl_enter_leading
  intro part member
  have name := named part member
  have nonempty := name.nonempty
  have notDot := name.notDot
  have notParent := name.notParent
  rw [String.toList_ofList] at nonempty notDot notParent
  simp only [Posix.leads, Bool.and_eq_true, decide_eq_true_eq]
  exact ⟨⟨nonempty, notDot⟩, notParent⟩

theorem relative_of_names
    (named : ∀ part ∈ components rel, FileName (String.ofList part)) :
    Text.startsWith rel "/" = false := by
  rw [Bool.eq_false_iff, ne_eq, Text.startsWith_iff]
  intro absolute
  obtain ⟨rest, text⟩ := absolute
  have first : [] ∈ components rel := by
    rw [components, ← text]
    exact List.mem_cons_self
  exact (named [] first).nonempty rfl

theorem parts_join_names (dest_dir : String)
    (named : ∀ part ∈ components rel, FileName (String.ofList part)) :
    Posix.parts (Posix.join dest_dir rel) =
      Posix.parts dest_dir ++ components rel := by
  rw [Posix.parts_join dest_dir (relative_of_names named), parts_of_names named]

theorem resolve_join_names (dest_dir : String)
    (named : ∀ part ∈ components rel, FileName (String.ofList part)) :
    Posix.resolve (Posix.join dest_dir rel) =
      Posix.resolve dest_dir ++ components rel := by
  rw [Posix.resolve_join dest_dir (relative_of_names named),
    Posix.resolveFrom_eq_foldl, parts_of_names named,
    foldl_enter_names _ named]

end Paths

/-- Files under proper names, none below another. -/
structure ProperFiles (files : List (String × Bytes)) : Prop where
  nonempty : ∀ file ∈ files, components file.1 ≠ []
  named : ∀ file ∈ files, ∀ part ∈ components file.1,
    FileName (String.ofList part)
  apart : ∀ left ∈ files, ∀ right ∈ files,
    components left.1 <+: components right.1 → left = right

namespace Directory

theorem properFiles {directory : Directory} (proper : directory.Proper)
    (ignore : String → Bool) : ProperFiles (directory.files ignore) where
  nonempty _ member := (names_of_mem_files proper member).1
  named _ member := (names_of_mem_files proper member).2
  apart left first right second above := by
    have same := eq_of_keptMap_prefix proper
      (List.mem_map.mpr ⟨left, first, rfl⟩)
      (List.mem_map.mpr ⟨right, second, rfl⟩) above
    rw [Prod.mk.injEq] at same
    exact Prod.ext (components_injective same.1) same.2

end Directory

section Lay

variable {files : List (String × Bytes)} {dest_dir : String}
  {machine : Machine}

/-- What may lie where while files are laid out: what was there, the place and
what is above it, and the files and what is above them. -/
def layPlan (proper : ProperFiles files) (empty : EmptyDir dest_dir machine) :
    Plan where
  dir path := machine.inode? path = some .dir ∨
    path <+: Posix.resolve dest_dir ∨
    ∃ file ∈ files, ∃ way, way <+: components file.1 ∧
      way ≠ components file.1 ∧ path = Posix.resolve dest_dir ++ way
  file path := (∃ data, machine.inode? path = some (.file data)) ∨
    ∃ file ∈ files, path = Posix.resolve dest_dir ++ components file.1
  apart path isDir isFile := by
    rcases isFile with old | laid
    · obtain ⟨data, there⟩ := old
      rcases isDir with directory | above | between
      · rw [there] at directory
        cases directory
      · exact empty.clear path data above there
      · obtain ⟨file, _, way, _, _, rfl⟩ := between
        by_cases top : way = []
        · rw [top, List.append_nil] at there
          exact empty.clear _ data (List.prefix_refl _) there
        · rw [empty.below way top] at there
          cases there
    · obtain ⟨file, member, rfl⟩ := laid
      have nonempty := proper.nonempty file member
      rcases isDir with directory | above | between
      · rw [empty.below _ nonempty] at directory
        cases directory
      · have lengths := above.length_le
        rw [List.length_append] at lengths
        have positive := List.length_pos_of_ne_nil nonempty
        omega
      · obtain ⟨other, among, way, inside, notWhole, same⟩ := between
        have whole := List.append_cancel_left same
        rw [← whole] at inside notWhole
        rw [proper.apart file member other among inside] at notWhole
        exact notWhole rfl

/-- At first nothing is laid out. -/
theorem kept_layPlan (proper : ProperFiles files)
    (empty : EmptyDir dest_dir machine) :
    Kept (layPlan proper empty) machine.home (fun _ => False)
      (fun _ _ => False) machine where
  home := rfl
  dirs _ found := .inl found
  files _ data found := .inl ⟨data, found⟩
  known _ nothing := nothing.elim
  held _ _ nothing := nothing.elim

/-- The steps to the place are planned. -/
theorem planned_place (proper : ProperFiles files)
    (empty : EmptyDir dest_dir machine) (way : Path)
    (inside : way <+: Posix.parts dest_dir) (some : way ≠ []) :
    (layPlan proper empty).dir (way.foldl Posix.enter []) := by
  rcases empty.way way inside some with there | above
  · exact .inl there
  · exact .inr (.inl above)

/-- The steps to the directory of a file are planned. -/
theorem planned_parent (proper : ProperFiles files)
    (empty : EmptyDir dest_dir machine) {file : String × Bytes}
    (member : file ∈ files) (way : Path)
    (inside : way <+: Posix.parts dest_dir ++ (components file.1).dropLast)
    (some : way ≠ []) :
    (layPlan proper empty).dir (way.foldl Posix.enter []) := by
  rcases List.prefix_or_prefix_of_prefix inside (List.prefix_append _ _) with
    above | deeper
  · exact planned_place proper empty way above some
  · obtain ⟨rest, rfl⟩ := deeper
    have below := (List.prefix_append_right_inj _).mp inside
    have shorter : rest <+: components file.1 :=
      below.trans (List.dropLast_prefix _)
    have notWhole : rest ≠ components file.1 := by
      intro whole
      have lengths := below.length_le
      rw [whole, List.length_dropLast] at lengths
      have positive := List.length_pos_of_ne_nil (proper.nonempty file member)
      omega
    have names : ∀ part ∈ rest, FileName (String.ofList part) :=
      fun part among => proper.named file member part (shorter.subset among)
    refine .inr (.inr ⟨file, member, rest, shorter, notWhole, ?_⟩)
    rw [List.foldl_append, foldl_enter_names _ names, Posix.resolve_eq_foldl]

theorem noNul_join (proper : ProperFiles files)
    (empty : EmptyDir dest_dir machine) {file : String × Bytes}
    (member : file ∈ files) : ∀ part ∈
      Posix.parts (Posix.join dest_dir file.1), Disk.hasNul part = false := by
  intro part among
  rw [parts_join_names dest_dir (proper.named file member)] at among
  rcases List.mem_append.mp among with above | below
  · exact empty.noNul part above
  · have name := (proper.named file member part below).noNul
    rwa [String.toList_ofList] at name

/-- The files of some entries lie at their places. -/
def laid (files : List (String × Bytes)) (dest_dir : String) (entries : Fields)
    (path : Path) (data : Bytes) : Prop :=
  ∃ file ∈ files, (file.1, Json.str (to_ni (sha256_hex file.2))) ∈ entries ∧
    path = Posix.resolve dest_dir ++ components file.1 ∧ data = file.2

/-- Entries whose blobs the reader has are written one after the other. -/
theorem runs_writeEntries {fetch_bytes : Json → Act Bytes} {home : Option Home}
    {known : Path → Prop} {held : Path → Bytes → Prop} {entries : Fields}
    (proper : ProperFiles files) (plain : PlainPaths files)
    (empty : EmptyDir dest_dir machine)
    (fetches : ∀ file ∈ files,
      fetch_bytes (.str (to_ni (sha256_hex file.2))) = pure file.2)
    (among : ∀ entry ∈ entries, ∃ file ∈ files,
      entry = (file.1, .str (to_ni (sha256_hex file.2))))
    (earlier : ∀ path data, held path data → ∃ file ∈ files,
      path = Posix.resolve dest_dir ++ components file.1 ∧ data = file.2) :
    Runs (layPlan proper empty) home known held
      (CasTree.writeEntries fetch_bytes dest_dir entries)
      (fun _ => Kept (layPlan proper empty) home known
        fun path data => held path data ∨
          laid files dest_dir entries path data) := by
  induction entries generalizing held with
  | nil =>
      apply Completes.pure
      intro state kept
      apply kept.mono (fun _ member => member)
      intro path data member
      rcases member with old | new
      · exact old
      · obtain ⟨file, _, inside, _⟩ := new
        cases inside
  | cons entry entries induction =>
      obtain ⟨file, member, rfl⟩ := among entry List.mem_cons_self
      have names := proper.named file member
      have parts := parts_join_names dest_dir names
      have place := resolve_join_names dest_dir names
      have nonempty := proper.nonempty file member
      have noNul := noNul_join proper empty member
      rw [CasTree.writeEntries, safePath?_plain (plain file member) names]
      dsimp only
      rw [fetches file member, parts,
        List.dropLast_append_of_ne_nil nonempty]
      have noNulParent : ∀ part ∈ Posix.parts dest_dir ++
          (components file.1).dropLast, Disk.hasNul part = false := by
        intro part inside
        apply noNul part
        rw [parts]
        exact List.append_subset.mpr ⟨List.subset_append_left _ _,
          List.subset_append_of_subset_right _ (List.dropLast_subset _)⟩ inside
      apply Completes.bind (Disk.runs_mkdirParents noNulParent
        (planned_parent proper empty member))
      intro _
      rw [pure_bind]
      have parent : (Posix.resolve (Posix.join dest_dir file.1)).dropLast =
          (Posix.parts dest_dir ++ (components file.1).dropLast).foldl
            Posix.enter [] := by
        have shorter : ∀ part ∈ (components file.1).dropLast,
            FileName (String.ofList part) := fun part inside =>
          names part (List.dropLast_subset _ inside)
        rw [place, List.dropLast_append_of_ne_nil nonempty, List.foldl_append,
          foldl_enter_names _ shorter, Posix.resolve_eq_foldl]
      have target : (layPlan proper empty).file
          (Posix.resolve (Posix.join dest_dir file.1)) :=
        Or.inr ⟨file, member, place⟩
      have nonroot : Posix.resolve (Posix.join dest_dir file.1) ≠ [] := by
        rw [place]
        exact List.append_ne_nil_of_right_ne_nil _ nonempty
      have fresh : ∀ old, held (Posix.resolve (Posix.join dest_dir file.1))
          old → old = file.2 := by
        intro old there
        obtain ⟨other, second, same, rfl⟩ := earlier _ old there
        rw [place] at same
        have alike := List.append_cancel_left same
        rw [proper.apart file member other second
          (alike ▸ List.prefix_refl _)]
      apply Completes.bind (Disk.runs_writeFile file.2
        (Disk.hasNul_eq_false noNul) target (.inr parent) nonroot fresh)
      intro _
      apply Completes.conseq (induction
        (fun other later => among other (List.mem_cons_of_mem _ later)) ?_)
      · intro state kept
        exact kept.mono (fun _ there => .inl there) fun _ _ there => there
      · intro _ state kept
        apply kept.mono (fun _ there => there)
        intro path data there
        rcases there with old | new
        · exact .inl (.inl old)
        · obtain ⟨other, second, inside, rfl, rfl⟩ := new
          rcases List.mem_cons.mp inside with first | later
          · have one := congrArg Prod.fst first
            dsimp only at one
            have alike : components other.1 <+: components file.1 := by
              rw [one]
            rw [proper.apart other second file member alike]
            exact .inl (.inr ⟨place.symm, rfl⟩)
          · exact .inr ⟨other, second, later, rfl, rfl⟩
      · intro path data there
        rcases there with old | here
        · exact earlier path data old
        · exact ⟨file, member, here.1.trans place, here.2⟩

/-- The files, and nothing else, lie below the place. -/
theorem lists_of_kept {directory : Directory} {after : Machine}
    {ignore : String → Bool} {known : Path → Prop} (proper : directory.Proper)
    (empty : EmptyDir dest_dir machine)
    (kept : Kept (layPlan (directory.properFiles proper ignore) empty)
      machine.home known
      (laid (directory.files ignore) dest_dir
        (treeEntries (directory.files ignore))) after) (path : Path)
    (data : Bytes) :
    after.file? (Posix.resolve dest_dir ++ path) = some data ↔
      (path, data) ∈ directory.keptMap ignore := by
  have held : ∀ file ∈ directory.files ignore,
      after.inode? (Posix.resolve dest_dir ++ components file.1) =
        some (.file file.2) := by
    intro file member
    exact kept.held _ _ ⟨file, member, List.mem_map.mpr ⟨file, member, rfl⟩,
      rfl, rfl⟩
  constructor
  · intro there
    have inode : after.inode? (Posix.resolve dest_dir ++ path) =
        some (.file data) := by
      rw [Machine.file?] at there
      split at there
      · rename_i found same
        rw [Option.some.injEq] at there
        rw [same, there]
      · cases there
    rcases kept.files _ _ inode with old | new
    · obtain ⟨before, stood⟩ := old
      by_cases top : path = []
      · rw [top, List.append_nil] at stood
        exact absurd stood (empty.clear _ before (List.prefix_refl _))
      · rw [empty.below path top] at stood
        cases stood
    · obtain ⟨file, member, same⟩ := new
      have here := List.append_cancel_left same
      rw [here, held file member, Option.some.injEq, Inode.file.injEq] at inode
      rw [here, ← inode]
      exact List.mem_map.mpr ⟨file, member, rfl⟩
  · intro member
    obtain ⟨file, among, same⟩ := List.mem_map.mp member
    rw [Prod.mk.injEq] at same
    rw [Machine.file?, ← same.1, held file among]
    exact congrArg some same.2

/-- A directory that was stored is laid out again, path by path. -/
theorem materialize_stored {directory : Directory} {ignore : String → Bool}
    {seen : Set Bytes} {store stored : CasHttpStore}
    (proper : directory.Proper) (plain : PlainPaths (directory.files ignore))
    (whole : TreeStored seen store stored (directory.files ignore))
    (empty : EmptyDir dest_dir machine) :
    ∃ after, CasTree.materialize_tree (CasTree.fetch stored)
        (treeId (directory.files ignore)) dest_dir machine = .ok () after ∧
      after.home = machine.home ∧
      after.inode? (Posix.resolve dest_dir) = some .dir ∧
      ∀ path data, after.file? (Posix.resolve dest_dir ++ path) = some data ↔
        (path, data) ∈ directory.keptMap ignore := by
  have files := directory.properFiles proper ignore
  have distinct := @Directory.nodup_files_names directory ignore proper
  have listed := @AddressStore.manifestOf_of_read
    (treeId (directory.files ignore)) _ _ (readManifest?_treeDocument distinct)
  have fetches : ∀ file ∈ directory.files ignore, CasTree.fetch stored
      (.str (to_ni (sha256_hex file.2))) = pure file.2 :=
    fun file member => CasTree.fetch_to_ni (whole.blobs file member)
  have manifest : CasTree.fetch stored
      (.str (treeId (directory.files ignore))) =
        pure (treeDocument (directory.files ignore)) :=
    CasTree.fetch_to_ni whole.manifest
  have runs : Completes (Kept (layPlan files empty) machine.home
      (fun _ => False) fun _ _ => False)
      (CasTree.materialize_tree (CasTree.fetch stored)
        (treeId (directory.files ignore)) dest_dir)
      (fun _ => Kept (layPlan files empty) machine.home
        (fun path => path = Posix.resolve dest_dir)
        (laid (directory.files ignore) dest_dir
          (treeEntries (directory.files ignore)))) := by
    unfold CasTree.materialize_tree
    rw [manifest, pure_bind, listed]
    dsimp only [Act.lift]
    rw [pure_bind]
    apply Completes.bind (Disk.runs_mkdirParents empty.noNul
      (planned_place files empty))
    intro _
    have written := @runs_writeEntries _ _ _ _ machine.home
      (fun path => path = Posix.resolve dest_dir) (fun _ _ => False)
      _ files plain empty fetches (fun entry member => mem_listing.mp member)
      fun _ _ nothing => nothing.elim
    apply Completes.conseq written
    · intro state kept
      apply kept.mono _ fun _ _ there => there
      intro path here
      exact .inr (here.trans (Posix.resolve_eq_foldl dest_dir))
    · intro _ state kept
      apply kept.mono (fun _ there => there)
      intro path data there
      obtain ⟨file, member, inside, here⟩ := there
      exact .inr ⟨file, member, (listing_perm _).mem_iff.mpr inside, here⟩
  obtain ⟨_, after, ran, kept⟩ := runs machine (kept_layPlan files empty)
  exact ⟨after, ran, kept.home, kept.known _ rfl,
    lists_of_kept proper empty kept⟩

end Lay

end Cats
