import Cats.Posix.Contained

/-!
# Where content is materialised

A manifest's entries are written below the directory they are materialised in,
whatever their names.  `get` writes at its destination or below it.
-/

namespace Cats

open Effect

namespace AddressStore

variable (net : Network) {bounds : Bounds} {start : List Write}

theorem reads_fetchEntry (file_id : Json) : Reads (fetchEntry net file_id) := by
  cases file_id with
  | str id => exact reads_cat_bytes net id none
  | _ => exact reads_throw _

/-- Below an allowed directory, a safe path leads to an allowed place. -/
theorem prefix_resolve_safe {rel path : String} (dest_dir : String)
    (safe : safePath? rel = some path) :
    Posix.resolve dest_dir <+: Posix.resolve (Posix.join dest_dir path) := by
  obtain ⟨relative, climbs⟩ := safePath?_some safe
  rw [Posix.resolve_join dest_dir relative, Posix.resolveFrom_eq_foldl]
  generalize Posix.resolve dest_dir = here
  clear relative safe
  generalize Posix.parts path = parts at climbs
  induction parts generalizing here with
  | nil => exact List.prefix_rfl
  | cons part parts induction =>
      simp only [List.mem_cons, not_or] at climbs
      refine List.IsPrefix.trans ?_ (induction _ climbs.2)
      have notParent : part ≠ ['.', '.'] := Ne.symm climbs.1
      unfold Posix.enter
      split_ifs
      · exact List.prefix_rfl
      · exact List.prefix_append _ _

/-- The directories of an entry stay with those of its tree. -/
theorem stays_entry {rel path dest_dir : String}
    (safe : safePath? rel = some path)
    (stays : bounds.Stays (fun _ => True) [] (Posix.parts dest_dir))
    (below : ∀ write, Posix.resolve dest_dir <+: write.path →
      bounds.allowed write) :
    bounds.Stays (fun _ => True) []
      (Posix.parts (Posix.join dest_dir path)).dropLast := by
  obtain ⟨relative, climbs⟩ := safePath?_some safe
  have whole : bounds.Stays (fun _ => True) []
      (Posix.parts (Posix.join dest_dir path)) := by
    rw [Posix.parts_join dest_dir relative, Bounds.stays_append]
    refine stays.ends.mono fun place reached => ?_
    rw [reached.1, ← Posix.resolve_eq_foldl]
    exact (Bounds.stays_below below List.prefix_rfl climbs).mono
      fun _ _ => trivial
  exact whole.dropLast

theorem confined_writeEntries {dest_dir : String}
    (stays : bounds.Stays (fun _ => True) [] (Posix.parts dest_dir))
    (below : ∀ write, Posix.resolve dest_dir <+: write.path →
      bounds.allowed write) (entries : Fields) :
    Confined bounds start (writeEntries net dest_dir entries) := by
  induction entries with
  | nil => exact confined_pure ()
  | cons entry entries induction =>
      obtain ⟨rel, file_id⟩ := entry
      simp only [writeEntries]
      cases safe : safePath? rel with
      | none => exact confined_throw _
      | some path =>
          refine Confined.bind (Disk.confined_mkdirParents
            (stays_entry safe stays below)) fun _ _ => ?_
          refine Confined.bind (confined_of_reads
            (reads_fetchEntry net file_id)) fun _ data => ?_
          refine Confined.bind (Disk.confined_writeFile data
            (below _ (prefix_resolve_safe dest_dir safe))) fun _ _ => ?_
          exact induction

/-- A tree is written below its directory, and on the way to it. -/
theorem confined_materialize_tree (content_id : String) {dest_dir : String}
    (stays : bounds.Stays (fun path => ∀ write, path <+: write.path →
      bounds.allowed write) [] (Posix.parts dest_dir)) :
    Confined bounds start (materialize_tree net content_id dest_dir) := by
  unfold materialize_tree
  refine Confined.bind (confined_of_reads
    (reads_cat_bytes net content_id none)) fun _ raw => ?_
  refine Confined.bind (confined_of_reads (reads_lift _)) fun _ entries => ?_
  refine Confined.bind (Disk.confined_mkdirParents stays) fun below _ => ?_
  rw [← Posix.resolve_eq_foldl] at below
  exact confined_writeEntries net (stays.mono fun _ _ => trivial) below entries

/-- Whatever the manifest, `materialize_tree` writes inside its destination;
outside it makes at most the missing directories that lead there. -/
theorem materialize_tree_inside (content_id dest_dir : String)
    (machine : Machine) :
    ∃ added,
      (final (materialize_tree net content_id dest_dir machine)).writes =
        machine.writes ++ added ∧
      ∀ write ∈ added, Posix.resolve dest_dir <+: write.path ∨
        write.content = none ∧ ∃ way, way <+: Posix.parts dest_dir ∧
          write.path = way.foldl Posix.enter [] := by
  let bounds : Bounds :=
    { allowed := fun write => Posix.resolve dest_dir <+: write.path ∨
        write.content = none ∧ ∃ way, way <+: Posix.parts dest_dir ∧
          write.path = way.foldl Posix.enter []
      standing := fun _ => False
      files := fun _ => False }
  have stays : bounds.Stays (fun path => ∀ write, path <+: write.path →
      bounds.allowed write) [] (Posix.parts dest_dir) := by
    refine (Bounds.stays_onWay ?_).mono ?_
    · intro way inside
      exact .inl (.inr ⟨rfl, way, inside, rfl⟩)
    · rintro _ rfl write below
      rw [← Posix.resolve_eq_foldl] at below
      exact .inl below
  have within : Within bounds machine.writes machine :=
    ⟨⟨[], by simp, by simp⟩, fun _ => False.elim, fun _ => False.elim⟩
  exact (confined_materialize_tree net content_id stays).final
    (fun _ _ outcome => outcome.1.log) (fun _ logged => logged) within

section Destination

variable {place name : String}

/-- A plain name is one part. -/
structure PlainName (name : String) : Prop where
  noSlash : '/' ∉ name.toList
  leads : Posix.leads name.toList = true
  notParent : name.toList ≠ ['.', '.']

theorem PlainName.relative (plain : PlainName name) :
    Text.startsWith name "/" = false := Posix.relative_of_noSlash plain.noSlash

theorem PlainName.parts (plain : PlainName name) :
    Posix.parts name = [name.toList] := by
  rw [Posix.parts, Posix.splitOn_of_notMem plain.noSlash,
    List.filter_cons_of_pos plain.leads, List.filter_nil]

theorem PlainName.parts_join (plain : PlainName name) (place : String) :
    Posix.parts (Posix.join place name) =
      Posix.parts place ++ [name.toList] := by
  rw [Posix.parts_join place plain.relative, plain.parts]

theorem PlainName.enter (plain : PlainName name) (path : Path) :
    Posix.enter path name.toList = path ++ [name.toList] := by
  have leads := plain.leads
  simp only [Posix.leads, Bool.and_eq_true, decide_eq_true_eq] at leads
  simp [Posix.enter, leads.1, leads.2, plain.notParent]

theorem PlainName.resolve_join (plain : PlainName name) (place : String) :
    Posix.resolve (Posix.join place name) =
      Posix.resolve place ++ [name.toList] := by
  rw [Posix.resolve_eq_foldl, plain.parts_join, List.foldl_append,
    ← Posix.resolve_eq_foldl]
  exact plain.enter _

variable (plain : PlainName name)
  (stays : bounds.Stays (fun path => ∀ write,
    path ++ [name.toList] <+: write.path → bounds.allowed write) []
    (Posix.parts place))

include plain stays

/-- The destination and the directories that lead to it. -/
theorem stays_destination :
    bounds.Stays (fun path => ∀ write, path <+: write.path →
      bounds.allowed write) [] (Posix.parts (Posix.join place name)) := by
  rw [plain.parts_join, Bounds.stays_append]
  refine stays.mono fun path below => ?_
  apply Bounds.Stays.made
  · rw [plain.enter]
    exact .inl (below _ List.prefix_rfl)
  · rw [plain.enter]
    exact .arrived below

theorem confined_makeParent :
    Confined bounds start (makeParent (Posix.join place name))
      (∀ write, Posix.resolve (Posix.join place name) <+: write.path →
        bounds.allowed write) := by
  have parent := Posix.parts_dirname_join place plain.noSlash
  rw [plain.resolve_join, Posix.resolve_eq_foldl]
  unfold makeParent
  generalize Posix.dirname (Posix.join place name) = directory at parent ⊢
  rw [← parent] at stays ⊢
  refine Triple.ite (fun here => ?_) fun _ => ?_
  · rw [here, Posix.parts_empty] at stays ⊢
    exact Triple.pure fun _ within => ⟨within, Bounds.stays_nil.mp stays⟩
  · rw [← Posix.resolve_eq_foldl]
    exact Disk.confined_makedirs stays

/-- `get` to a plain name in some place writes there or below. -/
theorem confined_get (content_id : String) (expect_digest : Option String) :
    Confined bounds start (AddressStore.get net content_id
      (Posix.join place name) expect_digest) := by
  unfold AddressStore.get
  refine Triple.ite (fun _ => ?_) fun _ => confined_throw _
  refine Confined.bind (confined_of_reads
    (reads_cat_bytes net content_id expect_digest)) fun _ raw => ?_
  cases readManifest? raw with
  | none =>
      unfold writeBlob
      refine Confined.bind (confined_makeParent plain stays) fun below _ => ?_
      exact Disk.confined_writeFile raw (below _ List.prefix_rfl)
  | some entries =>
      unfold expandManifest
      have destination := stays_destination plain stays
      refine Confined.bind (confined_of_reads reads_get) fun _ machine => ?_
      refine Confined.bind (confined_of_reads (reads_lift _)) fun _ id => ?_
      refine Confined.bind (Disk.confined_makedirs destination) fun _ _ => ?_
      exact confined_materialize_tree net id destination

end Destination

end AddressStore

end Cats
