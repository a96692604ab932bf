import Cats.Mesh.Enhanced

/-!
# The homes of a Runtime

`CATS_HOME` comes from `abspath`, so no part of it climbs, and the homes below
it lie where their names say.  The temporary directory of a call has a fresh
name in a directory of the same kind.
-/

namespace Cats

namespace Posix

/-- Nothing of the path climbs, and a system call accepts it. -/
structure Settled (text : String) : Prop where
  climbs : ['.', '.'] ∉ parts text
  noNul : ∀ part ∈ parts text, Disk.hasNul part = false

theorem leads_of_mem_parts {text : String} {part : List Char}
    (member : part ∈ parts text) : leads part = true :=
  (List.mem_filter.mp member).2

theorem enter_of_leads {part : List Char} (step : leads part = true)
    (notParent : part ≠ ['.', '.']) (path : Path) :
    enter path part = path ++ [part] := by
  simp only [leads, Bool.and_eq_true, decide_eq_true_eq] at step
  simp [enter, step.1, step.2, notParent]

/-- Parts that lead and do not climb are entered one below the other. -/
theorem foldl_enter_below {components : List (List Char)}
    (lead : ∀ part ∈ components, leads part = true)
    (climbs : ['.', '.'] ∉ components) (here : Path) :
    components.foldl enter here = here ++ components := by
  induction components generalizing here with
  | nil => simp
  | cons part components induction =>
      simp only [List.mem_cons, not_or] at climbs
      rw [List.foldl_cons, enter_of_leads (lead part List.mem_cons_self)
        (Ne.symm climbs.1), induction
        (fun other member => lead other (List.mem_cons_of_mem part member))
        climbs.2, List.append_assoc, List.singleton_append]

theorem Settled.resolve {text : String} (settled : Settled text) :
    resolve text = parts text := by
  rw [resolve_eq_foldl, foldl_enter_below
    (fun _ member => leads_of_mem_parts member) settled.climbs,
    List.nil_append]

theorem Settled.below {text deeper : String} {name : List Char}
    (settled : Settled text) (split : parts deeper = parts text ++ [name])
    (notParent : name ≠ ['.', '.']) (noNul : Disk.hasNul name = false) :
    Settled deeper := by
  constructor
  · rw [split, List.mem_append, List.mem_singleton, not_or]
    exact ⟨settled.climbs, Ne.symm notParent⟩
  · rw [split]
    intro part member
    rcases List.mem_append.mp member with above | last
    · exact settled.noNul part above
    · rw [List.mem_singleton.mp last]
      exact noNul

end Posix

/-- Where a Runtime keeps its homes. -/
structure Layout where
  CATS_HOME : String
  settled : Posix.Settled CATS_HOME

namespace Layout

variable (layout : Layout)

def DATA_HOME : String := layout.CATS_HOME ++ "/data"

def INPUT_HOME : String := layout.DATA_HOME ++ "/input"

def OUTPUT_HOME : String := layout.DATA_HOME ++ "/output"

def INPUT_STRUCTURE_HOME : String := layout.INPUT_HOME ++ "/structure"

theorem parts_DATA_HOME : Posix.parts layout.DATA_HOME =
    Posix.parts layout.CATS_HOME ++ ["data".toList] := by
  have below := Posix.parts_append_slash layout.CATS_HOME "data"
  rwa [String.append_assoc] at below

theorem parts_INPUT_HOME : Posix.parts layout.INPUT_HOME =
    Posix.parts layout.DATA_HOME ++ ["input".toList] := by
  have below := Posix.parts_append_slash layout.DATA_HOME "input"
  rwa [String.append_assoc] at below

theorem parts_OUTPUT_HOME : Posix.parts layout.OUTPUT_HOME =
    Posix.parts layout.DATA_HOME ++ ["output".toList] := by
  have below := Posix.parts_append_slash layout.DATA_HOME "output"
  rwa [String.append_assoc] at below

theorem settled_INPUT_HOME : Posix.Settled layout.INPUT_HOME :=
  (layout.settled.below layout.parts_DATA_HOME (by decide) (by decide)).below
    layout.parts_INPUT_HOME (by decide) (by decide)

theorem settled_OUTPUT_HOME : Posix.Settled layout.OUTPUT_HOME :=
  (layout.settled.below layout.parts_DATA_HOME (by decide) (by decide)).below
    layout.parts_OUTPUT_HOME (by decide) (by decide)

/-- The place of a document a call writes. -/
def documentPath (home filename : String) : Path :=
  Posix.resolve home ++ [filename.toList]

/-- The documents a call has written once it knows the Order. -/
def documents : List Path :=
  [documentPath layout.OUTPUT_HOME "bom.json",
    documentPath layout.OUTPUT_HOME "invoice.json",
    documentPath layout.INPUT_HOME "order.json"]

/-- Inside one of the two homes. -/
def Inside (path : Path) : Prop :=
  Posix.resolve layout.INPUT_HOME <+: path ∨
    Posix.resolve layout.OUTPUT_HOME <+: path

/-- One of the homes, or on the way to it. -/
def OnTheWay (path : Path) : Prop :=
  path <+: Posix.resolve layout.INPUT_HOME ∨
    path <+: Posix.resolve layout.OUTPUT_HOME

instance (path : Path) : Decidable (layout.Inside path) :=
  inferInstanceAs (Decidable (_ ∨ _))

instance (path : Path) : Decidable (layout.OnTheWay path) :=
  inferInstanceAs (Decidable (_ ∨ _))

/-- Making the Structure home of this name passes only directories that lead
to a home or lie inside one, and ends inside one, unless a NUL or one of the
documents stops it first. -/
def Confines (structure_filepath : String) : Prop :=
  Bounds.Stays
    { allowed := fun write => layout.Inside write.path
      standing := layout.OnTheWay
      files := fun path => path ∈ layout.documents }
    layout.Inside []
    (Posix.parts (Posix.join layout.INPUT_HOME structure_filepath))

end Layout

/-- The directory `tempfile` makes in `directory`. -/
structure TemporaryName where
  directory : String
  suffix : String
  settled : Posix.Settled directory
  noSlash : '/' ∉ suffix.toList

namespace TemporaryName

variable (temporary : TemporaryName)

def name : String := "cats-root-fetch-" ++ temporary.suffix

def path : String := Posix.join temporary.directory temporary.name

theorem plain_name : AddressStore.PlainName temporary.name := by
  have text : temporary.name.toList =
      "cats-root-fetch-".toList ++ temporary.suffix.toList :=
    String.toList_append
  refine ⟨?_, ?_, ?_⟩
  · rw [text, List.mem_append, not_or]
    exact ⟨by decide, temporary.noSlash⟩
  · rw [text]
    simp [Posix.leads]
  · rw [text]
    simp

theorem resolve_path : Posix.resolve temporary.path =
    Posix.resolve temporary.directory ++ [temporary.name.toList] :=
  temporary.plain_name.resolve_join temporary.directory

end TemporaryName

/-- The path and all that leads to it are directories. -/
def Machine.Stands (machine : Machine) (text : String) : Prop :=
  ∀ path, path <+: Posix.resolve text → machine.inode? path = some .dir

end Cats
