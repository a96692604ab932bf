import Cats.Python.Text

/-!
# The lines of a text

Reading back lines that were printed one by one.
-/

namespace Cats

namespace Text

/-- The characters `str.splitlines` ends a line at. -/
def isLineBreak (character : Char) : Bool :=
  character = '\n' || character = '\r' || character = '\x0b' ||
    character = '\x0c' || character = '\x1c' || character = '\x1d' ||
    character = '\x1e' || character = '\u0085' || character = '\u2028' ||
    character = '\u2029'

/-- `text.splitlines()`; a carriage return and the line feed after it are one
break. -/
def splitlines : List Char → List (List Char)
  | [] => []
  | '\r' :: '\n' :: rest => [] :: splitlines rest
  | character :: rest =>
      if isLineBreak character then [] :: splitlines rest
      else
        match splitlines rest with
        | [] => [[character]]
        | line :: lines => (character :: line) :: lines

/-- `{line.strip() for line in text.splitlines() if line.strip()}`. -/
def strippedLines (text : String) : List String :=
  ((splitlines text.toList).map fun line => strip (String.ofList line)).filter
    (· ≠ "")

/-- A text that is a line of its own. -/
structure IsLine (text : String) : Prop where
  nonempty : text ≠ ""
  stripped : strip text = text
  unbroken : ∀ character ∈ text.toList, isLineBreak character = false

/-- Each text on a line. -/
def printLines (texts : List String) : List Char :=
  texts.flatMap fun text => text.toList ++ ['\n']

theorem splitlines_feed (rest : List Char) :
    splitlines ('\n' :: rest) = [] :: splitlines rest := by
  rw [splitlines]
  · rfl
  · intro tail first
    simp at first

theorem splitlines_cons {character : Char} {rest line : List Char}
    {lines : List (List Char)} (inside : isLineBreak character = false)
    (later : splitlines rest = line :: lines) :
    splitlines (character :: rest) = (character :: line) :: lines := by
  rw [splitlines]
  · simp [inside, later]
  · intro tail first
    have broken : isLineBreak character = true := by
      rw [first]
      rfl
    rw [inside] at broken
    cases broken

theorem splitlines_append {text : List Char} (rest : List Char)
    (unbroken : ∀ character ∈ text, isLineBreak character = false) :
    splitlines (text ++ '\n' :: rest) = text :: splitlines rest := by
  induction text with
  | nil => exact splitlines_feed rest
  | cons character text induction =>
      rw [List.forall_mem_cons] at unbroken
      exact splitlines_cons unbroken.1 (induction unbroken.2)

theorem splitlines_printLines {texts : List String}
    (lines : ∀ text ∈ texts, IsLine text) :
    splitlines (printLines texts) = texts.map String.toList := by
  induction texts with
  | nil => rfl
  | cons text texts induction =>
      rw [List.forall_mem_cons] at lines
      rw [printLines, List.flatMap_cons, List.append_assoc]
      exact (splitlines_append _ lines.1.unbroken).trans
        (congrArg _ (induction lines.2))

/-- What was printed line by line is read back. -/
theorem strippedLines_printLines {texts : List String}
    (lines : ∀ text ∈ texts, IsLine text) :
    strippedLines (String.ofList (printLines texts)) = texts := by
  rw [strippedLines, String.toList_ofList, splitlines_printLines lines,
    List.map_map]
  have same : texts.map ((fun line => strip (String.ofList line)) ∘
      String.toList) = texts.map id := by
    apply List.map_congr_left
    intro text member
    rw [Function.comp_apply, String.ofList_toList]
    exact (lines text member).stripped
  rw [same, List.map_id, List.filter_eq_self]
  intro text member
  simpa using (lines text member).nonempty

end Text

end Cats
