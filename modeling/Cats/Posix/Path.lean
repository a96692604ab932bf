import Cats.Python.Text
import Mathlib.Data.List.Infix

/-!
# Paths and their lexical meaning

The program joins path strings; the system resolves them.  `resolve` reads a
string as the list of components it leads to from the root, where an empty
component and `.` stay and `..` goes up.  A path is inside a directory when
the directory's components begin it.
-/

namespace Cats

abbrev Path := List (List Char)

namespace Posix

/-- One component further. -/
def enter (path : Path) (component : List Char) : Path :=
  if component = [] ∨ component = ['.'] then path
  else if component = ['.', '.'] then path.dropLast
  else path ++ [component]

def resolveFrom (base : Path) (text : List Char) : Path :=
  (Text.splitOn '/' text).foldl enter base

def resolve (text : String) : Path := resolveFrom [] text.toList

/-- A component that is not merely passed over. -/
def leads (component : List Char) : Bool :=
  component ≠ [] && component ≠ ['.']

/-- The components that lead somewhere, as `pathlib` splits a path. -/
def parts (text : String) : List (List Char) :=
  (Text.splitOn '/' text.toList).filter leads

/-- `os.path.join(left, right)`. -/
def join (left right : String) : String :=
  if Text.startsWith right "/" then right
  else if left = "" || Text.endsWith left "/" then left ++ right
  else left ++ "/" ++ right

/-- `os.path.basename(path)`. -/
def basename (path : String) : String :=
  String.ofList (path.toList.rtakeWhile (· ≠ '/'))

/-- `os.path.dirname(path)`. -/
def dirname (path : String) : String :=
  let head := path.toList.rdropWhile (· ≠ '/')
  if head.all (· = '/') then String.ofList head
  else String.ofList (head.rdropWhile (· = '/'))

theorem splitOn_ne_nil (separator : Char) (text : List Char) :
    Text.splitOn separator text ≠ [] := by
  cases text with
  | nil => simp [Text.splitOn]
  | cons character text =>
      unfold Text.splitOn
      split_ifs
      · simp
      · split <;> simp

theorem splitOn_cons_of_ne {separator character : Char}
    (different : character ≠ separator) (text : List Char) :
    ∃ first others, Text.splitOn separator text = first :: others ∧
      Text.splitOn separator (character :: text) =
        (character :: first) :: others := by
  cases shape : Text.splitOn separator text with
  | nil => exact absurd shape (splitOn_ne_nil separator text)
  | cons first others =>
      exact ⟨first, others, rfl, by simp [Text.splitOn, different, shape]⟩

/-- A separator splits the text into the pieces of either side. -/
theorem splitOn_append (separator : Char) (left right : List Char) :
    Text.splitOn separator (left ++ separator :: right) =
      Text.splitOn separator left ++ Text.splitOn separator right := by
  induction left with
  | nil => simp [Text.splitOn]
  | cons character left induction =>
      by_cases same : character = separator
      · simp [Text.splitOn, same, induction]
      · obtain ⟨first, others, shape, whole⟩ := splitOn_cons_of_ne same left
        rw [List.cons_append]
        have joined := induction
        rw [shape] at joined
        simp only [Text.splitOn, same, if_false, joined, shape,
          List.cons_append]

theorem splitOn_of_notMem {separator : Char} {text : List Char}
    (absent : separator ∉ text) : Text.splitOn separator text = [text] := by
  induction text with
  | nil => rfl
  | cons character text induction =>
      simp only [List.mem_cons, not_or] at absent
      have different : character ≠ separator := Ne.symm absent.1
      simp [Text.splitOn, different, induction absent.2]

theorem resolveFrom_append (base : Path) (left right : List Char) :
    resolveFrom base (left ++ '/' :: right) =
      resolveFrom (resolveFrom base left) right := by
  simp [resolveFrom, splitOn_append, List.foldl_append]

theorem resolveFrom_slash (base : Path) (text : List Char) :
    resolveFrom base ('/' :: text) = resolveFrom base text := by
  simp [resolveFrom, Text.splitOn, enter]

@[simp] theorem resolveFrom_nil (base : Path) : resolveFrom base [] = base := by
  simp [resolveFrom, Text.splitOn, enter]

theorem resolveFrom_trailing_slash (base : Path) (text : List Char) :
    resolveFrom base (text ++ ['/']) = resolveFrom base text := by
  rw [resolveFrom_append, resolveFrom_nil]

/-- An absolute right side replaces the left one. -/
theorem join_absolute (left : String) {right : String}
    (absolute : Text.startsWith right "/" = true) : join left right = right := by
  simp [join, absolute]

/-- A relative right side is resolved from where the left side leads. -/
theorem resolve_join (left : String) {right : String}
    (relative : Text.startsWith right "/" = false) :
    resolve (join left right) = resolveFrom (resolve left) right.toList := by
  unfold join
  rw [if_neg (by simp [relative])]
  by_cases empty : left = ""
  · subst left
    simp [resolve]
  · by_cases slashed : Text.endsWith left "/" = true
    · obtain ⟨start, whole⟩ : ['/'] <:+ left.toList :=
        List.isSuffixOf_iff_suffix.mp slashed
      simp only [empty, slashed, decide_false, Bool.false_or, if_true,
        resolve, String.toList_append, ← whole, List.append_assoc]
      rw [List.singleton_append, resolveFrom_append,
        resolveFrom_trailing_slash]
    · simp only [empty, slashed, decide_false, Bool.or_self,
        Bool.false_eq_true, if_false, resolve, String.toList_append,
        List.append_assoc]
      exact resolveFrom_append [] left.toList right.toList

/-- Text without `..` never leaves its base. -/
theorem prefix_resolveFrom (base : Path) {text : List Char}
    (climbs : ['.', '.'] ∉ Text.splitOn '/' text) :
    base <+: resolveFrom base text := by
  unfold resolveFrom
  generalize Text.splitOn '/' text = components at climbs
  induction components generalizing base with
  | nil => exact List.prefix_rfl
  | cons component components induction =>
      simp only [List.mem_cons, not_or] at climbs
      have stays := induction (enter base component) climbs.2
      refine List.IsPrefix.trans ?_ stays
      unfold enter
      have notParent : component ≠ ['.', '.'] := Ne.symm climbs.1
      split_ifs
      · exact List.prefix_rfl
      · exact List.prefix_append base [component]

/-- A plain name is one more component. -/
theorem resolveFrom_name (base : Path) {name : List Char}
    (plain : '/' ∉ name) (nonempty : name ≠ []) (notDot : name ≠ ['.'])
    (notParent : name ≠ ['.', '.']) :
    resolveFrom base name = base ++ [name] := by
  simp [resolveFrom, splitOn_of_notMem plain, enter, nonempty, notDot,
    notParent]

theorem resolve_join_name (left name : String) (plain : '/' ∉ name.toList)
    (nonempty : name.toList ≠ []) (notDot : name.toList ≠ ['.'])
    (notParent : name.toList ≠ ['.', '.']) :
    resolve (join left name) = resolve left ++ [name.toList] := by
  have relative : Text.startsWith name "/" = false := by
    rw [Bool.eq_false_iff]
    intro absolute
    have leading : ['/'] <+: name.toList :=
      List.isPrefixOf_iff_prefix.mp absolute
    exact plain (leading.subset (by simp))
  rw [resolve_join left relative,
    resolveFrom_name _ plain nonempty notDot notParent]

theorem enter_of_not_leads {component : List Char}
    (passed : leads component = false) (path : Path) :
    enter path component = path := by
  have trivial : component = [] ∨ component = ['.'] := by
    simp only [leads, Bool.and_eq_false_iff, decide_eq_false_iff_not,
      not_not] at passed
    exact passed
  simp [enter, trivial]

theorem foldl_enter_parts (base : Path) (components : List (List Char)) :
    (components.filter leads).foldl enter base =
      components.foldl enter base := by
  induction components generalizing base with
  | nil => rfl
  | cons component components induction =>
      by_cases step : leads component = true
      · rw [List.filter_cons_of_pos step, List.foldl_cons, List.foldl_cons,
          induction]
      · rw [List.filter_cons_of_neg step, List.foldl_cons,
          enter_of_not_leads (Bool.eq_false_iff.mpr step), induction]

/-- A path leads where its parts lead. -/
theorem resolve_eq_foldl (text : String) :
    resolve text = (parts text).foldl enter [] :=
  (foldl_enter_parts [] _).symm

theorem resolveFrom_eq_foldl (base : Path) (text : String) :
    resolveFrom base text.toList = (parts text).foldl enter base :=
  (foldl_enter_parts base _).symm

theorem parts_append_slash (left right : String) :
    parts (left ++ "/" ++ right) = parts left ++ parts right := by
  have text : (left ++ "/" ++ right).toList =
      left.toList ++ '/' :: right.toList := by simp
  rw [parts, text, splitOn_append, List.filter_append]
  rfl

theorem parts_empty : parts "" = [] := rfl

/-- The parts of a joined relative path follow those it is joined to. -/
theorem parts_join (left : String) {right : String}
    (relative : Text.startsWith right "/" = false) :
    parts (join left right) = parts left ++ parts right := by
  unfold join
  rw [if_neg (by simp [relative])]
  by_cases empty : left = ""
  · subst left
    simp [parts_empty]
  · by_cases slashed : Text.endsWith left "/" = true
    · obtain ⟨start, whole⟩ : ['/'] <:+ left.toList :=
        List.isSuffixOf_iff_suffix.mp slashed
      have stem : left = String.ofList start ++ "/" := by
        apply String.toList_injective
        simp [whole]
      simp only [empty, slashed, decide_false, Bool.false_or, if_true]
      rw [stem, parts_append_slash]
      have shorter : parts (String.ofList start ++ "/") =
          parts (String.ofList start) := by
        have ended := parts_append_slash (String.ofList start) ""
        rwa [String.append_empty, parts_empty, List.append_nil] at ended
      rw [shorter]
    · simp only [empty, slashed, decide_false, Bool.or_self,
        Bool.false_eq_true, if_false]
      exact parts_append_slash left right

theorem parts_rstripSlash (text : String) :
    parts (Text.rstripSlash text) = parts text := by
  have shorten : ∀ characters : List Char,
      parts (String.ofList (characters.rdropWhile (· = '/'))) =
        parts (String.ofList characters) := by
    intro characters
    induction characters using List.reverseRecOn with
    | nil => rfl
    | append_singleton characters last induction =>
        by_cases slash : last = '/'
        · subst last
          rw [List.rdropWhile_concat_pos _ _ _ (by simp), induction]
          have ended := parts_append_slash (String.ofList characters) ""
          rw [String.append_empty, parts_empty, List.append_nil] at ended
          rw [← ended]
          congr 1
          apply String.toList_injective
          simp
        · rw [List.rdropWhile_concat_neg _ _ _ (by simpa using slash)]
  have whole := shorten text.toList
  rwa [String.ofList_toList] at whole

theorem relative_of_noSlash {name : String} (plain : '/' ∉ name.toList) :
    Text.startsWith name "/" = false := by
  rw [Bool.eq_false_iff, ne_eq, Text.startsWith_iff]
  intro absolute
  exact plain (absolute.subset (by simp))

/-- A joined path is the right side after text that is empty or ends in a
slash. -/
theorem join_shape (left : String) {right : String}
    (relative : Text.startsWith right "/" = false) :
    ∃ front, join left right = front ++ right ∧
      (front.toList = [] ∨ front.toList.getLast? = some '/') ∧
      parts front = parts left := by
  unfold join
  rw [if_neg (by simp [relative])]
  by_cases empty : left = ""
  · subst left
    exact ⟨"", by simp, .inl rfl, rfl⟩
  · by_cases slashed : Text.endsWith left "/" = true
    · obtain ⟨start, whole⟩ : ['/'] <:+ left.toList :=
        List.isSuffixOf_iff_suffix.mp slashed
      refine ⟨left, by simp [slashed], .inr ?_, rfl⟩
      rw [← whole]
      simp
    · refine ⟨left ++ "/", by simp [empty, slashed], .inr (by simp), ?_⟩
      have ended := parts_append_slash left ""
      rwa [String.append_empty, parts_empty, List.append_nil] at ended

/-- Dropping a name leaves what stands before it. -/
theorem rdropWhile_name {front name : List Char} (plain : '/' ∉ name)
    (ends : front = [] ∨ front.getLast? = some '/') :
    (front ++ name).rdropWhile (· ≠ '/') = front := by
  induction name using List.reverseRecOn with
  | nil =>
      rw [List.append_nil]
      refine List.rdropWhile_eq_self_iff.mpr fun filled => ?_
      rcases ends with empty | last
      · exact absurd empty filled
      · rw [List.getLast?_eq_some_getLast filled] at last
        simp [Option.some.inj last]
  | append_singleton name last induction =>
      simp only [List.mem_append, List.mem_singleton, not_or] at plain
      rw [← List.append_assoc,
        List.rdropWhile_concat_pos _ _ _ (by simpa using Ne.symm plain.2),
        induction plain.1]

/-- The directory part of a path joined to a plain name. -/
theorem parts_dirname_join (left : String) {name : String}
    (plain : '/' ∉ name.toList) :
    parts (dirname (join left name)) = parts left := by
  obtain ⟨front, shape, ends, same⟩ :=
    join_shape left (relative_of_noSlash plain)
  have head : (front ++ name).toList.rdropWhile (· ≠ '/') = front.toList := by
    rw [String.toList_append]
    exact rdropWhile_name plain ends
  unfold dirname
  rw [shape, head]
  simp only []
  split_ifs
  · rw [String.ofList_toList, same]
  · exact (parts_rstripSlash front).trans same

theorem basename_join (left : String) {name : String}
    (plain : '/' ∉ name.toList) : basename (join left name) = name := by
  obtain ⟨front, shape, ends, _⟩ :=
    join_shape left (relative_of_noSlash plain)
  have split : (front.toList ++ name.toList).rdropWhile (· ≠ '/') ++
      (front.toList ++ name.toList).rtakeWhile (· ≠ '/') =
        front.toList ++ name.toList := List.rdropWhile_append_rtakeWhile
  rw [rdropWhile_name plain ends] at split
  unfold basename
  rw [shape, String.toList_append]
  apply String.toList_injective
  rw [String.toList_ofList]
  exact List.append_cancel_left split

/-- The left side of a join, ready for a relative right side. -/
def slashed (left : String) : String :=
  if left = "" || Text.endsWith left "/" then left else left ++ "/"

theorem join_relative (left : String) {right : String}
    (relative : Text.startsWith right "/" = false) :
    join left right = slashed left ++ right := by
  unfold join slashed
  rw [if_neg (by simp [relative])]
  split_ifs <;> rfl

theorem slashed_slashed (left : String) :
    slashed (slashed left) = slashed left := by
  unfold slashed
  split_ifs with empty again
  · rfl
  · rfl
  · refine absurd ?_ again
    simp [Text.endsWith]

theorem slashed_append (left : String) {right : String} (filled : right ≠ "") :
    slashed (left ++ right) = left ++ slashed right := by
  have nonempty : right.toList ≠ [] := fun empty =>
    filled (String.toList_injective (by simpa using empty))
  have whole : left ++ right ≠ "" := fun empty => by
    have text := congrArg String.toList empty
    rw [String.toList_append] at text
    exact nonempty (List.append_eq_nil_iff.mp text).2
  have ends : Text.endsWith (left ++ right) "/" = Text.endsWith right "/" := by
    rw [Bool.eq_iff_iff, Text.endsWith_iff, Text.endsWith_iff,
      String.toList_append]
    constructor
    · intro tail
      exact List.suffix_of_suffix_length_le tail (List.suffix_append _ _)
        (List.length_pos_iff.mpr nonempty)
    · exact fun tail => tail.trans (List.suffix_append _ _)
  unfold slashed
  simp only [whole, filled, decide_false, Bool.false_or, ends]
  split_ifs
  · rfl
  · rw [String.append_assoc]

theorem startsWith_append_slash {left right : String} (filled : left ≠ "") :
    Text.startsWith (left ++ right) "/" = Text.startsWith left "/" := by
  have nonempty : left.toList ≠ [] := fun empty =>
    filled (String.toList_injective (by simpa using empty))
  rw [Bool.eq_iff_iff, Text.startsWith_iff, Text.startsWith_iff,
    String.toList_append]
  constructor
  · intro head
    exact List.prefix_of_prefix_length_le head (List.prefix_append _ _)
      (List.length_pos_iff.mpr nonempty)
  · exact fun head => head.trans (List.prefix_append _ _)

/-- Joining a plain name last is joining it to the joined path. -/
theorem join_join (left middle : String) {name : String}
    (plain : '/' ∉ name.toList) :
    join left (join middle name) = join (join left middle) name := by
  have relative := relative_of_noSlash plain
  rw [join_relative middle relative, join_relative (join left middle) relative]
  by_cases empty : middle = ""
  · subst middle
    have nothing : slashed "" = "" := rfl
    rw [nothing, String.empty_append, join_relative left relative,
      join_relative left (by rfl : Text.startsWith "" "/" = false),
      String.append_empty, slashed_slashed]
  · have filled : slashed middle ≠ "" := by
      unfold slashed
      split_ifs
      · exact empty
      · intro nothing
        have text := congrArg String.toList nothing
        simp at text
    have heads : Text.startsWith (slashed middle) "/" =
        Text.startsWith middle "/" := by
      unfold slashed
      split_ifs
      · rfl
      · exact startsWith_append_slash empty
    by_cases absolute : Text.startsWith middle "/" = true
    · rw [join_absolute left absolute, join_absolute]
      rw [startsWith_append_slash filled, heads, absolute]
    · have below := Bool.eq_false_iff.mpr absolute
      rw [join_relative left below, join_relative, slashed_append _ empty,
        String.append_assoc]
      rw [startsWith_append_slash filled, heads, below]

/-- The first component ends at a separator or at the end. -/
theorem splitOn_first {separator : Char} {text first : List Char}
    {others : List (List Char)}
    (shape : Text.splitOn separator text = first :: others) :
    ∃ rest, text ++ [separator] = first ++ separator :: rest := by
  induction text generalizing first others with
  | nil =>
      simp only [Text.splitOn, List.cons.injEq] at shape
      exact ⟨[], by simp [← shape.1]⟩
  | cons character text induction =>
      by_cases same : character = separator
      · simp only [Text.splitOn, same, if_true, List.cons.injEq] at shape
        exact ⟨text ++ [separator], by simp [← shape.1, same]⟩
      · obtain ⟨start, later, inner, whole⟩ := splitOn_cons_of_ne same text
        rw [whole, List.cons.injEq] at shape
        obtain ⟨rest, ended⟩ := induction inner
        exact ⟨rest, by rw [← shape.1, List.cons_append, ended]; rfl⟩

/-- Any later component stands between separators. -/
theorem splitOn_later {separator : Char} {text first component : List Char}
    {others : List (List Char)}
    (shape : Text.splitOn separator text = first :: others)
    (member : component ∈ others) :
    separator :: (component ++ [separator]) <:+: text ++ [separator] := by
  induction text generalizing first others with
  | nil =>
      simp only [Text.splitOn, List.cons.injEq] at shape
      simp [← shape.2] at member
  | cons character text induction =>
      by_cases same : character = separator
      · simp only [Text.splitOn, same, if_true, List.cons.injEq] at shape
        rw [← shape.2] at member
        cases inner : Text.splitOn separator text with
        | nil => exact absurd inner (splitOn_ne_nil separator text)
        | cons start later =>
            rw [inner] at member
            rcases List.mem_cons.mp member with rfl | deeper
            · obtain ⟨rest, ended⟩ := splitOn_first inner
              exact ⟨[], rest, by simp [same, ended]⟩
            · exact (induction inner deeper).trans
                ⟨[character], [], by simp⟩
      · obtain ⟨start, later, inner, whole⟩ := splitOn_cons_of_ne same text
        rw [whole, List.cons.injEq] at shape
        rw [← shape.2] at member
        exact (induction inner member).trans ⟨[character], [], by simp⟩

theorem infix_of_mem_splitOn {separator : Char} {text component : List Char}
    (member : component ∈ Text.splitOn separator text) :
    separator :: (component ++ [separator]) <:+:
      separator :: (text ++ [separator]) := by
  cases shape : Text.splitOn separator text with
  | nil => exact absurd shape (splitOn_ne_nil separator text)
  | cons first others =>
      rw [shape] at member
      rcases List.mem_cons.mp member with rfl | later
      · obtain ⟨rest, ended⟩ := splitOn_first shape
        exact ⟨[], rest, by simp [ended]⟩
      · exact (splitOn_later shape later).trans ⟨[separator], [], by simp⟩

/-- A character that is neither a slash nor a dot stands in some part. -/
theorem exists_part_of_mem {text : String} {character : Char}
    (member : character ∈ text.toList) (notSlash : character ≠ '/')
    (notDot : character ≠ '.') :
    ∃ part ∈ parts text, character ∈ part := by
  have component : ∃ component ∈ Text.splitOn '/' text.toList,
      character ∈ component := by
    generalize text.toList = characters at member
    induction characters with
    | nil => simp at member
    | cons first characters induction =>
        by_cases slash : first = '/'
        · have later : character ∈ characters := by
            rcases List.mem_cons.mp member with same | later
            · exact absurd (same.trans slash) notSlash
            · exact later
          obtain ⟨component, inside, found⟩ := induction later
          exact ⟨component, by simp [Text.splitOn, slash, inside], found⟩
        · obtain ⟨start, others, inner, whole⟩ :=
            splitOn_cons_of_ne slash characters
          rw [whole]
          rcases List.mem_cons.mp member with rfl | later
          · exact ⟨_, List.mem_cons_self, List.mem_cons_self⟩
          · obtain ⟨component, inside, found⟩ := induction later
            rw [inner] at inside
            rcases List.mem_cons.mp inside with rfl | deeper
            · exact ⟨_, List.mem_cons_self, List.mem_cons_of_mem first found⟩
            · exact ⟨component, List.mem_cons_of_mem _ deeper, found⟩
  obtain ⟨component, inside, found⟩ := component
  refine ⟨component, List.mem_filter.mpr ⟨inside, ?_⟩, found⟩
  have nonempty : component ≠ [] := List.ne_nil_of_mem found
  have notHere : component ≠ ['.'] := by
    intro here
    rw [here, List.mem_singleton] at found
    exact notDot found
  simp [leads, nonempty, notHere]

theorem intercalate_splitOn (text : List Char) :
    List.intercalate ['/'] (Text.splitOn '/' text) = text := by
  induction text with
  | nil => rfl
  | cons character text induction =>
      by_cases slash : character = '/'
      · rw [Text.splitOn, if_pos slash, slash]
        cases shape : Text.splitOn '/' text with
        | nil => exact absurd shape (splitOn_ne_nil '/' text)
        | cons first others =>
            rw [shape] at induction
            rw [List.intercalate_cons_cons, induction]
            rfl
      · obtain ⟨first, others, shape, whole⟩ :=
          splitOn_cons_of_ne slash text
        rw [shape] at induction
        rw [whole]
        cases others with
        | nil =>
            rw [List.intercalate_singleton] at induction ⊢
            rw [induction]
        | cons second others =>
            rw [List.intercalate_cons_cons] at induction ⊢
            rw [← induction]
            rfl

theorem splitOn_injective {left right : List Char}
    (same : Text.splitOn '/' left = Text.splitOn '/' right) : left = right := by
  rw [← intercalate_splitOn left, same, intercalate_splitOn]

/-- The last component of a text is its `basename`. -/
theorem splitOn_basename (text : String) :
    ∃ front, Text.splitOn '/' text.toList =
      front ++ [(basename text).toList] := by
  have whole := @List.rdropWhile_append_rtakeWhile _ (· ≠ '/') text.toList
  have plain : '/' ∉ text.toList.rtakeWhile (· ≠ '/') := by
    intro member
    have kept := List.mem_rtakeWhile_imp member
    simp at kept
  rw [basename, String.toList_ofList]
  by_cases none : text.toList.rdropWhile (· ≠ '/') = []
  · rw [none, List.nil_append] at whole
    refine ⟨[], ?_⟩
    rw [List.nil_append, whole, ← whole, splitOn_of_notMem plain]
  · have ends := List.rdropWhile_last_not (· ≠ '/') text.toList none
    have slash : (text.toList.rdropWhile (· ≠ '/')).getLast none = '/' := by
      simpa using ends
    have front := List.dropLast_append_getLast none
    rw [slash] at front
    refine ⟨Text.splitOn '/' (text.toList.rdropWhile (· ≠ '/')).dropLast, ?_⟩
    rw [← splitOn_of_notMem plain, ← splitOn_append]
    conv_lhs => rw [← whole, ← front]
    rw [List.append_assoc]
    rfl

end Posix

end Cats
