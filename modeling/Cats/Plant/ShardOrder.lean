import Cats.Plant.RayCompute
import Cats.Sorting

/-!
# Shards in the order of their names

A reader takes the parts of a layout in the order of their names.  The names
are padded to five digits, so that order is the order of the indices up to
`part-99999`, and `part-100000` stands before `part-10001`.
-/

namespace Cats

namespace ShardOrder

open PartitionLayout RayIo RayCompute

section Digits

/-- Digits have a value below the power of ten of their number. -/
theorem ofDigitChars_lt {digits : List Char}
    (all : ∀ character ∈ digits, character.isDigit = true) :
    Nat.ofDigitChars 10 digits 0 < 10 ^ digits.length := by
  induction digits with
  | nil => decide
  | cons digit digits induction =>
      have most := all digit List.mem_cons_self
      simp only [Char.isDigit, Bool.and_eq_true, decide_eq_true_eq] at most
      have small : digit.toNat ≤ 57 := most.2
      have later := induction fun character member =>
        all character (List.mem_cons_of_mem _ member)
      rw [Nat.ofDigitChars_cons, Nat.ofDigitChars_eq_ofDigitChars_zero,
        List.length_cons, Nat.pow_succ]
      have nine : digit.toNat - '0'.toNat ≤ 9 := by
        have zero : '0'.toNat = 48 := rfl
        omega
      have scaled : 10 ^ digits.length * (10 * 0 + (digit.toNat - '0'.toNat)) ≤
          10 ^ digits.length * 9 := by
        apply Nat.mul_le_mul_left
        omega
      omega

/-- Of as many digits, those before others in the order of texts have the
smaller value. -/
theorem ofDigitChars_lt_ofDigitChars {left right : List Char}
    (length : left.length = right.length)
    (leftDigits : ∀ character ∈ left, character.isDigit = true)
    (rightDigits : ∀ character ∈ right, character.isDigit = true)
    (before : left < right) :
    Nat.ofDigitChars 10 left 0 < Nat.ofDigitChars 10 right 0 := by
  induction left generalizing right with
  | nil =>
      have empty : right = [] := List.length_eq_zero_iff.mp length.symm
      rw [empty] at before
      exact absurd before (List.lt_irrefl _)
  | cons digit left induction =>
      cases right with
      | nil => cases length
      | cons other right =>
          have lengths : left.length = right.length := Nat.succ.inj length
          have leftRest := fun character member =>
            leftDigits character (List.mem_cons_of_mem _ member)
          have rightRest := fun character member =>
            rightDigits character (List.mem_cons_of_mem _ member)
          rw [Nat.ofDigitChars_cons, Nat.ofDigitChars_eq_ofDigitChars_zero,
            Nat.ofDigitChars_cons,
            @Nat.ofDigitChars_eq_ofDigitChars_zero right, ← lengths]
          rcases List.cons_lt_cons_iff.mp before with smaller | ⟨same, rest⟩
          · have below : digit.toNat < other.toNat := smaller
            have least := leftDigits digit List.mem_cons_self
            simp only [Char.isDigit, Bool.and_eq_true,
              decide_eq_true_eq] at least
            have bound : 48 ≤ digit.toNat := least.1
            have zero : '0'.toNat = 48 := rfl
            have next : digit.toNat - '0'.toNat + 1 ≤
                other.toNat - '0'.toNat := by
              omega
            have scaled := Nat.mul_le_mul_left (10 ^ left.length) next
            have small := ofDigitChars_lt leftRest
            rw [Nat.mul_zero, Nat.zero_add, Nat.zero_add]
            rw [Nat.mul_succ] at scaled
            omega
          · have later := induction lengths leftRest rightRest rest
            rw [same]
            omega

end Digits

theorem length_pad {index : ℕ} (small : index < 100000) :
    (pad index).length = 5 := by
  have digits : (Nat.toDigits 10 index).length ≤ 5 :=
    (Nat.length_toDigits_le_iff (by decide) (by decide)).mpr small
  rw [pad, List.length_append, List.length_replicate]
  omega

theorem ofDigitChars_pad (index : ℕ) :
    Nat.ofDigitChars 10 (pad index) 0 = index := by
  rw [pad, Nat.ofDigitChars_append, Nat.ofDigitChars_replicate_zero,
    Nat.mul_zero, Nat.ofDigitChars_ten_toDigits]

/-- Up to five digits the names are in the order of the indices. -/
theorem part_name_le {left right : ℕ} (order : left ≤ right)
    (small : right < 100000) : part_name left ≤ part_name right := by
  have pads : ¬ pad right < pad left := by
    intro before
    have lengths : (pad right).length = (pad left).length := by
      rw [length_pad small, length_pad (order.trans_lt small)]
    have values := ofDigitChars_lt_ofDigitChars lengths
      (fun _ member => isDigit_of_mem_pad member)
      (fun _ member => isDigit_of_mem_pad member) before
    rw [ofDigitChars_pad, ofDigitChars_pad] at values
    omega
  by_contra above
  have below : part_name right < part_name left := not_le.mp above
  rw [String.lt_iff, toList_part_name, toList_part_name] at below
  exact absurd below (List.append_left_le pads)

/-- `list_part_shards(directory)`. -/
def list_part_shards (tree : List Entry) : List String :=
  sortedNames (((rootEntries tree).filter fun name =>
    Text.startsWith name "part-").filter fun name =>
      !Text.endsWith name ".car")

/-- The bytes of the file of a name. -/
def bytesAt (tree : List Entry) (name : String) : Bytes :=
  (tree.lookup name).getD []

/-- The files of some names, one behind the other. -/
def concatenated (tree : List Entry) (names : List String) : Bytes :=
  names.flatMap (bytesAt tree)

/-- The indices of the first parts in the order of their names. -/
def nameOrder (count : ℕ) : List ℕ :=
  sortedByText part_name (List.range count)

section Listing

theorem injective_part_name : Function.Injective part_name :=
  fun _ _ same => part_name_injective same

/-- The parts of a layout are listed in the order of their names. -/
theorem list_part_shards_parted {layout : List Entry} {count : ℕ}
    (parted : Parted layout count) :
    list_part_shards layout = (nameOrder count).map part_name := by
  have roots := rootEntries_perm parted
  obtain ⟨parts, shards⟩ := partEntries_parted parted
  rw [list_part_shards, parts, shards]
  apply @eq_of_pairwise_text String id
  · exact Function.injective_id
  · apply (sortedByText_perm _).trans
    apply roots.trans
    exact ((sortedByText_perm (List.range count)).map part_name).symm
  · exact pairwise_sortedByText _
  · rw [List.pairwise_map]
    exact pairwise_sortedByText _

/-- The reader of partitions finds the listed parts. -/
theorem part_inputs_eq {layout : List Entry} {count : ℕ}
    (parted : Parted layout count) :
    part_inputs layout count = some (list_part_shards layout) ∧
      (list_part_shards layout).length = count := by
  have length : (list_part_shards layout).length = count := by
    rw [list_part_shards_parted parted, List.length_map, nameOrder,
      (sortedByText_perm _).length_eq, List.length_range]
  constructor
  · exact if_pos length
  · exact length

theorem parted_shardLayout (shards : List Bytes) :
    Parted (shardLayout shards) shards.length := by
  intro name
  rw [topLevel_shardLayout]

theorem lookup_zipIdx (shards : List Bytes) (start index : ℕ) :
    ((shards.zipIdx start).map fun shard =>
      (part_name shard.2, shard.1)).lookup (part_name (start + index)) =
        shards[index]? := by
  induction shards generalizing start index with
  | nil => rfl
  | cons shard shards induction =>
      rw [List.zipIdx_cons, List.map_cons]
      cases index with
      | zero => simp
      | succ index =>
          have apart : (part_name (start + (index + 1)) == part_name start) =
              false := by
            rw [beq_eq_false_iff_ne]
            intro same
            have indices := part_name_injective same
            omega
          have later := induction (start + 1) index
          rw [List.lookup_cons, apart, List.getElem?_cons_succ, ← later,
            show start + 1 + index = start + (index + 1) by omega]

/-- The file of a part holds its shard. -/
theorem bytesAt_shardLayout (shards : List Bytes) (index : ℕ) :
    bytesAt (shardLayout shards) (part_name index) =
      (shards[index]?).getD [] := by
  have found := lookup_zipIdx shards 0 index
  rw [Nat.zero_add] at found
  rw [bytesAt, shardLayout, found]

/-- What the listed parts hold together. -/
theorem concatenated_shardLayout (shards : List Bytes) :
    concatenated (shardLayout shards)
        (list_part_shards (shardLayout shards)) =
      (nameOrder shards.length).flatMap fun index =>
        (shards[index]?).getD [] := by
  rw [list_part_shards_parted (parted_shardLayout shards), concatenated,
    List.flatMap_map]
  apply List.flatMap_congr
  intro index _
  exact bytesAt_shardLayout shards index

theorem flatten_eq_flatMap_range {α : Type} (pieces : List (List α)) :
    pieces.flatten = (List.range pieces.length).flatMap fun index =>
      (pieces[index]?).getD [] := by
  have each : (List.range pieces.length).map (fun index =>
      (pieces[index]?).getD []) = pieces := by
    apply List.ext_getElem
    · rw [List.length_map, List.length_range]
    · intro index _ inside
      rw [List.getElem_map, List.getElem_range,
        List.getElem?_eq_getElem inside]
      rfl
  rw [List.flatMap_def, each]

/-- Items that contribute nothing may be left out. -/
theorem flatMap_filter {α β : Type} {pieces : α → List β} (keep : α → Bool)
    {items : List α}
    (empty : ∀ item ∈ items, keep item = false → pieces item = []) :
    (items.filter keep).flatMap pieces = items.flatMap pieces := by
  induction items with
  | nil => rfl
  | cons item items induction =>
      have later := induction fun other member =>
        empty other (List.mem_cons_of_mem _ member)
      cases kept : keep item with
      | true =>
          rw [List.filter_cons_of_pos kept, List.flatMap_cons,
            List.flatMap_cons, later]
      | false =>
          rw [List.filter_cons_of_neg (by simp [kept]), List.flatMap_cons,
            empty item List.mem_cons_self kept, List.nil_append, later]

/-- Where nothing is left for the indices of six digits, the listed parts make
up the file. -/
theorem concatenated_of_small {shards : List Bytes}
    (small : ∀ index, 100000 ≤ index → (shards[index]?).getD [] = []) :
    concatenated (shardLayout shards)
        (list_part_shards (shardLayout shards)) = shards.flatten := by
  have empty : ∀ (indices : List ℕ), ∀ index ∈ indices,
      decide (index < 100000) = false → (shards[index]?).getD [] = [] := by
    intro indices index _ large
    exact small index (by simpa using large)
  have ordered : (nameOrder shards.length).filter (· < 100000) =
      (List.range shards.length).filter (· < 100000) := by
    apply filter_sortedByText injective_part_name _ (List.Perm.refl _)
    have increasing := List.Pairwise.filter (fun index => index < 100000)
      (@List.pairwise_lt_range shards.length)
    apply increasing.imp_of_mem
    intro left right _ there less
    exact part_name_le less.le (by simpa using (List.mem_filter.mp there).2)
  rw [concatenated_shardLayout, flatten_eq_flatMap_range,
    ← flatMap_filter _ (empty (nameOrder shards.length)), ordered,
    flatMap_filter _ (empty (List.range shards.length))]

end Listing

section Widths

/-- The size of a shard. -/
def width (base rem index : ℕ) : ℕ := base + if index < rem then 1 else 0

/-- What the shards of some indices hold, by the first one and the others. -/
theorem total_cons (base rem index : ℕ) (indices : List ℕ) :
    base * (index :: indices).length +
        ((index :: indices).filter (· < rem)).length =
      width base rem index + (base * indices.length +
        (indices.filter (· < rem)).length) := by
  rw [List.length_cons, Nat.mul_succ, List.filter_cons, width]
  by_cases early : index < rem
  · simp only [early, decide_true, if_true, List.length_cons]
    omega
  · simp only [early, decide_false, if_false, Bool.false_eq_true]
    omega

/-- For one shard and for no bytes the loop would do as well. -/
theorem split_file_bytes_eq (data : Bytes) {num_partitions : ℕ}
    (positive : 1 ≤ num_partitions) :
    split_file_bytes data num_partitions =
      .ok (shardsFrom data (data.length / num_partitions)
        (data.length % num_partitions) 0 (List.range num_partitions)) := by
  unfold split_file_bytes
  rw [if_neg (by omega)]
  split_ifs with one empty
  · subst one
    simp [List.range_succ, shardsFrom, Nat.mod_one]
  · have nothing : ∀ (indices : List ℕ) (offset : ℕ),
        shardsFrom ([] : Bytes) 0 0 offset indices =
          List.replicate indices.length [] := by
      intro indices
      induction indices with
      | nil => exact fun _ => rfl
      | cons index indices induction =>
          intro offset
          rw [shardsFrom, induction, List.drop_nil, List.take_nil,
            List.length_cons, List.replicate_succ]
    obtain rfl := List.length_eq_zero_iff.mp empty
    rw [List.length_nil, Nat.zero_div, Nat.zero_mod, nothing,
      List.length_range]
  · rfl

/-- Pieces of the widths of the shards, one behind the other, are cut apart
again. -/
theorem shardsFrom_flatMap {base rem : ℕ} {piece : ℕ → Bytes}
    (widths : ∀ index, (piece index).length = width base rem index)
    {data : Bytes} {offset : ℕ} {indices : List ℕ}
    (rest : data.drop offset = indices.flatMap piece) :
    shardsFrom data base rem offset indices = indices.map piece := by
  induction indices generalizing offset with
  | nil => rfl
  | cons index indices induction =>
      rw [List.flatMap_cons] at rest
      have size : base + (if index < rem then 1 else 0) =
          (piece index).length := (widths index).symm
      rw [shardsFrom, List.map_cons, size]
      have first : (data.drop offset).take (piece index).length =
          piece index := by
        rw [rest, List.take_left]
      have later : data.drop (offset + (piece index).length) =
          indices.flatMap piece := by
        rw [← List.drop_drop, rest, List.drop_left]
      rw [first, induction later]

theorem length_flatMap_width {base rem : ℕ} {piece : ℕ → Bytes}
    (widths : ∀ index, (piece index).length = width base rem index)
    (indices : List ℕ) :
    (indices.flatMap piece).length =
      base * indices.length + (indices.filter (· < rem)).length := by
  induction indices with
  | nil => rfl
  | cons index indices induction =>
      rw [List.flatMap_cons, List.length_append, induction, widths,
        total_cons]

/-- Every shard has its width. -/
theorem lengths_shardsFrom (data : Bytes) (base rem offset : ℕ)
    (indices : List ℕ) (enough : offset + (base * indices.length +
      (indices.filter (· < rem)).length) ≤ data.length) :
    (shardsFrom data base rem offset indices).map List.length =
      indices.map (width base rem) := by
  induction indices generalizing offset with
  | nil => rfl
  | cons index indices induction =>
      rw [total_cons] at enough
      have fits : width base rem index ≤ (data.drop offset).length := by
        rw [List.length_drop]
        omega
      rw [shardsFrom, List.map_cons, List.map_cons]
      change ((data.drop offset).take (width base rem index)).length ::
        (shardsFrom data base rem (offset + width base rem index)
          indices).map List.length = _
      rw [List.length_take, Nat.min_eq_left fits,
        induction (offset + width base rem index) (by omega)]

/-- The shards of a file have the widths of its division. -/
theorem lengths_split_file_bytes {data : Bytes} {num_partitions : ℕ}
    (positive : 1 ≤ num_partitions) {shards : List Bytes}
    (split : split_file_bytes data num_partitions = .ok shards) :
    shards.map List.length = (List.range num_partitions).map
      (width (data.length / num_partitions)
        (data.length % num_partitions)) := by
  rw [split_file_bytes_eq data positive] at split
  obtain rfl := Except.ok.inj split
  apply lengths_shardsFrom
  have small : data.length % num_partitions ≤ num_partitions :=
    (Nat.mod_lt _ positive).le
  rw [List.length_range, length_filter_range _ _ small, Nat.zero_add,
    Nat.div_add_mod']

end Widths

section Misplaced

variable {base rem count : ℕ}

/-- The first byte of a shard: it tells two of them from the others. -/
def mark (index : ℕ) : UInt8 :=
  if index = 10001 then 1 else if index = 100000 then 2 else 0

/-- A shard of zeros behind its mark. -/
def markedShard (base rem index : ℕ) : Bytes :=
  match width base rem index with
  | 0 => []
  | rest + 1 => mark index :: List.replicate rest 0

theorem length_markedShard (index : ℕ) :
    (markedShard base rem index).length = width base rem index := by
  unfold markedShard
  cases width base rem index with
  | zero => rfl
  | succ rest => rw [List.length_cons, List.length_replicate]

/-- The file whose shards are marked. -/
def markedData (length num_partitions : ℕ) : Bytes :=
  (List.range num_partitions).flatMap (markedShard
    (length / num_partitions) (length % num_partitions))

theorem length_markedData (length : ℕ) {num_partitions : ℕ}
    (positive : 1 ≤ num_partitions) :
    (markedData length num_partitions).length = length := by
  have small : length % num_partitions ≤ num_partitions :=
    (Nat.mod_lt _ positive).le
  rw [markedData, length_flatMap_width (fun index => length_markedShard index),
    List.length_range, length_filter_range _ _ small, Nat.div_add_mod']

/-- The marked shards are the shards of the marked file. -/
theorem split_markedData (length : ℕ) {num_partitions : ℕ}
    (positive : 1 ≤ num_partitions) :
    split_file_bytes (markedData length num_partitions) num_partitions =
      .ok ((List.range num_partitions).map (markedShard
        (length / num_partitions) (length % num_partitions))) := by
  rw [split_file_bytes_eq _ positive, length_markedData length positive,
    shardsFrom_flatMap (fun index => length_markedShard index)]
  exact List.drop_zero

/-- The marks of a shard, without the zeros. -/
def marks (index : ℕ) : Bytes :=
  if index = 10001 then [1] else if index = 100000 then [2] else []

/-- The two marked indices. -/
def isMarked (index : ℕ) : Bool := index = 10001 || index = 100000

theorem filter_markedShard {index : ℕ}
    (wide : isMarked index = true → 0 < width base rem index) :
    (markedShard base rem index).filter (· ≠ 0) = marks index := by
  have zeros : ∀ rest, (List.replicate rest (0 : UInt8)).filter (· ≠ 0) =
      [] := by
    intro rest
    exact List.filter_replicate_of_neg (by simp)
  unfold markedShard
  cases size : width base rem index with
  | zero =>
      have unmarked : isMarked index = false := by
        rw [Bool.eq_false_iff]
        intro marked
        have positive := wide marked
        omega
      simp only [isMarked, Bool.or_eq_false_iff, decide_eq_false_iff_not]
        at unmarked
      rw [marks, if_neg unmarked.1, if_neg unmarked.2]
      rfl
  | succ rest =>
      dsimp only
      rw [List.filter_cons, zeros, mark, marks]
      split_ifs <;> simp_all

/-- The marks in some order of the indices. -/
theorem filter_flatMap_markedShard {indices : List ℕ}
    (wide : ∀ index, isMarked index = true → 0 < width base rem index) :
    (indices.flatMap (markedShard base rem)).filter (· ≠ 0) =
      (indices.filter isMarked).flatMap marks := by
  have unmarked : ∀ index ∈ indices, isMarked index = false →
      marks index = [] := by
    intro index _ plain
    simp only [isMarked, Bool.or_eq_false_iff, decide_eq_false_iff_not]
      at plain
    rw [marks, if_neg plain.1, if_neg plain.2]
  rw [flatMap_filter isMarked unmarked, List.filter_flatMap]
  apply List.flatMap_congr
  intro index _
  exact filter_markedShard (wide index)

theorem marked_perm (large : 100000 < count) :
    [10001, 100000].Perm ((List.range count).filter isMarked) := by
  rw [List.perm_ext_iff_of_nodup (by decide)
    (List.nodup_range.filter isMarked)]
  intro index
  rw [List.mem_filter, List.mem_range, isMarked, Bool.or_eq_true,
    decide_eq_true_eq, decide_eq_true_eq, List.mem_cons, List.mem_singleton]
  omega

/-- In the order of the indices the first mark stands first. -/
theorem filter_range_isMarked (large : 100000 < count) :
    (List.range count).filter isMarked = [10001, 100000] := by
  apply (marked_perm large).symm.eq_of_pairwise
    (fun left right _ _ low high => le_antisymm low high)
  · apply List.Pairwise.filter
    exact List.pairwise_lt_range.imp fun less => less.le
  · decide

theorem part_name_before : part_name 100000 ≤ part_name 10001 := by
  decide +kernel

/-- In the order of the names it stands behind the other. -/
theorem filter_nameOrder_isMarked (large : 100000 < count) :
    (nameOrder count).filter isMarked = [100000, 10001] := by
  apply filter_sortedByText injective_part_name
  · exact (List.Perm.swap _ _ _).trans (marked_perm large)
  · simpa using part_name_before

end Misplaced

/-- The parts of a cut file, read in the order they are listed in, give the
file back. -/
def Reassembles (data : Bytes) (num_partitions : ℕ) : Prop :=
  ∃ shards, split_file_bytes data num_partitions = .ok shards ∧
    concatenated (shardLayout shards)
      (list_part_shards (shardLayout shards)) = data

/-- What holds of the shards of every file. -/
structure WellCut (data : Bytes) (num_partitions : ℕ)
    (shards : List Bytes) : Prop where
  count : shards.length = num_partitions
  even : ∀ left ∈ shards, ∀ right ∈ shards, left.length ≤ right.length + 1
  whole : shards.flatten = data
  found : part_inputs (shardLayout shards) num_partitions =
    some (list_part_shards (shardLayout shards))
  listed : (list_part_shards (shardLayout shards)).length = num_partitions

section Reading

variable {data : Bytes} {num_partitions : ℕ}

theorem wellCut (positive : 1 ≤ num_partitions) {shards : List Bytes}
    (split : split_file_bytes data num_partitions = .ok shards) :
    WellCut data num_partitions shards := by
  obtain ⟨count, whole⟩ := split_file_bytes_ok split
  have parted := parted_shardLayout shards
  rw [count] at parted
  obtain ⟨found, listed⟩ := part_inputs_eq parted
  have lengths := lengths_split_file_bytes positive split
  have sized : ∀ shard ∈ shards, ∃ index, shard.length =
      width (data.length / num_partitions)
        (data.length % num_partitions) index := by
    intro shard member
    have length := List.mem_map_of_mem (f := List.length) member
    rw [lengths] at length
    obtain ⟨index, _, same⟩ := List.mem_map.mp length
    exact ⟨index, same.symm⟩
  constructor
  · exact count
  · intro left leftMember right rightMember
    obtain ⟨one, leftSize⟩ := sized left leftMember
    obtain ⟨other, rightSize⟩ := sized right rightMember
    rw [leftSize, rightSize, width, width]
    split_ifs <;> omega
  · exact whole
  · exact found
  · exact listed

/-- With names of five digits, or no more bytes than there are such names, the
parts give the file back. -/
theorem reassembles (positive : 1 ≤ num_partitions)
    (small : num_partitions ≤ 100000 ∨ data.length ≤ 100000) :
    Reassembles data num_partitions := by
  obtain ⟨shards, split⟩ := split_file_bytes_returns data positive
  obtain ⟨count, whole⟩ := split_file_bytes_ok split
  refine ⟨shards, split, ?_⟩
  rw [concatenated_of_small, whole]
  intro index large
  by_cases inside : index < shards.length
  · have lengths := lengths_split_file_bytes positive split
    have size := congrArg (fun sizes => sizes[index]?) lengths
    rw [List.getElem?_map, List.getElem?_map,
      List.getElem?_range (count ▸ inside), Option.map_some] at size
    rw [List.getElem?_eq_getElem inside] at size ⊢
    have few : data.length < num_partitions := by omega
    rw [Option.map_some, Option.some.injEq, width, Nat.div_eq_of_lt few,
      Nat.mod_eq_of_lt few, if_neg (by omega)] at size
    exact List.length_eq_zero_iff.mp size
  · rw [List.getElem?_eq_none (not_lt.mp inside)]
    rfl

/-- Of more parts, and more bytes, the marked file is not given back. -/
theorem not_reassembles_markedData {length : ℕ}
    (parts : 100000 < num_partitions) (bytes : 100000 < length) :
    ¬ Reassembles (markedData length num_partitions) num_partitions := by
  intro reassembles
  obtain ⟨shards, split, back⟩ := reassembles
  have positive : 1 ≤ num_partitions := by omega
  rw [split_markedData length positive] at split
  obtain rfl := Except.ok.inj split
  have wide : ∀ index, isMarked index = true → 0 < width
      (length / num_partitions) (length % num_partitions) index := by
    intro index marked
    rw [isMarked, Bool.or_eq_true, decide_eq_true_eq,
      decide_eq_true_eq] at marked
    rw [width]
    by_cases few : length < num_partitions
    · rw [Nat.mod_eq_of_lt few, if_pos (by omega)]
      exact Nat.succ_pos _
    · have one := Nat.div_pos (not_lt.mp few) positive
      exact Nat.add_pos_left one _
  have inside : ∀ index ∈ nameOrder num_partitions,
      (((List.range num_partitions).map (markedShard
        (length / num_partitions) (length % num_partitions)))[index]?).getD [] =
        markedShard (length / num_partitions) (length % num_partitions)
          index := by
    intro index member
    have bound := List.mem_range.mp ((sortedByText_perm _).mem_iff.mp member)
    rw [List.getElem?_map, List.getElem?_range bound]
    rfl
  rw [concatenated_shardLayout, List.length_map, List.length_range,
    List.flatMap_congr inside] at back
  have marks := congrArg (List.filter fun byte : UInt8 => byte ≠ 0) back
  rw [markedData, filter_flatMap_markedShard wide,
    filter_flatMap_markedShard wide, filter_nameOrder_isMarked parts,
    filter_range_isMarked parts] at marks
  revert marks
  decide

end Reading

/-- Every file is cut into as many nearly equal shards as asked for, all of
which the readers find; and the files of a length are given back exactly when
the names have five digits or no more bytes than those can be cut. -/
theorem shards_reassemble_iff (length : ℕ) {num_partitions : ℕ}
    (positive : 1 ≤ num_partitions) :
    (∀ data, ∃ shards, split_file_bytes data num_partitions = .ok shards ∧
      WellCut data num_partitions shards) ∧
    ((∀ data : Bytes, data.length = length →
        Reassembles data num_partitions) ↔
      num_partitions ≤ 100000 ∨ length ≤ 100000) := by
  constructor
  · intro data
    obtain ⟨shards, split⟩ := split_file_bytes_returns data positive
    exact ⟨shards, split, wellCut positive split⟩
  · constructor
    · intro every
      by_contra neither
      obtain ⟨parts, bytes⟩ := not_or.mp neither
      exact not_reassembles_markedData (not_le.mp parts) (not_le.mp bytes)
        (every _ (length_markedData length positive))
    · intro small data same
      apply reassembles positive
      rw [same]
      exact small

theorem shards_reassemble_iff_three :
    (∀ data, ∃ shards, split_file_bytes data 3 = .ok shards ∧
      WellCut data 3 shards) ∧
    ((∀ data : Bytes, data.length = 7 → Reassembles data 3) ↔
      3 ≤ 100000 ∨ 7 ≤ 100000) :=
  shards_reassemble_iff 7 (by decide)

/-- One byte for each of 100001 parts: the last one is read before ninety
thousand others. -/
theorem last_shard_misplaced :
    ¬ Reassembles (markedData 100001 100001) 100001 :=
  not_reassembles_markedData (by decide) (by decide)

end ShardOrder

end Cats
