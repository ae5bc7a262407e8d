import Mathlib.Algebra.BigOperators.Ring.Finset
import RegionNet.Proofs.Blocks

namespace RegionNet

/-!
# Node addressing

Nodes are numbered in mixed radix with the first axis varying fastest: a coordinate's index is
the sum of its entries, each weighted by the product of the axes before it
(`Dimensions.weightedIndex`). `coordinate` reads an index's digits off the axes, and `index`
computes the weighted sum in a word.

Every index `index` returns is the exact weighted sum: it computes the sum in overflow-checked
words, and panics where a step passes the word, which every coordinate of axes whose product does
not fit in a word reaches (`Dimensions.node_addressing_exact_or_panics`). Where the number of
nodes fits in a word, coordinates and indices are mutually inverse bijections between the
indices below the count and the coordinates inside the axes, and each fails exactly outside that
range.
-/

namespace Dimensions

/-- The index the first-axis-fastest numbering gives a coordinate: each entry weighted by the
product of the axes before it. -/
def weightedIndex (axes coordinate : List Nat) : Nat :=
  ∑ k ∈ Finset.range coordinate.length, coordinate.getD k 0 * (axes.take k).prod

/-- The recursive index of a coordinate with one entry per axis is its weighted sum. -/
theorem place_eq_weightedIndex
    {axes coordinate : List Nat}
    (sameLength : coordinate.length = axes.length) :
    place axes coordinate = weightedIndex axes coordinate := by
  induction axes generalizing coordinate with
  | nil =>
      rw [List.length_nil, List.length_eq_zero_iff] at sameLength
      subst sameLength
      rfl
  | cons a rest inductionHypothesis =>
      cases coordinate with
      | nil =>
          simp at sameLength
      | cons x xs =>
          have tailLength : xs.length = rest.length := by simpa using sameLength
          -- the first entry has weight one, every later weight gains the factor `a`
          rw [place, inductionHypothesis tailLength, weightedIndex, weightedIndex,
            List.length_cons, Finset.sum_range_succ', Finset.mul_sum]
          simp only [List.getD_cons_succ, List.take_succ_cons, List.prod_cons, List.getD_cons_zero,
            List.take_zero, List.prod_nil, Nat.mul_one]
          rw [Nat.add_comm]
          congr 1
          refine Finset.sum_congr rfl fun k _ => ?_
          rw [Nat.mul_left_comm]

/-- A coordinate of specified dimensions has an index exactly when it has one entry per axis, each
below its axis, and the nodes are numbered in a word; the index is then the weighted sum. -/
theorem index_eq_ok_iff
    {d : Dimensions}
    (specified : d.isSpecified = true)
    {coordinate : List Nat}
    {node : Nat} :
    d.index coordinate = .ok node ↔
      List.Forall₂ (· < ·) coordinate d.axes ∧ d.product < wordSize ∧
        node = weightedIndex d.axes coordinate := by
  constructor
  · intro indexed
    obtain ⟨inside, fits, rfl⟩ := index_eq_ok indexed
    exact ⟨inside, fits, place_eq_weightedIndex inside.length_eq⟩
  · rintro ⟨inside, fits, rfl⟩
    rw [index_of_forall₂ specified inside fits, place_eq_weightedIndex inside.length_eq]

/-- A node has a coordinate exactly when it lies below the count; the coordinate is its digits. -/
theorem coordinate_eq_ok_iff
    {d : Dimensions}
    {node : Nat}
    {coordinate : List Nat} :
    d.coordinate node = .ok coordinate ↔ node < d.count ∧ coordinate = digits d.axes node := by
  unfold Dimensions.coordinate
  split
  · rename_i below
    simp [below, eq_comm]
  · rename_i notBelow
    simp [notBelow]

/-- Specified dimensions whose count passes the word check number their nodes in a word. -/
theorem product_lt_of_checkedCount
    {d : Dimensions}
    (specified : d.isSpecified = true)
    {total : Nat}
    (counted : d.checkedCount = .ok total) :
    total = d.product ∧ d.product < wordSize := by
  unfold checkedCount at counted
  simp only [specified, Bool.not_true, Bool.false_eq_true, ↓reduceIte] at counted
  split at counted
  · rename_i fits
    exact ⟨(Except.ok.inj counted).symm, fits⟩
  · cases counted

/-- The weighted index of a coordinate inside the axes lies below their product. -/
theorem weightedIndex_lt_product
    {d : Dimensions}
    {coordinate : List Nat}
    (inside : List.Forall₂ (· < ·) coordinate d.axes) :
    weightedIndex d.axes coordinate < d.product := by
  rw [← place_eq_weightedIndex inside.length_eq]
  exact place_lt_product inside

/--
Node addressing of specified dimensions. An index `index` gives is the exact weighted sum of the
coordinate, never a sum reduced to the word; where the nodes cannot be numbered in a word, every
coordinate inside the axes makes `index` panic on an overflowing step. Where the checked count
succeeds, it is the count; a node has a coordinate exactly when it lies below the count, and a
coordinate has an index exactly when it has one entry per axis, each below its axis. Coordinates
and indices are then mutually inverse: the coordinate of a node lies inside the axes and indexes
back to the node, and a coordinate inside the axes has its weighted sum as index, below the count,
with itself as that node's coordinate.
-/
theorem node_addressing_exact_or_panics
    {d : Dimensions}
    (specified : d.isSpecified = true) :
    (∀ coordinate node, d.index coordinate = .ok node → node = weightedIndex d.axes coordinate) ∧
    (wordSize ≤ d.product → ∀ coordinate, List.Forall₂ (· < ·) coordinate d.axes →
      PanicsOverflowing (d.index coordinate)) ∧
    (∀ total, d.checkedCount = .ok total →
      total = d.count ∧
      (∀ node, (∃ coordinate, d.coordinate node = .ok coordinate) ↔ node < d.count) ∧
      (∀ coordinate, (∃ node, d.index coordinate = .ok node) ↔
        List.Forall₂ (· < ·) coordinate d.axes) ∧
      (∀ node coordinate, d.coordinate node = .ok coordinate →
        List.Forall₂ (· < ·) coordinate d.axes ∧ d.index coordinate = .ok node) ∧
      (∀ coordinate, List.Forall₂ (· < ·) coordinate d.axes →
        d.index coordinate = .ok (weightedIndex d.axes coordinate) ∧
        weightedIndex d.axes coordinate < d.count ∧
        d.coordinate (weightedIndex d.axes coordinate) = .ok coordinate)) := by
  refine ⟨fun coordinate node indexed => ((index_eq_ok_iff specified).mp indexed).2.2,
    fun overflows coordinate inside => index_panics specified inside overflows, fun total counted => ?_⟩
  obtain ⟨exact, fits⟩ := product_lt_of_checkedCount specified counted
  have counts : d.count = d.product := count_eq_product specified fits
  have positive : ∀ a ∈ d.axes, 0 < a := fun a member => pos_of_isSpecified specified member
  refine ⟨counts ▸ exact, ?_, ?_, ?_, ?_⟩
  · intro node
    constructor
    · rintro ⟨coordinate, found⟩
      exact (coordinate_eq_ok_iff.mp found).1
    · intro below
      exact ⟨_, coordinate_eq_ok_iff.mpr ⟨below, rfl⟩⟩
  · intro coordinate
    constructor
    · rintro ⟨node, indexed⟩
      exact ((index_eq_ok_iff specified).mp indexed).1
    · intro inside
      exact ⟨_, (index_eq_ok_iff specified).mpr ⟨inside, fits, rfl⟩⟩
  · intro node coordinate found
    obtain ⟨below, rfl⟩ := coordinate_eq_ok_iff.mp found
    have inside := digits_forall₂_lt d.axes positive node
    refine ⟨inside, (index_eq_ok_iff specified).mpr ⟨inside, fits, ?_⟩⟩
    rw [← place_eq_weightedIndex inside.length_eq,
      place_digits d.axes (show node < d.product from counts ▸ below)]
  · intro coordinate inside
    have below : weightedIndex d.axes coordinate < d.count :=
      counts ▸ weightedIndex_lt_product inside
    refine ⟨(index_eq_ok_iff specified).mpr ⟨inside, fits, rfl⟩, below,
      coordinate_eq_ok_iff.mpr ⟨below, ?_⟩⟩
    rw [← place_eq_weightedIndex inside.length_eq, digits_place inside]

/-- A three-by-two grid: its count fits, and the node `[1, 1]` has index four. -/
theorem three_by_two_addressing :
    (⟨[3, 2]⟩ : Dimensions).isSpecified = true ∧
      (⟨[3, 2]⟩ : Dimensions).checkedCount = .ok 6 ∧
      (⟨[3, 2]⟩ : Dimensions).index [1, 1] = .ok 4 :=
  let specified : (⟨[3, 2]⟩ : Dimensions).isSpecified = true := by decide
  let counted : (⟨[3, 2]⟩ : Dimensions).checkedCount = .ok 6 := by decide
  ⟨specified, counted, by
    have addressed := ((node_addressing_exact_or_panics specified).2.2 6 counted).2.2.2.2 [1, 1]
      (by decide)
    simpa [weightedIndex, Finset.sum_range_succ] using addressed.1⟩

/-- Past the word the index overflows: the node `[0, 0, 1]` of axes `[2⁶³, 4, 3]` has weighted
index `2⁶⁵`, and `index` panics on the stride `2⁶³ · 4`. -/
theorem index_overflows_past_word :
    weightedIndex [pow2 63, 4, 3] [0, 0, 1] = pow2 65 ∧
      (⟨[pow2 63, 4, 3]⟩ : Dimensions).index [0, 0, 1] =
        .error (.panicked "attempt to multiply with overflow") := by
  refine ⟨?_, by decide⟩
  simp [weightedIndex, Finset.sum_range_succ, pow2]

end Dimensions

end RegionNet
