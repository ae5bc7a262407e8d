import Mathlib.Data.List.Forall2
import RegionNet.Proofs.Ranges

namespace RegionNet

/-!
# Splitter maps are built

A splitter map is built node by node: the coordinate of a destination node gives, per axis, a
range of source coordinates, and every combination of them is a source node whose index is
looked up. Every lookup can fail; this module shows that none does when each axis ratio keeps
its ranges inside the source axis, so that the map is built with one entry per destination
node.
-/

namespace Dimensions

/-- Specified dimensions have positive axes. -/
theorem pos_of_isSpecified
    {d : Dimensions}
    (specified : d.isSpecified = true)
    {a : Nat}
    (member : a ∈ d.axes) :
    0 < a := by
  simp only [isSpecified, Bool.and_eq_true, Bool.not_eq_true', List.isEmpty_eq_false_iff,
    List.all_eq_true, decide_eq_true_eq] at specified
  exact specified.2 a member

/-- Every digit of an index lies below its axis. -/
theorem digits_forall₂_lt
    (axes : List Nat)
    (positive : ∀ a ∈ axes, 0 < a)
    (index : Nat) :
    List.Forall₂ (· < ·) (digits axes index) axes := by
  induction axes generalizing index with
  | nil =>
      exact .nil
  | cons a rest inductionHypothesis =>
      have headPositive : 0 < a := positive a (by simp)
      exact .cons (Nat.mod_lt index headPositive)
        (inductionHypothesis (fun b member => positive b (by simp [member])) (index / a))

/-- A node below the count has its digits as coordinate. -/
theorem coordinate_of_lt
    (d : Dimensions)
    {node : Nat}
    (below : node < d.count) :
    d.coordinate node = .ok (digits d.axes node) := by
  simp [coordinate, below]

/-- A coordinate inside the axes has an index below the number of nodes. -/
theorem place_lt_product
    {axes coordinate : List Nat}
    (inside : List.Forall₂ (· < ·) coordinate axes) :
    place axes coordinate < axes.foldr (· * ·) 1 := by
  induction inside with
  | nil =>
      simp [place]
  | @cons c a cs rest below _ inductionHypothesis =>
      -- the tail's index leaves room for one more row of `a` nodes
      have room := Nat.mul_le_mul_left a inductionHypothesis
      rw [Nat.mul_add_one] at room
      simp only [place, List.foldr_cons]
      omega

/-- Axes that hold a coordinate are positive, so their product is too. -/
theorem product_pos_of_forall₂
    {axes coordinate : List Nat}
    (inside : List.Forall₂ (· < ·) coordinate axes) :
    0 < axes.foldr (· * ·) 1 := by
  induction inside with
  | nil =>
      decide
  | @cons c a cs rest below _ inductionHypothesis =>
      exact Nat.mul_pos (Nat.lt_of_le_of_lt (Nat.zero_le c) below) inductionHypothesis

/-- Along axes that hold a coordinate, the index loop adds the coordinate's index times the
stride, when the stride times the axes' product stays within a word: no step overflows. -/
theorem indexFrom_of_forall₂
    {axes coordinate : List Nat}
    (inside : List.Forall₂ (· < ·) coordinate axes) :
    ∀ {index stride : Nat}, index < stride → stride * axes.foldr (· * ·) 1 < wordSize →
      indexFrom axes coordinate index stride = .ok (index + stride * place axes coordinate) := by
  induction inside with
  | nil =>
      intro index stride _ _
      simp [indexFrom, place]
  | @cons c a cs rest below restInside inductionHypothesis =>
      intro index stride ahead fits
      have restPositive := product_pos_of_forall₂ restInside
      simp only [List.foldr_cons] at fits
      -- the stride grows to `stride * a`, still within the word, and the index stays below it
      have grown : stride * a < wordSize :=
        Nat.lt_of_le_of_lt (Nat.le_mul_of_pos_right _ restPositive) (by rwa [Nat.mul_assoc])
      have term : c * stride + stride ≤ stride * a := by
        have := Nat.mul_le_mul_right stride below
        rw [Nat.succ_mul, Nat.mul_comm a] at this
        exact this
      have termFits : c * stride < pow2 64 := by
        show c * stride < wordSize
        omega
      have sumFits : index + c * stride < pow2 64 := by
        show index + c * stride < wordSize
        omega
      have next := @inductionHypothesis (index + c * stride) (stride * a) (by omega)
        (by rw [Nat.mul_assoc]; exact fits)
      simp only [indexFrom, below, ↓reduceIte, mulOrPanic_of_lt termFits, addOrPanic_of_lt sumFits,
        mulOrPanic_of_lt (show stride * a < pow2 64 from grown), bind, Except.bind, next, place,
        Except.ok.injEq]
      rw [Nat.mul_add, Nat.mul_comm c stride, Nat.mul_assoc]
      omega

/-- A coordinate with each entry below its axis has its place as index, when the nodes of the
dimensions can be numbered in a word. -/
theorem index_of_forall₂
    {d : Dimensions}
    (specified : d.isSpecified = true)
    {coordinate : List Nat}
    (inside : List.Forall₂ (· < ·) coordinate d.axes)
    (fits : d.product < wordSize) :
    d.index coordinate = .ok (place d.axes coordinate) := by
  have sameLength : coordinate.length = d.rank := inside.length_eq
  have looped := @indexFrom_of_forall₂ d.axes coordinate inside 0 1 Nat.one_pos
    (by rw [Nat.one_mul]; exact fits)
  simp only [index, sameLength, bne_self_eq_false, specified, Bool.not_true, Bool.or_self,
    Bool.false_eq_true, ↓reduceIte, looped, Nat.zero_add, Nat.one_mul]

/-- The index loop panics with an overflow of its addition or of a multiplication. -/
def PanicsOverflowing (result : Except DataError Nat) : Prop :=
  result = .error (.panicked "attempt to add with overflow") ∨
    result = .error (.panicked "attempt to multiply with overflow")

/-- Along axes that hold a coordinate, the index loop panics when the stride times the axes'
product passes the word: the last stride at the latest does not fit. -/
theorem indexFrom_panics
    {axes coordinate : List Nat}
    (inside : List.Forall₂ (· < ·) coordinate axes) :
    ∀ {index stride : Nat}, index < stride → stride < wordSize →
      wordSize ≤ stride * axes.foldr (· * ·) 1 →
      PanicsOverflowing (indexFrom axes coordinate index stride) := by
  induction inside with
  | nil =>
      intro index stride _ small large
      simp only [List.foldr_nil, Nat.mul_one] at large
      omega
  | @cons c a cs rest below restInside inductionHypothesis =>
      intro index stride ahead small large
      -- each of the three word operations of this axis either panics or stays in the word
      rcases mulOrPanic_ok_or_panics 64 c stride with termOk | termPanics
      · rcases addOrPanic_ok_or_panics 64 index (c * stride) with sumOk | sumPanics
        · rcases mulOrPanic_ok_or_panics 64 stride a with growOk | growPanics
          · have grown : stride * a < wordSize := (mulOrPanic_eq_ok.mp growOk).2
            have term : c * stride + stride ≤ stride * a := by
              have := Nat.mul_le_mul_right stride below
              rw [Nat.succ_mul, Nat.mul_comm a] at this
              exact this
            have panics := @inductionHypothesis (index + c * stride) (stride * a)
              (by omega) grown (by rw [Nat.mul_assoc]; simpa using large)
            simpa [PanicsOverflowing, indexFrom, below, termOk, sumOk, growOk, bind, Except.bind]
              using panics
          · exact .inr (by simp [indexFrom, below, termOk, sumOk, growPanics, bind, Except.bind])
        · exact .inl (by simp [indexFrom, below, termOk, sumPanics, bind, Except.bind])
      · exact .inr (by simp [indexFrom, below, termPanics, bind, Except.bind])

/-- A coordinate with each entry below its axis makes `index` panic when the nodes of the
dimensions cannot be numbered in a word. -/
theorem index_panics
    {d : Dimensions}
    (specified : d.isSpecified = true)
    {coordinate : List Nat}
    (inside : List.Forall₂ (· < ·) coordinate d.axes)
    (overflows : wordSize ≤ d.product) :
    PanicsOverflowing (d.index coordinate) := by
  have sameLength : coordinate.length = d.rank := inside.length_eq
  have looped := @indexFrom_panics d.axes coordinate inside 0 1 Nat.one_pos
    (by decide) (by rw [Nat.one_mul]; exact overflows)
  simpa only [index, sameLength, bne_self_eq_false, specified, Bool.not_true, Bool.or_self,
    Bool.false_eq_true, ↓reduceIte] using looped

/-- An index loop that finishes went through axes holding the coordinate, with every stride in
the word, and added the coordinate's index times the stride. -/
theorem indexFrom_eq_ok
    {axes coordinate : List Nat}
    (sameLength : coordinate.length = axes.length) :
    ∀ {index stride node : Nat}, stride < wordSize →
      indexFrom axes coordinate index stride = .ok node →
      List.Forall₂ (· < ·) coordinate axes ∧ stride * axes.foldr (· * ·) 1 < wordSize ∧
        node = index + stride * place axes coordinate := by
  induction axes generalizing coordinate with
  | nil =>
      rw [List.length_nil, List.length_eq_zero_iff] at sameLength
      subst sameLength
      intro index stride node small looped
      simp only [indexFrom, Except.ok.injEq] at looped
      exact ⟨.nil, by simpa using small, by simp [place, looped]⟩
  | cons a rest inductionHypothesis =>
      cases coordinate with
      | nil =>
          simp at sameLength
      | cons c cs =>
          have tailLength : cs.length = rest.length := by simpa using sameLength
          intro index stride node small looped
          by_cases below : c < a
          · -- the three word operations succeeded, so each stayed in the word
            cases termIs : mulOrPanic 64 c stride with
            | error e => simp [indexFrom, below, termIs, bind, Except.bind] at looped
            | ok term =>
              obtain ⟨rfl, -⟩ := mulOrPanic_eq_ok.mp termIs
              cases sumIs : addOrPanic 64 index (c * stride) with
              | error e => simp [indexFrom, below, termIs, sumIs, bind, Except.bind] at looped
              | ok sum =>
                obtain ⟨rfl, -⟩ := addOrPanic_eq_ok.mp sumIs
                cases growIs : mulOrPanic 64 stride a with
                | error e =>
                    simp [indexFrom, below, termIs, sumIs, growIs, bind, Except.bind] at looped
                | ok grown =>
                  obtain ⟨rfl, grownFits⟩ := mulOrPanic_eq_ok.mp growIs
                  simp only [indexFrom, below, ↓reduceIte, termIs, sumIs, growIs, bind,
                    Except.bind] at looped
                  obtain ⟨restInside, fits, rfl⟩ := inductionHypothesis tailLength grownFits looped
                  refine ⟨.cons below restInside, by rw [List.foldr_cons, ← Nat.mul_assoc]; exact fits,
                    ?_⟩
                  simp only [place]
                  rw [Nat.mul_add, Nat.mul_comm c stride, Nat.mul_assoc]
                  omega
          · simp [indexFrom, below] at looped

/-- An index that is found places a coordinate inside the axes, of dimensions whose nodes are
numbered in a word. -/
theorem index_eq_ok
    {d : Dimensions}
    {coordinate : List Nat}
    {node : Nat}
    (found : d.index coordinate = .ok node) :
    List.Forall₂ (· < ·) coordinate d.axes ∧ d.product < wordSize ∧
      node = place d.axes coordinate := by
  unfold index at found
  split at found
  · cases found
  · rename_i checks
    simp only [Bool.or_eq_true, bne_iff_ne, ne_eq, Bool.not_eq_true', not_or, Decidable.not_not,
      Bool.not_eq_false] at checks
    obtain ⟨inside, fits, rfl⟩ := indexFrom_eq_ok checks.1 (by decide) found
    exact ⟨inside, by simpa [product] using fits, by simp⟩

end Dimensions

/-- A fallible step followed by another succeeds exactly when both do. -/
theorem except_bind_eq_ok
    {ε α β : Type}
    {x : Except ε α}
    {f : α → Except ε β}
    {b : β} :
    x >>= f = .ok b ↔ ∃ a, x = .ok a ∧ f a = .ok b := by
  cases x <;> simp [bind, Except.bind]

/-- A list mapped through a fallible function succeeds exactly when each element does. -/
theorem mapM_except_eq_ok_iff
    {ε α β : Type}
    (f : α → Except ε β)
    (xs : List α)
    (ys : List β) :
    xs.mapM f = .ok ys ↔ List.Forall₂ (fun x y => f x = .ok y) xs ys := by
  induction xs generalizing ys with
  | nil =>
      cases ys <;> simp [pure, Except.pure]
  | cons x rest inductionHypothesis =>
      rw [List.mapM_cons]
      cases headResult : f x with
      | error e =>
          cases ys <;> simp [bind, Except.bind, headResult]
      | ok y =>
          -- the tail's outcome decides, through the induction hypothesis read backwards
          cases restResult : rest.mapM f with
          | error e =>
              cases ys <;>
                simp [bind, Except.bind, ← inductionHypothesis, restResult, headResult]
          | ok tail =>
              cases ys <;>
                simp [bind, Except.bind, pure, Except.pure, ← inductionHypothesis,
                  restResult, headResult]

/-- A list mapped through a function that succeeds on each element gives a list as long. -/
theorem mapM_except_ok_of_forall
    {ε α β : Type}
    (f : α → Except ε β)
    (xs : List α)
    (succeeds : ∀ x ∈ xs, ∃ y, f x = .ok y) :
    ∃ ys, xs.mapM f = .ok ys ∧ ys.length = xs.length := by
  induction xs with
  | nil =>
      exact ⟨[], rfl, rfl⟩
  | cons x rest inductionHypothesis =>
      obtain ⟨y, headResult⟩ := succeeds x (by simp)
      obtain ⟨tail, restResult, tailLength⟩ :=
        inductionHypothesis (fun z member => succeeds z (by simp [member]))
      refine ⟨y :: tail, ?_, by simp [tailLength]⟩
      simp [List.mapM_cons, bind, Except.bind, headResult, restResult, pure, Except.pure]

/-- A list mapped through a fallible function succeeds exactly when each element does. -/
theorem mapM_except_ok_iff_forall
    {ε α β : Type}
    (f : α → Except ε β)
    (xs : List α) :
    (∃ ys, xs.mapM f = .ok ys) ↔ ∀ x ∈ xs, ∃ y, f x = .ok y := by
  constructor
  · rintro ⟨ys, mapped⟩
    -- each element is paired with the result it gave
    have paired := (mapM_except_eq_ok_iff f xs ys).mp mapped
    clear mapped
    intro x member
    induction paired with
    | nil =>
        simp at member
    | @cons a b rest restYs headOk _ inductionHypothesis =>
        rcases List.mem_cons.mp member with rfl | inRest
        · exact ⟨b, headOk⟩
        · exact inductionHypothesis inRest
  · intro succeeds
    obtain ⟨ys, mapped, -⟩ := mapM_except_ok_of_forall f xs succeeds
    exact ⟨ys, mapped⟩

namespace Link

/-- A member of a block has one coordinate per range, each inside its range. -/
theorem mem_blockCoordinates
    {ranges : List NodeRange}
    {coordinate : List Nat} :
    coordinate ∈ blockCoordinates ranges ↔
      List.Forall₂ (fun c r => c ∈ r.toList) coordinate ranges := by
  induction ranges generalizing coordinate with
  | nil =>
      cases coordinate <;> simp [blockCoordinates]
  | cons r rest inductionHypothesis =>
      cases coordinate with
      | nil =>
          simp [blockCoordinates]
      | cons c tail =>
          simp only [blockCoordinates, List.mem_flatMap, List.mem_map, List.cons.injEq,
            List.forall₂_cons, ← inductionHypothesis]
          constructor
          · rintro ⟨tail', member, c', inRange, rfl, rfl⟩
            exact ⟨inRange, member⟩
          · rintro ⟨inRange, member⟩
            exact ⟨tail, member, c, inRange, rfl, rfl⟩

/--
Along every axis, the ratio keeps the source range of each destination coordinate below the
destination axis inside the source axis.
-/
def RatiosWithin (ratios : List AxisRatio) (src dest : List Nat) : Prop :=
  ∀ axis (h : axis < ratios.length), ratios[axis].Within (src.getD axis 0) (dest.getD axis 0)

/-- The source ranges a destination coordinate reads, one per axis. -/
def sourceRanges (ratios : List AxisRatio) (coordinate : List Nat) : List NodeRange :=
  (coordinate.zip ratios).map fun (c, r) => r.bounds c

/-- When no range of a destination coordinate is empty, each ends inside its source axis. -/
theorem sourceRanges_within
    {src dest : Dimensions}
    {ratios : List AxisRatio}
    {coordinate : List Nat}
    (sameRank : src.rank = dest.rank)
    (oneRatioPerAxis : ratios.length = dest.rank)
    (within : RatiosWithin ratios src.axes dest.axes)
    (destInside : List.Forall₂ (· < ·) coordinate dest.axes)
    (nonempty : ∀ r ∈ sourceRanges ratios coordinate, r.start < r.stop) :
    List.Forall₂ (fun r a => r.stop ≤ a) (sourceRanges ratios coordinate) src.axes := by
  simp only [Dimensions.rank] at sameRank oneRatioPerAxis
  have coordinateLength := destInside.length_eq
  refine List.forall₂_of_length_eq_of_get (by simp [sourceRanges]; omega)
    fun axis inRanges inSrc => ?_
  have inRatios : axis < ratios.length := by simp [sourceRanges] at inRanges; omega
  have inCoordinate : axis < coordinate.length := by simp [sourceRanges] at inRanges; omega
  have inDest : axis < dest.axes.length := by omega
  have rangeIs : (sourceRanges ratios coordinate).get ⟨axis, inRanges⟩ =
      ratios[axis].bounds coordinate[axis] := by
    simp [sourceRanges]
  have destBelow : coordinate[axis] < dest.axes.getD axis 0 := by
    have below := destInside.get inCoordinate inDest
    simpa [List.getD_eq_getElem?_getD, inDest] using below
  have srcAt : src.axes.get ⟨axis, inSrc⟩ = src.axes.getD axis 0 := by
    simp [List.getD_eq_getElem?_getD, inSrc]
  -- the ratio keeps the axis's range, being non-empty, inside the source axis
  have rangeNonempty := nonempty _ (List.get_mem _ ⟨axis, inRanges⟩)
  rw [rangeIs] at rangeNonempty ⊢
  rw [srcAt]
  exact within axis inRatios coordinate[axis] destBelow rangeNonempty

/--
When no source range of a destination coordinate is empty, every source coordinate of its
block lies inside the source axes.
-/
theorem block_inside_source
    {src dest : Dimensions}
    {ratios : List AxisRatio}
    {coordinate block : List Nat}
    (sameRank : src.rank = dest.rank)
    (oneRatioPerAxis : ratios.length = dest.rank)
    (within : RatiosWithin ratios src.axes dest.axes)
    (destInside : List.Forall₂ (· < ·) coordinate dest.axes)
    (nonempty : ∀ r ∈ sourceRanges ratios coordinate, r.start < r.stop)
    (member : block ∈ blockCoordinates (sourceRanges ratios coordinate)) :
    List.Forall₂ (· < ·) block src.axes := by
  have inRanges := mem_blockCoordinates.mp member
  have stops := sourceRanges_within sameRank oneRatioPerAxis within destInside nonempty
  refine List.forall₂_of_length_eq_of_get (inRanges.length_eq.trans stops.length_eq)
    fun axis inBlock inSrc => ?_
  have inRangesAxis : axis < (sourceRanges ratios coordinate).length :=
    inRanges.length_eq ▸ inBlock
  -- the block's coordinate lies in the axis's range, which ends inside the source axis
  have inRange := inRanges.get inBlock inRangesAxis
  have stop := stops.get inRangesAxis inSrc
  simp only [List.get_eq_getElem, NodeRange.mem_toList] at inRange stop ⊢
  omega

/-! ### Word arithmetic of the ranges -/

/-- Along every axis, the ratio's word arithmetic gives the exact ranges. -/
def RatiosChecked (ratios : List AxisRatio) (dest : List Nat) : Prop :=
  ∀ axis (h : axis < ratios.length), ratios[axis].Checked (dest.getD axis 0)

/-- The ranges of a destination coordinate are computed exactly along checked ratios. -/
theorem ranges_eq_ok
    {dest : List Nat}
    {ratios : List AxisRatio}
    (oneRatioPerAxis : ratios.length = dest.length)
    (checked : RatiosChecked ratios dest)
    {coordinate : List Nat}
    (destInside : List.Forall₂ (· < ·) coordinate dest) :
    (coordinate.zip ratios).mapM (fun (c, r) => liftData (r.sourceRange c)) =
      .ok (sourceRanges ratios coordinate) := by
  have coordinateLength := destInside.length_eq
  rw [sourceRanges, mapM_except_eq_ok_iff, List.forall₂_map_right_iff]
  refine List.forall₂_same.mpr fun ⟨c, r⟩ member => ?_
  obtain ⟨axis, inZip, found⟩ := List.getElem_of_mem member
  simp only [List.getElem_zip, Prod.mk.injEq] at found
  obtain ⟨rfl, rfl⟩ := found
  have inRatios : axis < ratios.length := by simp at inZip; omega
  have below : coordinate[axis] < dest.getD axis 0 := by
    have inDest : axis < dest.length := by omega
    simpa [List.getD_eq_getElem?_getD, inDest] using destInside.get (by omega) inDest
  simp [checked axis inRatios _ below, liftData]

/-- A window computed without a panic is the exact window. -/
theorem Window.window_eq_ok_bounds
    {w : Window}
    {k : Nat}
    {q : NodeRange}
    (found : w.window k = .ok q) :
    q = w.bounds k := by
  unfold Window.window at found
  unfold Window.bounds
  -- every checked step that succeeded gave its exact value
  by_cases spanless : w.span = 0
  · simp only [spanless, ↓reduceIte, except_bind_eq_ok, addOrPanic_eq_ok, mulOrPanic_eq_ok, pure,
      Except.pure, Except.ok.injEq, and_assoc, exists_eq_left, exists_eq_left'] at found
    obtain ⟨-, -, -, -, rfl⟩ := found
    simp [spanless]
  · simp only [spanless, ↓reduceIte, except_bind_eq_ok, addOrPanic_eq_ok, mulOrPanic_eq_ok, pure,
      Except.pure, Except.ok.injEq, and_assoc, exists_eq_left, exists_eq_left'] at found
    obtain ⟨-, -, -, -, -, rfl⟩ := found
    simp [spanless]

/-- A source range computed without a panic is the exact range. -/
theorem AxisRatio.sourceRange_eq_ok
    {r : AxisRatio}
    {c : Nat}
    {q : NodeRange}
    (found : r.sourceRange c = .ok q) :
    q = r.bounds c := by
  cases r with
  | fanOut f =>
      simp only [sourceRange] at found
      split at found
      · cases found
      · simp only [except_bind_eq_ok, addOrPanic_eq_ok, pure, Except.pure, Except.ok.injEq,
          and_assoc, exists_eq_left] at found
        obtain ⟨-, rfl⟩ := found
        rfl
  | fanIn f =>
      simp only [sourceRange, except_bind_eq_ok, addOrPanic_eq_ok, mulOrPanic_eq_ok, pure,
        Except.pure, Except.ok.injEq, and_assoc, exists_eq_left] at found
      obtain ⟨-, -, -, rfl⟩ := found
      rfl
  | gather w => exact Window.window_eq_ok_bounds found
  | scatter w =>
      simp only [sourceRange, pure, Except.pure, Except.ok.injEq] at found
      exact found.symm

/-! ### The block loop -/

/-- The cursors the block loop visits from `cursor` on, in order. -/
def visits (ranges : List NodeRange) (cursor : List Nat) : List (List Nat) :=
  cursor :: match turned : advance ranges cursor with
    | some next =>
      have := turnsLeft_advance turned
      visits ranges next
    | none => []
termination_by turnsLeft ranges cursor

theorem visits_unfold (ranges : List NodeRange) (cursor : List Nat) :
    visits ranges cursor = cursor :: (match advance ranges cursor with
      | some next => visits ranges next
      | none => []) := by
  rw [visits]
  split <;> simp_all

theorem blockLoop_unfold
    (src : Dimensions)
    (elementCount : Nat)
    (ranges : List NodeRange)
    (cursor entry : List Nat) :
    blockLoop src elementCount ranges cursor entry = (do
      let entry ← appendBlock src elementCount entry cursor
      match advance ranges cursor with
      | some next => blockLoop src elementCount ranges next entry
      | none => pure entry) := by
  rw [blockLoop]
  congr 1
  funext entry
  split <;> simp_all

/-- The block loop appends the blocks of the cursors it visits, one after the other. -/
theorem blockLoop_eq_foldlM
    (src : Dimensions)
    (elementCount : Nat)
    (ranges : List NodeRange)
    (cursor entry : List Nat) :
    blockLoop src elementCount ranges cursor entry =
      (visits ranges cursor).foldlM (appendBlock src elementCount) entry := by
  -- by induction on the turns the cursor has left
  induction leftTurns : turnsLeft ranges cursor using Nat.strongRecOn
    generalizing cursor entry with
  | ind turns inductionHypothesis =>
      rw [blockLoop_unfold, visits_unfold, List.foldlM_cons]
      cases appendBlock src elementCount entry cursor with
      | error e => rfl
      | ok entry' =>
          simp only [bind, Except.bind]
          cases turned : advance ranges cursor with
          | none => rfl
          | some next =>
              exact inductionHypothesis _ (leftTurns ▸ turnsLeft_advance turned) next entry' rfl

/-- Along a range, the cursor visits every coordinate from `c` to the end of the range, and then
carries into the axes after it. -/
theorem visits_cons
    {r : NodeRange}
    {rest : List NodeRange}
    {t : List Nat} :
    ∀ {c : Nat}, c < r.stop →
      visits (r :: rest) (c :: t) =
        (List.range' c (r.stop - c)).map (· :: t) ++
          (match advance rest t with
          | some next => visits (r :: rest) (r.start :: next)
          | none => []) := by
  intro c below
  induction remaining : r.stop - c generalizing c with
  | zero =>
      omega
  | succ k inductionHypothesis =>
      rw [visits_unfold]
      by_cases goesUp : c + 1 < r.stop
      · have turned : advance (r :: rest) (c :: t) = some ((c + 1) :: t) := by
          simp [advance, goesUp]
        simp only [turned]
        rw [inductionHypothesis goesUp (by omega), List.range'_succ]
        rfl
      · -- the last coordinate of the range: the cursor carries
        have last : k = 0 := by omega
        subst last
        have turned : advance (r :: rest) (c :: t) = (advance rest t).map (r.start :: ·) := by
          simp [advance, goesUp]
        rw [turned]
        cases advance rest t <;> rfl

/-- From the start of a non-empty first range, the cursor runs through the whole range once for
each cursor of the axes after it. -/
theorem visits_start_cons
    {r : NodeRange}
    (nonempty : r.start < r.stop)
    (rest : List NodeRange)
    (t : List Nat) :
    visits (r :: rest) (r.start :: t) = (visits rest t).flatMap fun tail => r.toList.map (· :: tail) := by
  -- by induction on the turns the cursor of the other axes has left
  induction leftTurns : turnsLeft rest t using Nat.strongRecOn generalizing t with
  | ind turns inductionHypothesis =>
      rw [visits_cons nonempty, visits_unfold rest t, List.flatMap_cons]
      congr 1
      cases turned : advance rest t with
      | none => rfl
      | some next =>
          exact inductionHypothesis _ (leftTurns ▸ turnsLeft_advance turned) next rfl

/-- From the start of every range, the block loop visits exactly the coordinates of the block,
first axis fastest. -/
theorem visits_starts
    {ranges : List NodeRange}
    (nonempty : ∀ r ∈ ranges, r.start < r.stop) :
    visits ranges (ranges.map (·.start)) = blockCoordinates ranges := by
  induction ranges with
  | nil =>
      rw [visits_unfold]
      rfl
  | cons r rest inductionHypothesis =>
      rw [List.map_cons, visits_start_cons (nonempty r (by simp)),
        inductionHypothesis fun q member => nonempty q (by simp [member]), blockCoordinates]

/-- A block has as many coordinates as the product of its ranges' lengths. -/
theorem length_blockCoordinates (ranges : List NodeRange) :
    (blockCoordinates ranges).length = ranges.foldr (fun r acc => (r.stop - r.start) * acc) 1 := by
  induction ranges with
  | nil => rfl
  | cons r rest inductionHypothesis =>
      simp only [blockCoordinates, List.length_flatMap, List.length_map, NodeRange.length_toList,
        List.map_const', List.sum_replicate_nat, List.foldr_cons, ← inductionHypothesis]
      exact Nat.mul_comm _ _

/-- A block of ranges inside some axes has no more coordinates than the axes have nodes. -/
theorem length_blockCoordinates_le
    {ranges : List NodeRange}
    {axes : List Nat}
    (inside : List.Forall₂ (fun r a => r.stop ≤ a) ranges axes) :
    (blockCoordinates ranges).length ≤ axes.foldr (· * ·) 1 := by
  rw [length_blockCoordinates]
  induction inside with
  | nil =>
      exact Nat.le_refl 1
  | @cons r a rest axes' stop _ inductionHypothesis =>
      exact Nat.mul_le_mul (by omega) inductionHypothesis

/-! ### Element blocks -/

/-- The element offsets of the given source nodes, `elementCount` per node. -/
def elementOffsets (elementCount : Nat) (nodes : List Nat) : List Nat :=
  nodes.flatMap fun n => List.range' (n * elementCount) elementCount

section Elements

variable {src : Dimensions} {elementCount : Nat}

/-- One visit appends the elements of the cursor's source node, when the source elements fit in
an allocation and so does the entry after it. -/
theorem appendBlock_eq_ok
    (srcSpecified : src.isSpecified = true)
    (positive : 0 < elementCount)
    (srcRoom : src.product * elementCount * 8 ≤ isizeMax)
    {entry cursor : List Nat}
    (inside : List.Forall₂ (· < ·) cursor src.axes)
    (entryRoom : (entry.length + elementCount) * 8 ≤ isizeMax) :
    appendBlock src elementCount entry cursor =
      .ok (entry ++ List.range' (Dimensions.place src.axes cursor * elementCount) elementCount) := by
  have node : Dimensions.place src.axes cursor < src.product := Dimensions.place_lt_product inside
  have wordFits : isizeMax < wordSize := by decide
  have elements : src.product * elementCount < wordSize := by omega
  have fits : src.product < wordSize :=
    Nat.lt_of_le_of_lt (Nat.le_mul_of_pos_right _ positive) elements
  -- the node's last element lies below the source's, so no word operation overflows
  have upper : (Dimensions.place src.axes cursor + 1) * elementCount ≤ src.product * elementCount :=
    Nat.mul_le_mul_right _ node
  have lower : Dimensions.place src.axes cursor * elementCount ≤
      (Dimensions.place src.axes cursor + 1) * elementCount :=
    Nat.mul_le_mul_right _ (Nat.le_succ _)
  have width : (Dimensions.place src.axes cursor + 1) * elementCount -
      Dimensions.place src.axes cursor * elementCount = elementCount := by
    rw [Nat.succ_mul]
    omega
  simp only [appendBlock, Dimensions.index_of_forall₂ srcSpecified inside fits, bind, Except.bind,
    mulOrPanic_of_lt (show Dimensions.place src.axes cursor * elementCount < pow2 64 by
      show _ < wordSize; omega),
    addOrPanic_of_lt (show Dimensions.place src.axes cursor + 1 < pow2 64 by
      show _ < wordSize; omega),
    mulOrPanic_of_lt (show (Dimensions.place src.axes cursor + 1) * elementCount < pow2 64 by
      show _ < wordSize; omega),
    width, reserveOrPanic_of_le entryRoom, pure, Except.pure]

/-- Visiting cursors inside the source appends their elements, node after node, when every entry
fits in an allocation. -/
theorem foldlM_appendBlock
    (srcSpecified : src.isSpecified = true)
    (positive : 0 < elementCount)
    (srcRoom : src.product * elementCount * 8 ≤ isizeMax)
    {cursors : List (List Nat)}
    (inside : ∀ cursor ∈ cursors, List.Forall₂ (· < ·) cursor src.axes) :
    ∀ {entry : List Nat}, (entry.length + cursors.length * elementCount) * 8 ≤ isizeMax →
      cursors.foldlM (appendBlock src elementCount) entry =
        .ok (entry ++ elementOffsets elementCount (cursors.map (Dimensions.place src.axes))) := by
  induction cursors with
  | nil =>
      intro entry _
      simp [elementOffsets, pure, Except.pure]
  | cons cursor rest inductionHypothesis =>
      intro entry room
      simp only [List.length_cons, Nat.succ_mul] at room
      have appended : appendBlock src elementCount entry cursor =
          .ok (entry ++ List.range' (Dimensions.place src.axes cursor * elementCount) elementCount) :=
        appendBlock_eq_ok srcSpecified positive srcRoom (inside cursor (by simp))
          (by rw [Nat.add_mul] at room ⊢; omega)
      have later : rest.foldlM (appendBlock src elementCount)
          (entry ++ List.range' (Dimensions.place src.axes cursor * elementCount) elementCount) =
          .ok (entry ++ List.range' (Dimensions.place src.axes cursor * elementCount) elementCount ++
            elementOffsets elementCount (rest.map (Dimensions.place src.axes))) :=
        inductionHypothesis (fun c member => inside c (by simp [member]))
          (by simp only [List.length_append, List.length_range']; rw [Nat.add_mul] at room ⊢; omega)
      simp only [List.foldlM_cons, appended, bind, Except.bind, later, List.map_cons, elementOffsets,
        List.flatMap_cons, List.append_assoc]

end Elements

/--
The offsets a destination node receives along checked ratios: nothing when one of its ranges is
empty, else the elements of the source nodes of its block in the order the loop visits them,
when the source elements fit in an allocation.
-/
theorem blockOffsets_eq_ok
    {src dest : Dimensions}
    {ratios : List AxisRatio}
    {elementCount : Nat}
    (srcSpecified : src.isSpecified = true)
    (sameRank : src.rank = dest.rank)
    (oneRatioPerAxis : ratios.length = dest.rank)
    (within : RatiosWithin ratios src.axes dest.axes)
    (checked : RatiosChecked ratios dest.axes)
    (positive : 0 < elementCount)
    (srcRoom : src.product * elementCount * 8 ≤ isizeMax)
    {coordinate : List Nat}
    (destInside : List.Forall₂ (· < ·) coordinate dest.axes) :
    blockOffsets src ratios elementCount coordinate =
      .ok (if (sourceRanges ratios coordinate).any NodeRange.isEmpty then []
        else elementOffsets elementCount
          ((blockCoordinates (sourceRanges ratios coordinate)).map (Dimensions.place src.axes))) := by
  have ranges := ranges_eq_ok oneRatioPerAxis checked destInside
  by_cases anyEmpty : (sourceRanges ratios coordinate).any NodeRange.isEmpty = true
  · rw [blockOffsets, ranges]
    simp [anyEmpty, bind, Except.bind, pure, Except.pure]
  · have nonempty : ∀ r ∈ sourceRanges ratios coordinate, r.start < r.stop := by
      simpa [NodeRange.isEmpty] using anyEmpty
    have inside : ∀ c ∈ blockCoordinates (sourceRanges ratios coordinate),
        List.Forall₂ (· < ·) c src.axes := fun _ member =>
      block_inside_source sameRank oneRatioPerAxis within destInside nonempty member
    -- the block has no more nodes than the source, so its entry fits in an allocation
    have fewer := length_blockCoordinates_le
      (sourceRanges_within sameRank oneRatioPerAxis within destInside nonempty)
    have room : (([] : List Nat).length +
        (blockCoordinates (sourceRanges ratios coordinate)).length * elementCount) * 8 ≤
          isizeMax := by
      have := Nat.mul_le_mul_right 8 (Nat.mul_le_mul_right elementCount fewer)
      simp only [List.length_nil, Nat.zero_add]
      exact Nat.le_trans this srcRoom
    have looped := foldlM_appendBlock srcSpecified positive srcRoom inside room
    rw [blockOffsets, ranges]
    simp only [bind, Except.bind, anyEmpty, Bool.false_eq_true, ↓reduceIte, blockLoop_eq_foldlM,
      visits_starts nonempty, looped, List.nil_append, liftData]

/-- A built splitter map has one entry per destination node. -/
theorem splitterMap_length
    {src dest : Dimensions}
    {ratios : List AxisRatio}
    {elementCount : Nat}
    {map : List (List Nat)}
    (built : splitterMap src dest ratios elementCount = .ok map) :
    map.length = dest.count := by
  unfold splitterMap at built
  split at built
  · cases built
  · cases room : liftData (reserveOrPanic 24 dest.count) with
    | error e => simp [room, bind, Except.bind] at built
    | ok u =>
        simp only [room, bind, Except.bind] at built
        have paired := (mapM_except_eq_ok_iff _ _ _).mp built
        simpa using paired.length_eq.symm

end Link

end RegionNet
