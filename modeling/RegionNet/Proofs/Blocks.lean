import Mathlib.Tactic.Choose
import RegionNet.Proofs.Splitter
import RegionNet.Proofs.Tiling

namespace RegionNet

/-!
# Splitter maps read whole blocks

A destination node reads the block of source nodes its ranges give, one range per axis, and
receives the elements of those nodes in block order. Nodes are numbered in mixed radix
(`Dimensions.place`, `Dimensions.digits`), which inside the axes is a bijection onto the nodes
below their product.

When the ratio of every axis tiles it (`Link.RatiosTile`), each block is non-empty, lists its
nodes in increasing order, and every source node lies in the block of some destination node.
When besides the ratios compute their ranges in words (`Link.RatiosChecked`) and the map's
vectors fit in allocations, the splitter map reads whole source nodes and every source element
(`Link.splitterMap_wellFormed_of_tiles`).
-/

namespace Dimensions

/-- Reading a node's digits back gives the node. -/
theorem place_digits
    (axes : List Nat)
    {node : Nat}
    (below : node < axes.foldr (· * ·) 1) :
    place axes (digits axes node) = node := by
  induction axes generalizing node with
  | nil =>
      simp only [List.foldr_nil] at below
      simp only [place]
      omega
  | cons a rest inductionHypothesis =>
      simp only [List.foldr_cons] at below
      have positive : 0 < a := Nat.pos_of_ne_zero fun zero => by simp [zero] at below
      have higher : node / a < rest.foldr (· * ·) 1 := by
        rw [Nat.div_lt_iff_lt_mul positive, Nat.mul_comm]
        exact below
      simp only [digits, place, inductionHypothesis higher]
      exact Nat.mod_add_div node a

/-- The digits of a coordinate's index are the coordinate. -/
theorem digits_place
    {axes coordinate : List Nat}
    (inside : List.Forall₂ (· < ·) coordinate axes) :
    digits axes (place axes coordinate) = coordinate := by
  induction inside with
  | nil =>
      rfl
  | @cons c a cs rest below _ inductionHypothesis =>
      have positive : 0 < a := Nat.lt_of_le_of_lt (Nat.zero_le c) below
      simp only [place, digits, Nat.add_mul_mod_self_left, Nat.mod_eq_of_lt below,
        Nat.add_mul_div_left _ _ positive, Nat.div_eq_of_lt below, Nat.zero_add,
        inductionHypothesis]

/-- Specified dimensions whose nodes can be numbered in a word count exactly their nodes. -/
theorem count_eq_product
    {d : Dimensions}
    (specified : d.isSpecified = true)
    (fits : d.product < wordSize) :
    d.count = d.product := by
  simp only [count, specified, ↓reduceIte, wordMax]
  omega

end Dimensions

/-- A list mapped through a function that succeeds everywhere gives the mapped list. -/
theorem mapM_except_eq_ok_map
    {ε α β : Type}
    {f : α → Except ε β}
    {g : α → β}
    (xs : List α)
    (succeeds : ∀ x ∈ xs, f x = .ok (g x)) :
    xs.mapM f = .ok (xs.map g) := by
  induction xs with
  | nil =>
      rfl
  | cons x rest inductionHypothesis =>
      have tail := inductionHypothesis fun y member => succeeds y (by simp [member])
      simp [List.mapM_cons, succeeds x (by simp), tail, bind, Except.bind, pure, Except.pure]

namespace Link

/--
A splitter map from `count` source nodes of `elementCount` elements each: every entry reads
whole source nodes, in increasing order and at least one, and every source element is read.
-/
structure WellFormedMap (map : List (List Nat)) (count elementCount : Nat) : Prop where
  nonempty : ∀ entry ∈ map, entry ≠ []
  increasing : ∀ entry ∈ map, entry.Pairwise (· < ·)
  wholeNodes : ∀ entry ∈ map,
    ∃ nodes, entry = elementOffsets elementCount nodes ∧ ∀ m ∈ nodes, m < count
  covers : ∀ x < count * elementCount, ∃ entry ∈ map, x ∈ entry

section ElementOffsets

variable {elementCount : Nat} {nodes : List Nat}

/-- An offset is read when it lies in the elements of one of the nodes. -/
theorem mem_elementOffsets
    {x : Nat} :
    x ∈ elementOffsets elementCount nodes ↔
      ∃ m ∈ nodes, m * elementCount ≤ x ∧ x < m * elementCount + elementCount := by
  simp [elementOffsets, List.mem_range'_1]

theorem elementOffsets_ne_nil
    (positive : 0 < elementCount)
    (nonempty : nodes ≠ []) :
    elementOffsets elementCount nodes ≠ [] := by
  obtain ⟨m, member⟩ := List.exists_mem_of_ne_nil nodes nonempty
  exact List.ne_nil_of_mem
    (mem_elementOffsets.mpr ⟨m, member, Nat.le_refl _, Nat.lt_add_of_pos_right positive⟩)

/-- Nodes in increasing order give their elements in increasing order. -/
theorem pairwise_elementOffsets
    (increasing : nodes.Pairwise (· < ·)) :
    (elementOffsets elementCount nodes).Pairwise (· < ·) := by
  unfold elementOffsets
  rw [List.pairwise_flatMap]
  refine ⟨fun m _ => List.pairwise_lt_range' 1 Nat.one_pos, ?_⟩
  refine increasing.imp fun {m m'} before x first y second => ?_
  simp only [List.mem_range'_1] at first second
  -- the elements of a later node start after the last element of an earlier one
  have after := Nat.mul_le_mul_right elementCount before
  rw [Nat.succ_mul] at after
  omega

end ElementOffsets

/-- A block of non-empty ranges has a coordinate. -/
theorem blockCoordinates_ne_nil
    {ranges : List NodeRange}
    (nonempty : ∀ r ∈ ranges, r.start < r.stop) :
    blockCoordinates ranges ≠ [] := by
  induction ranges with
  | nil =>
      simp [blockCoordinates]
  | cons r rest inductionHypothesis =>
      obtain ⟨tail, member⟩ := List.exists_mem_of_ne_nil _
        (inductionHypothesis fun q inRest => nonempty q (by simp [inRest]))
      have first : r.start ∈ r.toList := by
        simpa using nonempty r (by simp)
      exact List.ne_nil_of_mem (List.mem_flatMap.mpr ⟨tail, member, List.mem_map_of_mem first⟩)

/-- Along axes that hold each range, a block lists its coordinates in increasing index order. -/
theorem pairwise_place_blockCoordinates
    {ranges : List NodeRange}
    {axes : List Nat}
    (inside : List.Forall₂ (fun r a => r.stop ≤ a) ranges axes) :
    ((blockCoordinates ranges).map (Dimensions.place axes)).Pairwise (· < ·) := by
  induction inside with
  | nil =>
      simp [blockCoordinates]
  | @cons r a rest axes' stops _ inductionHypothesis =>
      rw [List.pairwise_map] at inductionHypothesis
      simp only [blockCoordinates, List.map_flatMap, List.map_map]
      rw [List.pairwise_flatMap]
      constructor
      · -- along the first axis the index grows with the coordinate
        intro tail _
        rw [List.pairwise_map]
        refine (List.pairwise_lt_range' 1 Nat.one_pos).imp fun before => ?_
        simp only [Function.comp_apply, Dimensions.place]
        omega
      · -- a later tail starts a whole row of `a` nodes later
        refine inductionHypothesis.imp fun {t t'} before x first y second => ?_
        simp only [List.mem_map, Function.comp_apply, Dimensions.place, NodeRange.mem_toList]
          at first second
        obtain ⟨c, ⟨-, cBelow⟩, rfl⟩ := first
        obtain ⟨c', -, rfl⟩ := second
        have row := Nat.mul_le_mul_left a before
        rw [Nat.mul_add_one] at row
        omega

/-- The ratios of the axes, one per axis, each tiling its source and destination axes. -/
def RatiosTile (ratios : List AxisRatio) (src dest : List Nat) : Prop :=
  ∀ axis (h : axis < ratios.length), ratios[axis].Tiles (src.getD axis 0) (dest.getD axis 0)

theorem RatiosTile.within
    {ratios : List AxisRatio}
    {src dest : List Nat}
    (tiles : RatiosTile ratios src dest) :
    RatiosWithin ratios src dest :=
  fun axis h c below _ => (tiles axis h).inside c below

@[simp] theorem length_sourceRanges
    (ratios : List AxisRatio)
    (coordinate : List Nat) :
    (sourceRanges ratios coordinate).length = min coordinate.length ratios.length := by
  simp [sourceRanges]

section Tiled

variable {src dest : List Nat} {ratios : List AxisRatio}

/-- Each range a destination coordinate inside the destination axes reads is non-empty. -/
theorem sourceRanges_nonempty
    (oneRatioPerAxis : ratios.length = dest.length)
    (tiles : RatiosTile ratios src dest)
    {coordinate : List Nat}
    (destInside : List.Forall₂ (· < ·) coordinate dest) :
    ∀ r ∈ sourceRanges ratios coordinate, r.start < r.stop := by
  have coordinateLength := destInside.length_eq
  intro r member
  obtain ⟨axis, inRanges, rfl⟩ := List.getElem_of_mem member
  have inRatios : axis < ratios.length := by simp at inRanges; omega
  have inCoordinate : axis < coordinate.length := by simp at inRanges; omega
  have inDest : axis < dest.length := by omega
  have rangeIs : (sourceRanges ratios coordinate)[axis] =
      ratios[axis].bounds coordinate[axis] := by
    simp [sourceRanges]
  have destBelow : coordinate[axis] < dest.getD axis 0 := by
    have below := destInside.get inCoordinate inDest
    simpa [List.getD_eq_getElem?_getD, inDest] using below
  rw [rangeIs]
  exact (tiles axis inRatios).nonempty _ destBelow

/-- Every source coordinate inside the source axes is read by a destination coordinate inside
the destination axes. -/
theorem exists_reader
    (sameRank : src.length = dest.length)
    (oneRatioPerAxis : ratios.length = dest.length)
    (tiles : RatiosTile ratios src dest)
    {read : List Nat}
    (srcInside : List.Forall₂ (· < ·) read src) :
    ∃ coordinate, List.Forall₂ (· < ·) coordinate dest ∧
      read ∈ blockCoordinates (sourceRanges ratios coordinate) := by
  have readLength := srcInside.length_eq
  -- along each axis, the tiling names a destination coordinate reading the source one
  have readers : ∀ axis, ∃ c, ∀ h : axis < ratios.length,
      c < dest.getD axis 0 ∧ read.getD axis 0 ∈ (ratios[axis].bounds c).toList := by
    intro axis
    by_cases inRatios : axis < ratios.length
    · have inRead : axis < read.length := by omega
      have inSrc : axis < src.length := by omega
      have readBelow : read.getD axis 0 < src.getD axis 0 := by
        have below := srcInside.get inRead inSrc
        simpa [List.getD_eq_getElem?_getD, inRead, inSrc] using below
      obtain ⟨c, destBelow, reads⟩ := (tiles axis inRatios).covers _ readBelow
      exact ⟨c, fun _ => ⟨destBelow, reads⟩⟩
    · exact ⟨0, fun h => absurd h inRatios⟩
  choose reader reads using readers
  refine ⟨(List.range ratios.length).map reader, ?_, ?_⟩
  · refine List.forall₂_of_length_eq_of_get (by simp; omega) fun axis inCoordinate inDest => ?_
    have inRatios : axis < ratios.length := by simpa using inCoordinate
    have below := (reads axis inRatios).1
    simpa [List.getD_eq_getElem?_getD, inDest] using below
  · rw [mem_blockCoordinates]
    refine List.forall₂_of_length_eq_of_get (by simp; omega) fun axis inRead inRanges => ?_
    have inRatios : axis < ratios.length := by simp at inRanges; omega
    have inside := (reads axis inRatios).2
    simpa [sourceRanges, List.getD_eq_getElem?_getD, inRead] using inside

/-- The source nodes a destination coordinate reads, in the order of its block. -/
def blockNodes (src : Dimensions) (ratios : List AxisRatio) (coordinate : List Nat) : List Nat :=
  (blockCoordinates (sourceRanges ratios coordinate)).map (Dimensions.place src.axes)

variable {src dest : Dimensions}

/--
The splitter map along ratios that keep non-empty ranges inside the source axes and compute them
without overflow: each destination node receives nothing when one of its ranges is empty, and
otherwise the elements of its block's source nodes, when the map's vectors fit in allocations.
-/
theorem splitterMap_eq_ok_of_within
    {elementCount : Nat}
    (srcSpecified : src.isSpecified = true)
    (destSpecified : dest.isSpecified = true)
    (sameRank : src.rank = dest.rank)
    (oneRatioPerAxis : ratios.length = dest.rank)
    (within : RatiosWithin ratios src.axes dest.axes)
    (checked : RatiosChecked ratios dest.axes)
    (positive : 0 < elementCount)
    (srcRoom : src.product * elementCount * 8 ≤ isizeMax)
    (destRoom : dest.count * 24 ≤ isizeMax) :
    splitterMap src dest ratios elementCount =
      .ok ((List.range dest.count).map fun node =>
        if (sourceRanges ratios (Dimensions.digits dest.axes node)).any NodeRange.isEmpty then []
        else elementOffsets elementCount (blockNodes src ratios (Dimensions.digits dest.axes node))) := by
  simp only [splitterMap, sameRank, oneRatioPerAxis, ne_eq, not_true_eq_false, decide_false,
    Bool.or_self, Bool.false_eq_true, ↓reduceIte, reserveOrPanic_of_le destRoom, liftData]
  refine mapM_except_eq_ok_map _ fun node member => ?_
  have destInside := Dimensions.digits_forall₂_lt dest.axes
    (fun _ axisMember => Dimensions.pos_of_isSpecified destSpecified axisMember) node
  simp [Dimensions.coordinate_of_lt dest (List.mem_range.mp member), bind, Except.bind,
    blockOffsets_eq_ok srcSpecified sameRank oneRatioPerAxis within checked positive srcRoom
      destInside, blockNodes]

/-- The walk over a block of non-empty ranges meets its source nodes in increasing order. -/
theorem pairwise_blockNodes_of_within
    (sameRank : src.rank = dest.rank)
    (oneRatioPerAxis : ratios.length = dest.rank)
    (within : RatiosWithin ratios src.axes dest.axes)
    {coordinate : List Nat}
    (destInside : List.Forall₂ (· < ·) coordinate dest.axes)
    (nonempty : ∀ r ∈ sourceRanges ratios coordinate, r.start < r.stop) :
    (blockNodes src ratios coordinate).Pairwise (· < ·) :=
  pairwise_place_blockCoordinates
    (sourceRanges_within sameRank oneRatioPerAxis within destInside nonempty)

section Block

variable
    (sameRank : src.rank = dest.rank)
    (oneRatioPerAxis : ratios.length = dest.rank)
    (tiles : RatiosTile ratios src.axes dest.axes)
    {coordinate : List Nat}
    (destInside : List.Forall₂ (· < ·) coordinate dest.axes)
include sameRank oneRatioPerAxis tiles destInside

/-- Every source node of a tiled block is a node of the source. -/
theorem blockNodes_lt_product :
    ∀ m ∈ blockNodes src ratios coordinate, m < src.product := by
  intro m member
  obtain ⟨read, inBlock, rfl⟩ := List.mem_map.mp member
  exact Dimensions.place_lt_product (block_inside_source sameRank oneRatioPerAxis tiles.within
    destInside (sourceRanges_nonempty oneRatioPerAxis tiles destInside) inBlock)

omit sameRank in
/-- A tiled block has a source node. -/
theorem blockNodes_ne_nil :
    blockNodes src ratios coordinate ≠ [] := by
  simpa [blockNodes] using
    blockCoordinates_ne_nil (sourceRanges_nonempty oneRatioPerAxis tiles destInside)

/-- A tiled block lists its source nodes in increasing order. -/
theorem pairwise_blockNodes :
    (blockNodes src ratios coordinate).Pairwise (· < ·) :=
  pairwise_blockNodes_of_within sameRank oneRatioPerAxis tiles.within destInside
    (sourceRanges_nonempty oneRatioPerAxis tiles destInside)

end Block

/-- The splitter map of tiling ratios that compute their ranges without overflow gives each
destination node the elements of its block, when the map's vectors fit in allocations. -/
theorem splitterMap_eq_ok
    {elementCount : Nat}
    (srcSpecified : src.isSpecified = true)
    (destSpecified : dest.isSpecified = true)
    (sameRank : src.rank = dest.rank)
    (oneRatioPerAxis : ratios.length = dest.rank)
    (tiles : RatiosTile ratios src.axes dest.axes)
    (checked : RatiosChecked ratios dest.axes)
    (positive : 0 < elementCount)
    (srcRoom : src.product * elementCount * 8 ≤ isizeMax)
    (destRoom : dest.count * 24 ≤ isizeMax) :
    splitterMap src dest ratios elementCount =
      .ok ((List.range dest.count).map fun node =>
        elementOffsets elementCount (blockNodes src ratios (Dimensions.digits dest.axes node))) := by
  rw [splitterMap_eq_ok_of_within srcSpecified destSpecified sameRank oneRatioPerAxis tiles.within
    checked positive srcRoom destRoom]
  -- a tiled block has no empty range
  refine congrArg Except.ok (List.map_congr_left fun node _ => ?_)
  have destInside := Dimensions.digits_forall₂_lt dest.axes
    (fun _ axisMember => Dimensions.pos_of_isSpecified destSpecified axisMember) node
  have noneEmpty : (sourceRanges ratios (Dimensions.digits dest.axes node)).any
      NodeRange.isEmpty = false := by
    simpa [NodeRange.isEmpty] using sourceRanges_nonempty oneRatioPerAxis tiles destInside
  rw [noneEmpty]
  rfl

/--
Between specified dimensions of equal rank, ratios that tile every axis and compute their
ranges without overflow give a splitter map with one entry per destination node that reads
whole source nodes in increasing order and reads every source element, when the map's vectors
fit in allocations: the elements of the whole source in one entry, and the entries themselves.
-/
theorem splitterMap_wellFormed_of_tiles
    {elementCount : Nat}
    (srcSpecified : src.isSpecified = true)
    (destSpecified : dest.isSpecified = true)
    (sameRank : src.rank = dest.rank)
    (oneRatioPerAxis : ratios.length = dest.rank)
    (tiles : RatiosTile ratios src.axes dest.axes)
    (checked : RatiosChecked ratios dest.axes)
    (positive : 0 < elementCount)
    (srcRoom : src.product * elementCount * 8 ≤ isizeMax)
    (destRoom : dest.product * 24 ≤ isizeMax) :
    ∃ map, splitterMap src dest ratios elementCount = .ok map ∧ map.length = dest.count ∧
      WellFormedMap map src.count elementCount := by
  -- both products are below an allocation's byte size, so both count their nodes exactly
  have srcNodesFit : src.product < wordSize := by
    have := Nat.le_mul_of_pos_right src.product positive
    have := isizeMax_lt_wordSize
    omega
  have destNodesFit : dest.product < wordSize := by
    have := isizeMax_lt_wordSize
    omega
  have srcCount := Dimensions.count_eq_product srcSpecified srcNodesFit
  have destCount := Dimensions.count_eq_product destSpecified destNodesFit
  have digitsInside : ∀ node, List.Forall₂ (· < ·) (Dimensions.digits dest.axes node) dest.axes :=
    Dimensions.digits_forall₂_lt dest.axes
      (fun _ axisMember => Dimensions.pos_of_isSpecified destSpecified axisMember)
  refine ⟨_, splitterMap_eq_ok srcSpecified destSpecified sameRank oneRatioPerAxis tiles checked
    positive srcRoom (destCount ▸ destRoom), by simp, ?_⟩
  rw [srcCount]
  constructor
  · simp only [List.mem_map, List.mem_range]
    rintro _ ⟨node, -, rfl⟩
    exact elementOffsets_ne_nil positive
      (blockNodes_ne_nil oneRatioPerAxis tiles (digitsInside node))
  · simp only [List.mem_map, List.mem_range]
    rintro _ ⟨node, -, rfl⟩
    exact pairwise_elementOffsets
      (pairwise_blockNodes sameRank oneRatioPerAxis tiles (digitsInside node))
  · simp only [List.mem_map, List.mem_range]
    rintro _ ⟨node, -, rfl⟩
    exact ⟨_, rfl, blockNodes_lt_product sameRank oneRatioPerAxis tiles (digitsInside node)⟩
  · -- element `x` belongs to source node `x / elementCount`, whose coordinate some
    -- destination coordinate reads
    intro x below
    have nodeBelow : x / elementCount < src.product :=
      Nat.div_lt_of_lt_mul (by rw [Nat.mul_comm]; exact below)
    have srcInside := Dimensions.digits_forall₂_lt src.axes
      (fun _ axisMember => Dimensions.pos_of_isSpecified srcSpecified axisMember) (x / elementCount)
    have sameLength : src.axes.length = dest.axes.length := sameRank
    obtain ⟨coordinate, destInside, reads⟩ :=
      exists_reader sameLength oneRatioPerAxis tiles srcInside
    have destBelow : Dimensions.place dest.axes coordinate < dest.count := by
      rw [destCount]
      exact Dimensions.place_lt_product destInside
    refine ⟨_, List.mem_map.mpr ⟨_, List.mem_range.mpr destBelow, rfl⟩, ?_⟩
    rw [Dimensions.digits_place destInside, mem_elementOffsets]
    refine ⟨x / elementCount,
      List.mem_map.mpr ⟨_, reads, Dimensions.place_digits src.axes nodeBelow⟩, ?_⟩
    have split := Nat.div_add_mod x elementCount
    have remainder := Nat.mod_lt x positive
    rw [Nat.mul_comm] at split
    omega

end Tiled

end Link

end RegionNet
