import RegionNet.Proofs.Blocks

namespace RegionNet.Link

/-!
# Splitter maps enumerate blocks exactly

The entry of a destination node is built by walking its block of source coordinates, the first
axis varying fastest, and listing the elements of every source node the walk meets. For
specified dimensions of equal rank, with one ratio per axis that keeps every non-empty source
range inside its axis, the entry of a node is empty when one of its ranges is; otherwise it
lists, in increasing order, exactly the elements `m * elementCount + j` of the source nodes `m`
whose coordinates lie in every range, and the walk meets each such node once, in increasing
order (`splitterMap_lists_blocks`).

The map's word arithmetic must not overflow and its vectors must fit in allocations: the
ranges computed in words, the elements of the whole source in one entry, and one entry for each
destination node. Past that the map panics: the index of a source coordinate multiplies the
running stride by every axis, so a source of more nodes than a word holds panics at its first
index.
-/

/-- Source node `m` lies in the block of the ranges: it is a node of the source, and along every
axis its coordinate lies in that axis's range. -/
def InBlock (src : Dimensions) (ranges : List NodeRange) (m : Nat) : Prop :=
  m < src.count ∧ List.Forall₂ (fun c r => c ∈ r.toList) (Dimensions.digits src.axes m) ranges

instance (src : Dimensions) (ranges : List NodeRange) : DecidablePred (InBlock src ranges) :=
  fun _ => inferInstanceAs (Decidable (_ ∧ _))

/--
An entry that lists the block of the ranges: in increasing order, exactly the elements of the
source nodes in the block, which it takes node by node, the nodes in increasing order and so
each once.
-/
structure ListsBlock (src : Dimensions) (ranges : List NodeRange) (elementCount : Nat)
    (entry : List Nat) : Prop where
  increasing : entry.Pairwise (· < ·)
  mem_iff : ∀ x, x ∈ entry ↔
    ∃ m, InBlock src ranges m ∧ ∃ j < elementCount, x = m * elementCount + j
  visits : ∃ nodes, entry = elementOffsets elementCount nodes ∧ nodes.Pairwise (· < ·) ∧
    ∀ m, m ∈ nodes ↔ InBlock src ranges m

/-- The elements of the nodes of a block, the nodes taken in increasing order, list the block. -/
theorem listsBlock_elementOffsets
    {src : Dimensions}
    {ranges : List NodeRange}
    {elementCount : Nat}
    {nodes : List Nat}
    (increasing : nodes.Pairwise (· < ·))
    (members : ∀ m, m ∈ nodes ↔ InBlock src ranges m) :
    ListsBlock src ranges elementCount (elementOffsets elementCount nodes) where
  increasing := pairwise_elementOffsets increasing
  mem_iff x := by
    rw [mem_elementOffsets]
    constructor
    · rintro ⟨m, member, above, below⟩
      exact ⟨m, (members m).mp member, x - m * elementCount, by omega, by omega⟩
    · rintro ⟨m, inBlock, j, small, rfl⟩
      exact ⟨m, (members m).mpr inBlock, by omega, by omega⟩
  visits := ⟨nodes, rfl, increasing, members⟩

section Within

variable
    {src dest : Dimensions}
    {ratios : List AxisRatio}
    (sameRank : src.rank = dest.rank)
    (oneRatioPerAxis : ratios.length = dest.rank)
    (within : RatiosWithin ratios src.axes dest.axes)
    {coordinate : List Nat}
    (destInside : List.Forall₂ (· < ·) coordinate dest.axes)
    (nonempty : ∀ r ∈ sourceRanges ratios coordinate, r.start < r.stop)
include sameRank oneRatioPerAxis within destInside nonempty

/-- The walk over a block of non-empty ranges meets exactly the source nodes in the block, when
the source's nodes can be numbered in a word. -/
theorem mem_blockNodes_iff
    (srcSpecified : src.isSpecified = true)
    (srcFits : src.product < wordSize)
    {m : Nat} :
    m ∈ blockNodes src ratios coordinate ↔ InBlock src (sourceRanges ratios coordinate) m := by
  have srcCount := Dimensions.count_eq_product srcSpecified srcFits
  constructor
  · intro member
    obtain ⟨read, inBlock, rfl⟩ := List.mem_map.mp member
    have srcInside :=
      block_inside_source sameRank oneRatioPerAxis within destInside nonempty inBlock
    refine ⟨srcCount ▸ Dimensions.place_lt_product srcInside, ?_⟩
    rw [Dimensions.digits_place srcInside]
    exact mem_blockCoordinates.mp inBlock
  · -- a node of the source is the index of its own digits
    rintro ⟨below, inRanges⟩
    rw [srcCount] at below
    exact List.mem_map.mpr
      ⟨_, mem_blockCoordinates.mpr inRanges, Dimensions.place_digits src.axes below⟩

end Within

variable {src dest : Dimensions} {ratios : List AxisRatio}

/--
Between specified dimensions of equal rank, with one ratio per axis keeping every non-empty
source range inside its axis and computing it in words, the splitter map has one entry per
destination node: empty when one of the node's ranges is empty, and otherwise the exact list of
the node's block; when the map's vectors fit in allocations.
-/
theorem splitterMap_lists_blocks
    {elementCount : Nat}
    (srcSpecified : src.isSpecified = true)
    (destSpecified : dest.isSpecified = true)
    (sameRank : src.rank = dest.rank)
    (oneRatioPerAxis : ratios.length = dest.rank)
    (within : RatiosWithin ratios src.axes dest.axes)
    (checked : RatiosChecked ratios dest.axes)
    (positive : 0 < elementCount)
    (srcRoom : src.product * elementCount * 8 ≤ isizeMax)
    (destRoom : dest.count * 24 ≤ isizeMax) :
    ∃ map, splitterMap src dest ratios elementCount = .ok map ∧ map.length = dest.count ∧
      ∀ node (listed : node < map.length),
        if (sourceRanges ratios (Dimensions.digits dest.axes node)).any NodeRange.isEmpty then
          map[node] = []
        else
          ListsBlock src (sourceRanges ratios (Dimensions.digits dest.axes node)) elementCount
            map[node] := by
  refine ⟨_, splitterMap_eq_ok_of_within srcSpecified destSpecified sameRank oneRatioPerAxis
    within checked positive srcRoom destRoom, by simp, fun node listed => ?_⟩
  have destInside := Dimensions.digits_forall₂_lt dest.axes
    (fun _ axisMember => Dimensions.pos_of_isSpecified destSpecified axisMember) node
  -- the source's nodes are numbered in a word, its elements fitting in an allocation
  have srcFits : src.product < wordSize := by
    have := Nat.le_mul_of_pos_right src.product positive
    have := isizeMax_lt_wordSize
    omega
  simp only [List.getElem_map, List.getElem_range]
  split
  · rfl
  · rename_i noneEmpty
    have nonempty : ∀ r ∈ sourceRanges ratios (Dimensions.digits dest.axes node),
        r.start < r.stop := by
      simpa [NodeRange.isEmpty] using noneEmpty
    exact listsBlock_elementOffsets
      (pairwise_blockNodes_of_within sameRank oneRatioPerAxis within destInside nonempty)
      fun m => mem_blockNodes_iff sameRank oneRatioPerAxis within destInside nonempty
        srcSpecified srcFits

/-- Two axes fanned in by two: the second destination node reads the corner of source nodes
`2, 3, 6, 7`, the walk carrying from the first axis into the second. -/
example :
    splitterMap ⟨[4, 2]⟩ ⟨[2, 1]⟩ [.fanIn 2, .fanIn 2] 1 = .ok [[0, 1, 4, 5], [2, 3, 6, 7]] ∧
      (List.range 8).filter (fun m => decide (InBlock ⟨[4, 2]⟩
        (sourceRanges [.fanIn 2, .fanIn 2] [1, 0]) m)) = [2, 3, 6, 7] := by
  decide +kernel

end RegionNet.Link
