import RegionNet.DataError

namespace RegionNet

/-!
# Dimensions

A region's nodes form a grid whose axis lengths are its dimensions. An empty axis list means the
dimensions are not yet known ("unspecified"); the single axis `[0]` means the region accepts any
layout ("dontcare"); a non-empty list of positive axes is "specified". Any other list is
malformed.

Nodes are numbered in mixed radix with the first axis varying fastest: the node at coordinate
`c` has index `c₀ + d₀·(c₁ + d₁·(c₂ + …))`. `coordinate` and `index` convert between the two.
-/

/-- The axis lengths of a grid of nodes. -/
structure Dimensions where
  axes : List Nat
  deriving DecidableEq, Repr, Inhabited

namespace Dimensions

/-- Dimensions that are not yet known. -/
def unspecified : Dimensions := ⟨[]⟩

/-- The dimensions of a region that accepts any layout. -/
def dontcare : Dimensions := ⟨[0]⟩

/-- `rank` axes of length one, and at least one axis. -/
def ones (rank : Nat) : Dimensions := ⟨List.replicate (max rank 1) 1⟩

/-- The number of axes. -/
def rank (d : Dimensions) : Nat := d.axes.length

/-- Whether no axes are known. -/
def isUnspecified (d : Dimensions) : Bool := d.axes.isEmpty

/-- Whether the dimensions are exactly `[0]`. -/
def isDontcare (d : Dimensions) : Bool := d.axes == [0]

/-- Whether there is at least one axis and every axis is positive. -/
def isSpecified (d : Dimensions) : Bool := !d.axes.isEmpty && d.axes.all (· > 0)

/-- Whether the dimensions are specified and every axis has length one. -/
def isOnes (d : Dimensions) : Bool := d.isSpecified && d.axes.all (· == 1)

/-- The text of dimensions: `[unspecified]`, `[dontcare]`, or the axes separated by blanks. -/
def display (d : Dimensions) : String :=
  if d.isUnspecified then "[unspecified]"
  else if d.isDontcare then "[dontcare]"
  else "[" ++ " ".intercalate (d.axes.map toString) ++ "]"

instance : ToString Dimensions := ⟨display⟩

/-- The exact number of nodes: the product of the axes. -/
def product (d : Dimensions) : Nat := d.axes.foldr (· * ·) 1

/-- The number of nodes of specified dimensions, stopping at the word maximum; zero otherwise. -/
def count (d : Dimensions) : Nat :=
  if d.isSpecified then min d.product wordMax else 0

/-- The number of nodes of specified dimensions, failing when it does not fit in a word. -/
def checkedCount (d : Dimensions) : Except DataError Nat :=
  if !d.isSpecified then .ok 0
  else if d.product < wordSize then .ok d.product
  else .error (.invalidDimensions s!"{d} has more nodes than fit in usize")

/-- Unspecified and dontcare dimensions are valid, specified ones when their node count fits. -/
def validate (d : Dimensions) : Except DataError Unit :=
  if d.isSpecified then (d.checkedCount).map fun _ => ()
  else if d.isUnspecified || d.isDontcare then .ok ()
  else .error (.invalidDimensions s!"{d} has a zero-sized axis")

/-- The axes padded with trailing unit axes up to `rank`. -/
def promote (d : Dimensions) (rank : Nat) : Dimensions :=
  ⟨d.axes ++ List.replicate (rank - d.axes.length) 1⟩

/-- The mixed-radix digits of `index` along `axes`, the first axis varying fastest. -/
def digits : List Nat → Nat → List Nat
  | [], _ => []
  | a :: rest, index => index % a :: digits rest (index / a)

/-- The index of a coordinate along `axes`, without bound checks or word reduction. -/
def place : List Nat → List Nat → Nat
  | a :: rest, c :: cs => c + a * place rest cs
  | _, _ => 0

/-- The coordinate of the node with a given index. -/
def coordinate (d : Dimensions) (index : Nat) : Except DataError (List Nat) :=
  if index < d.count then .ok (digits d.axes index)
  else .error (.outOfRange index d.count)

/-- The list text of a coordinate, with commas: `[1, 2]`. -/
def coordinateText (c : List Nat) : String :=
  "[" ++ ", ".intercalate (c.map toString) ++ "]"

/-- The index loop from a running index and stride. Each axis checks its entry, adds the entry
times the stride, and multiplies the stride by its length, all in overflow-checked words; the
stride is multiplied after the last axis too, so axes whose product passes the word panic. -/
def indexFrom : List Nat → List Nat → Nat → Nat → Except DataError Nat
  | a :: rest, c :: cs, index, stride =>
    if c < a then do
      let index ← addOrPanic 64 index (← mulOrPanic 64 c stride)
      indexFrom rest cs index (← mulOrPanic 64 stride a)
    else .error (.outOfRange c a)
  | _, _, index, _ => .ok index

/-- The index of a coordinate. The coordinate must have one entry per axis of specified
dimensions, each below its axis length. -/
def index (d : Dimensions) (c : List Nat) : Except DataError Nat :=
  if c.length != d.rank || !d.isSpecified then
    .error (.invalidDimensions s!"coordinate {coordinateText c} does not address {d}")
  else indexFrom d.axes c 0 1

/-- The digits of an index along some axes are one per axis. -/
theorem digits_length (axes : List Nat) (index : Nat) :
    (digits axes index).length = axes.length := by
  induction axes generalizing index with
  | nil => rfl
  | cons a rest inductionHypothesis => simp [digits, inductionHypothesis]

/-- Promoting dimensions gives them the larger of their rank and the target rank. -/
theorem promote_axes_length (d : Dimensions) (rank : Nat) :
    (d.promote rank).axes.length = max d.axes.length rank := by
  simp [promote]; omega

end Dimensions

end RegionNet
