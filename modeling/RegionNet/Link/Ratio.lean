import RegionNet.Link.Window
import RegionNet.Dimensions
import RegionNet.Error

namespace RegionNet.Link

/-!
# Splitter maps

A link copies, for every destination node, a block of source nodes: along each axis the block
is a range of source coordinates given by the axis's `AxisRatio`, and the block is every
combination of them, the first axis varying fastest. The splitter map lists, per destination
node in index order, the offsets of the source elements it receives: each source node
contributes its `elementCount` consecutive elements.
-/

/-- How one axis of the source relates to the same axis of the destination. -/
inductive AxisRatio where
  /-- Each source node feeds `factor` consecutive destination nodes. -/
  | fanOut (factor : Nat)
  /-- Each destination node receives `factor` consecutive source nodes. -/
  | fanIn (factor : Nat)
  /-- Each destination node receives one window of the source axis. -/
  | gather (w : Window)
  /-- Each destination node receives the source nodes whose windows cover it. -/
  | scatter (w : Window)
  deriving DecidableEq, Repr

namespace AxisRatio

/-- The whole-number ratio between axis lengths, if one divides the other. -/
def between (src dest : Nat) : Option AxisRatio :=
  if src = 0 || dest = 0 then none
  else if dest % src = 0 then some (.fanOut (dest / src))
  else if src % dest = 0 then some (.fanIn (src / dest))
  else none

/-- The source coordinates that feed destination coordinate `c` along the axis, in exact
arithmetic. -/
def bounds : AxisRatio → Nat → NodeRange
  | .fanOut f, c => ⟨c / f, c / f + 1⟩
  | .fanIn f, c => ⟨c * f, (c + 1) * f⟩
  | .gather w, c => w.bounds c
  | .scatter w, c => w.covering c

/-- The source coordinates that feed destination coordinate `c` along the axis, in word
arithmetic that panics on overflow (and on a zero fan-out factor, which divides). -/
def sourceRange : AxisRatio → Nat → Except DataError NodeRange
  | .fanOut f, c =>
    if f = 0 then .error (.panicked "attempt to divide by zero")
    else return ⟨c / f, ← addOrPanic 64 (c / f) 1⟩
  | .fanIn f, c => return ⟨← mulOrPanic 64 c f, ← mulOrPanic 64 (← addOrPanic 64 c 1) f⟩
  | .gather w, c => w.window c
  | .scatter w, c => return w.covering c

end AxisRatio

/-- Every coordinate of a block given by one range per axis, the first axis varying fastest. -/
def blockCoordinates : List NodeRange → List (List Nat)
  | [] => [[]]
  | r :: rest => (blockCoordinates rest).flatMap fun tail => r.toList.map (· :: tail)

/-! ### The block loop

The source nodes of a block are visited by a cursor with one coordinate per axis, starting at the
start of every range. After each visit the cursor turns like an odometer: the first axis that can
still go up does, and the axes before it go back to their starts; when every axis has run out,
the loop ends. -/

/-- One turn of the cursor; `none` once every axis has run out. -/
def advance : List NodeRange → List Nat → Option (List Nat)
  | r :: rest, c :: cs =>
    if c + 1 < r.stop then some ((c + 1) :: cs) else (advance rest cs).map (r.start :: ·)
  | _, _ => none

/-- How many turns the cursor has left at most, in the mixed radix of the range ends. -/
def turnsLeft : List NodeRange → List Nat → Nat
  | r :: rest, c :: cs => (r.stop - 1 - c) + max r.stop 1 * turnsLeft rest cs
  | _, _ => 0

/-- Every turn of the cursor leaves it fewer turns. -/
theorem turnsLeft_advance :
    ∀ {ranges : List NodeRange} {cursor next : List Nat},
      advance ranges cursor = some next → turnsLeft ranges next < turnsLeft ranges cursor
  | r :: rest, c :: cs, next, turned => by
    unfold advance at turned
    split at turned
    · rename_i goesUp
      cases turned
      simp only [turnsLeft]
      omega
    · obtain ⟨tail, carried, rfl⟩ := Option.map_eq_some_iff.mp turned
      have fewer := turnsLeft_advance carried
      -- the carry costs one turn of the rest, worth a whole run of the first axis
      have run : max r.stop 1 * (turnsLeft rest tail + 1) ≤ max r.stop 1 * turnsLeft rest cs :=
        Nat.mul_le_mul_left _ fewer
      simp only [turnsLeft, Nat.mul_add_one] at run ⊢
      omega
  | [], _, _, turned => by simp [advance] at turned
  | _ :: _, [], _, turned => by simp [advance] at turned

/-- One visit of the block loop: the source node's index, then its elements appended to the
entry. The range of elements is word arithmetic that panics on overflow, and an entry that would
need more than `isizeMax` bytes panics. -/
def appendBlock (src : Dimensions) (elementCount : Nat) (entry : List Nat) (cursor : List Nat) :
    Except DataError (List Nat) := do
  let node ← src.index cursor
  let first ← mulOrPanic 64 node elementCount
  let stop ← mulOrPanic 64 (← addOrPanic 64 node 1) elementCount
  reserveOrPanic 8 (entry.length + (stop - first))
  return entry ++ List.range' first (stop - first)

/-- The block loop from `cursor` on: visit it, turn the cursor, and go on until every axis has
run out. -/
def blockLoop (src : Dimensions) (elementCount : Nat) (ranges : List NodeRange)
    (cursor entry : List Nat) : Except DataError (List Nat) := do
  let entry ← appendBlock src elementCount entry cursor
  match turned : advance ranges cursor with
  | some next =>
    have := turnsLeft_advance turned
    blockLoop src elementCount ranges next entry
  | none => pure entry
termination_by turnsLeft ranges cursor

/-- The offsets one destination node receives: nothing when one of its ranges is empty, else the
elements of every source node the block loop visits. -/
def blockOffsets (src : Dimensions) (ratios : List AxisRatio) (elementCount : Nat)
    (coordinate : List Nat) : Except EngineError (List Nat) := do
  let ranges ← (coordinate.zip ratios).mapM fun (c, r) => liftData (r.sourceRange c)
  if ranges.any NodeRange.isEmpty then return []
  liftData (blockLoop src elementCount ranges (ranges.map (·.start)) [])

/-- The splitter map between dimensions of equal rank, one ratio per axis. The map is a vector
with room for one entry of 24 bytes per destination node. -/
def splitterMap (src dest : Dimensions) (ratios : List AxisRatio) (elementCount : Nat) :
    Except EngineError (List (List Nat)) := do
  if src.rank ≠ dest.rank || ratios.length ≠ dest.rank then
    throw (.incompatibleDimensions s!"cannot map {src} onto {dest}")
  liftData (reserveOrPanic 24 dest.count)
  (List.range dest.count).mapM fun node => do
    let coordinate ← liftData (dest.coordinate node)
    blockOffsets src ratios elementCount coordinate

/-- Both dimensions padded with unit axes to the larger rank. -/
def commonRank (src dest : Dimensions) : Dimensions × Dimensions :=
  let rank := max src.rank dest.rank
  (src.promote rank, dest.promote rank)

end RegionNet.Link
