import RegionNet.DataError

namespace RegionNet.Link

/-!
# Receptive-field windows along one axis

A link between a wide and a narrow axis places windows of `size` nodes on the wide axis, one
every `stride` nodes. With a `span`, the wide axis is cut into spans of that many nodes and the
windows restart in each span; a last, shorter span keeps the windows that fit in it. A strict
layout refuses a partial window at the end of the axis (or of a span); a loose one adds it.

From the wide length the narrow length follows (`windowsOver`), and from the narrow length the
smallest wide length that gives it (`wideFor`). The nodes of window `k` are `window k`, computed
in overflow-checked words; `bounds k` is the same range in exact arithmetic, which the window is
whenever nothing overflows. The windows that cover a wide node `c` are `covering c`; its
intermediate values stay below the wide and narrow lengths, so it needs no checks.
-/

/-- A half-open range of node indices `start, …, stop - 1`; empty when `stop ≤ start`. -/
structure NodeRange where
  start : Nat
  stop : Nat
  deriving DecidableEq, Repr

namespace NodeRange

/-- Whether the range holds no node. -/
def isEmpty (r : NodeRange) : Bool := r.stop ≤ r.start

/-- The nodes of the range, in increasing order. -/
def toList (r : NodeRange) : List Nat := List.range' r.start (r.stop - r.start)

theorem length_toList (r : NodeRange) : r.toList.length = r.stop - r.start := by
  simp [toList]

end NodeRange

/-- Windows along one axis, with the lengths of the two axes they join. -/
structure Window where
  /-- Nodes of the wide axis in one window. -/
  size : Nat
  /-- Distance between the starts of consecutive windows. -/
  stride : Nat
  /-- Length of the spans the windows restart in; `0` for no spans. -/
  span : Nat
  /-- Whether a partial window at the end is refused. -/
  strict : Bool
  /-- Length of the wide axis. -/
  wideLen : Nat := 0
  /-- Length of the narrow axis. -/
  narrowLen : Nat := 0
  deriving DecidableEq, Repr

namespace Window

/-- The number of windows along `len` nodes without spans. -/
def run (w : Window) (len : Nat) : Option Nat :=
  if len < w.size then
    if !w.strict && len > 0 then some 1 else none
  else
    let excess := len - w.size
    if excess % w.stride = 0 then some (excess / w.stride + 1)
    else if w.strict then none
    else some (excess / w.stride + 2)

/-- The number of windows in one span (without spans, along the whole narrow axis). -/
def perSpan (w : Window) : Option Nat :=
  if w.span = 0 then some (max w.narrowLen 1) else w.run w.span

/-- The number of windows along a wide axis of `wide` nodes. -/
def windowsOver (w : Window) (wide : Nat) : Option Nat :=
  if w.span = 0 then w.run wide
  else
    let rest := wide % w.span
    if rest ≠ 0 && w.strict then none
    else do
      let tail ← if rest = 0 then some 0 else w.run rest
      let full ← w.run w.span
      some (wide / w.span * full + tail)

/-- The wide length whose windows give `narrow` nodes, when it fits in a word. -/
def wideFor (w : Window) (narrow : Nat) : Option Nat :=
  if narrow = 0 then none
  else if w.span = 0 then do
    let covered ← checkedMul (narrow - 1) w.stride
    checkedAdd covered w.size
  else do
    let per ← w.run w.span
    if narrow % per ≠ 0 then none
    else checkedMul (narrow / per) w.span

/-- The wide nodes of window `k`, cut at the end of its span and of the axis, in exact
arithmetic. -/
def bounds (w : Window) (k : Nat) : NodeRange :=
  let per := w.perSpan.getD 1
  let (spanIndex, local_) := if w.span = 0 then (0, k) else (k / per, k % per)
  let spanStart := spanIndex * w.span
  let spanEnd := if w.span = 0 then w.wideLen else min (spanStart + w.span) w.wideLen
  let start := min (spanStart + local_ * w.stride) spanEnd
  ⟨start, min (start + w.size) spanEnd⟩

/-- The wide nodes of window `k`, cut at the end of its span and of the axis. The span's start
and end, the window's start and its end are word arithmetic that panics on overflow. -/
def window (w : Window) (k : Nat) : Except DataError NodeRange := do
  let per := w.perSpan.getD 1
  let (spanIndex, local_) := if w.span = 0 then (0, k) else (k / per, k % per)
  let spanStart ← mulOrPanic 64 spanIndex w.span
  let spanEnd ← if w.span = 0 then pure w.wideLen else do
    let spanStop ← addOrPanic 64 spanStart w.span
    pure (min spanStop w.wideLen)
  let start := min (← addOrPanic 64 spanStart (← mulOrPanic 64 local_ w.stride)) spanEnd
  return ⟨start, min (← addOrPanic 64 start w.size) spanEnd⟩

/-- The windows (narrow nodes) whose nodes include wide node `c`. -/
def covering (w : Window) (c : Nat) : NodeRange :=
  let per := w.perSpan.getD 1
  let (base, offset) := if w.span = 0 then (0, c) else (c / w.span * per, c % w.span)
  let inSpan := min per (w.narrowLen - base)
  let lo := (offset + 1 - w.size + w.stride - 1) / w.stride
  let hi := min (offset / w.stride + 1) inSpan
  ⟨base + min lo hi, base + hi⟩

end Window

end RegionNet.Link
