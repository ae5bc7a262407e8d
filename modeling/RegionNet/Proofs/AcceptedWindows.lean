import Mathlib.Data.List.Sort
import RegionNet.Proofs.Inducing

namespace RegionNet.Link

/-!
# Windows of accepted layouts

Two facts about the receptive-field windows of a uniform link, one about the window arithmetic
and one about where its windows come from.

Windows laid exactly over their wide axis tile it, and `covering` is the exact inverse of the
windows' bounds (`Window.windows_tile_axis`): every window holds a node of the axis and stays
inside the run of the axis it restarts in, every node lies in some window, and the windows
covering a node are, in increasing order, exactly those that hold it. The two functions compute
that one relation from opposite ends: `Window.bounds` by span index and offset, `covering` by a
rounded-up division, each cut at the end of its span and axis. The engine's `Window.window`
computes the same bounds in word arithmetic when the wide axis fits twice in a word and the
window's size and span are words (`Window.window_eq_ok`); past that it panics.

The windows a uniform policy lays out from an accepted parameter text are safe for that
arithmetic (`UniformParams.accepted_layout_windows_safe`): every window has a positive size, a
stride of its size less the overlap, between one and the size, and a span that is no span or no
shorter than a window; so every division it makes is by a positive number, and the subtraction
giving the stride never goes below zero. The parameter check looks only at the axes of the
parameters' own rank, while the windows are later asked for at the rank of the dimensions, a
list of one entry standing for every axis; the two agree (`UniformParams.windowFor_checked`).
-/

namespace NodeRange

/-- A range whose nodes are the nodes below `n` that satisfy `P` lists them in increasing
order, as the matching nodes below `n` do. -/
theorem toList_eq_filter
    {r : NodeRange}
    {n : Nat}
    {P : Nat → Bool}
    (members : ∀ k, k ∈ r.toList ↔ k < n ∧ P k = true) :
    r.toList = (List.range n).filter P := by
  -- two increasing lists with the same members are equal
  refine List.Pairwise.eq_of_mem_iff (r := (· < ·)) (List.pairwise_lt_range' 1 Nat.one_pos)
    (List.pairwise_lt_range.filter _) fun k => ?_
  rw [members, List.mem_filter, List.mem_range]

end NodeRange

namespace Window

variable {w : Window}

/-- Run `j` of the wide axis: span `j`, cut at the end of the axis; without spans, the whole
axis. -/
def spanRun (w : Window) (j : Nat) : NodeRange :=
  if w.span = 0 then ⟨0, w.wideLen⟩ else ⟨j * w.span, min ((j + 1) * w.span) w.wideLen⟩

/-- A window that holds a node lies inside one run of the wide axis: the span it restarts in. -/
theorem window_within_spanRun
    (w : Window)
    (k : Nat)
    (nonempty : (w.bounds k).start < (w.bounds k).stop) :
    ∃ j, (w.spanRun j).start ≤ (w.bounds k).start ∧ (w.bounds k).stop ≤ (w.spanRun j).stop := by
  by_cases spanless : w.span = 0
  · refine ⟨0, ?_⟩
    simp only [bounds, spanRun, spanless, ↓reduceIte] at nonempty ⊢
    omega
  · -- the window is cut at the end of its span; being non-empty, it starts inside the span
    refine ⟨k / w.perSpan.getD 1, ?_⟩
    simp only [bounds, spanRun, spanless, ↓reduceIte, Nat.succ_mul] at nonempty ⊢
    omega

/--
What windows laid exactly over their wide axis do: every window holds a node of the axis and
lies in one run of it, every node lies in some window, and `covering` lists, in increasing
order, exactly the windows that hold a node.
-/
structure TilesAxis (w : Window) : Prop where
  nonempty : ∀ k < w.narrowLen, (w.bounds k).start < (w.bounds k).stop
  inside : ∀ k < w.narrowLen, (w.bounds k).stop ≤ w.wideLen
  inRun : ∀ k < w.narrowLen,
    ∃ j, (w.spanRun j).start ≤ (w.bounds k).start ∧ (w.bounds k).stop ≤ (w.spanRun j).stop
  covers : ∀ c < w.wideLen, ∃ k < w.narrowLen, c ∈ (w.bounds k).toList
  covering_eq : ∀ c < w.wideLen,
    (w.covering c).toList = (List.range w.narrowLen).filter fun k => c ∈ (w.bounds k).toList

/--
Windows that advance by at least one node and by no more than their size, laid exactly over
their wide axis, tile it, and `covering` inverts `window`.
-/
theorem windows_tile_axis
    (valid : w.Valid)
    (laidOut : w.windowsOver w.wideLen = some w.narrowLen) :
    w.TilesAxis where
  nonempty := fun _ counted => window_nonempty valid laidOut counted
  inside := fun k _ => bounds_stop_le w k
  inRun := fun k counted => window_within_spanRun w k (window_nonempty valid laidOut counted)
  covers := fun _ inside => exists_window valid laidOut inside
  covering_eq := fun c inside =>
    NodeRange.toList_eq_filter fun k => by
      rw [mem_covering_iff valid laidOut inside k, decide_eq_true_iff]

/-- Windows of two nodes, two apart, in spans of four over five nodes, a last window cut at
the end of each span: three windows, `[0, 2)`, `[2, 4)` and `[4, 5)`. -/
example :
    let w : Window :=
      { size := 2, stride := 2, span := 4, strict := false, wideLen := 5, narrowLen := 3 }
    (List.range 3).map w.window = [.ok ⟨0, 2⟩, .ok ⟨2, 4⟩, .ok ⟨4, 5⟩] := by
  decide

example :
    let w : Window :=
      { size := 2, stride := 2, span := 4, strict := false, wideLen := 5, narrowLen := 3 }
    (List.range 5).map (fun c => (w.covering c).toList) = [[0], [0], [1], [1], [2]] := by
  decide

/--
The divisors of the window arithmetic are positive: the stride, by which `run` and `covering`
divide; the windows of one span, by which `window` divides a window's number; and every count
of windows a run gives, by which `wideFor` divides. The span divides only where it is not zero.
-/
structure SafeDivisors (w : Window) : Prop where
  stride_pos : 0 < w.stride
  perSpan_pos : 0 < w.perSpan.getD 1
  run_pos : ∀ {len count : Nat}, w.run len = some count → 0 < count

/-- Windows that advance divide only by positive numbers. -/
theorem safeDivisors_of_stride_pos
    (advances : 0 < w.stride) :
    w.SafeDivisors where
  stride_pos := advances
  perSpan_pos := by
    unfold perSpan
    split
    · simp
    · -- with spans, the windows of a span, or one when a span holds none
      cases per : w.run w.span with
      | none => simp
      | some count => simpa using run_pos per
  run_pos := run_pos

end Window

namespace UniformParams

/-- An axis has no problem exactly when its windows have a positive size, overlap by less than
their size, and restart in spans no shorter than a window, if at all. -/
theorem axisProblem_eq_none_iff
    {size overlap span : Nat} :
    axisProblem size overlap span = none ↔
      0 < size ∧ overlap < size ∧ (span = 0 ∨ size ≤ span) := by
  unfold axisProblem
  split_ifs with zero full exceeds short
  · simp only [false_iff]
    omega
  · simp only [false_iff]
    omega
  · simp only [false_iff]
    omega
  · simp only [Bool.and_eq_true, decide_eq_true_eq] at short
    simp only [false_iff]
    omega
  · simp only [Bool.and_eq_true, decide_eq_true_eq, not_and, Nat.not_lt] at short
    simp only [true_iff]
    omega

/--
The windows a uniform policy made from a parameter text lays out along any axis of any rank are
safe: a positive size, a stride of the size less the overlap read for that axis, which is smaller
than the size, so that the stride lies between one and the size, and a span that is either none
or no shorter than a window. Whatever lengths the two axes then have, every division the window
arithmetic makes is by a positive number.
-/
theorem accepted_layout_windows_safe
    {text : String}
    {params : UniformParams}
    (created : LinkPolicy.uniform text = .ok { kind := .uniform params })
    {axis rank : Nat}
    (below : axis < rank)
    {w : Window}
    (found : params.windowFor axis rank = .ok w) :
    ∃ overlap, axisValue params.rfOverlap 0 axis rank = .ok overlap ∧ overlap < w.size ∧
      w.stride = w.size - overlap ∧ 1 ≤ w.size ∧ 1 ≤ w.stride ∧ w.stride ≤ w.size ∧
      (w.span = 0 ∨ w.size ≤ w.span) ∧
      ∀ wide narrow, ({ w with wideLen := wide, narrowLen := narrow } : Window).SafeDivisors := by
  obtain ⟨parsedParams, parsed, made⟩ := LinkPolicy.uniform_eq_ok created
  obtain rfl : params = parsedParams := by
    simpa using made
  obtain ⟨size, overlap, span, overlapped, noProblem, rfl⟩ :=
    windowFor_checked (validate_of_parse parsed) below found
  obtain ⟨sized, smaller, spanned⟩ := axisProblem_eq_none_iff.mp noProblem
  refine ⟨overlap, overlapped, smaller, rfl, sized, by dsimp only; omega, by dsimp only; omega,
    spanned, fun wide narrow => Window.safeDivisors_of_stride_pos ?_⟩
  dsimp only
  omega

/-- Fields of three nodes overlapping by one, in spans of six: along every axis of every rank
the windows are three nodes wide, two apart, and restart every six nodes. -/
theorem overlapping_fields_windows_safe :
    LinkPolicy.uniform "\x7b\"rf_size\": [3], \"rf_overlap\": [1], \"span\": [6]\x7d" =
        .ok { kind := .uniform { rfSize := some [3], rfOverlap := some [1], span := some [6] } } ∧
      0 < 2 ∧
      ({ rfSize := some [3], rfOverlap := some [1], span := some [6] } : UniformParams).windowFor
        0 2 = .ok { size := 3, stride := 2, span := 6, strict := true } ∧
      ∃ overlap, axisValue (some [1]) 0 0 2 = .ok overlap ∧ overlap < 3 ∧ 2 = 3 - overlap ∧
        1 ≤ 3 ∧ 1 ≤ 2 ∧ 2 ≤ 3 ∧ (6 = 0 ∨ 3 ≤ 6) ∧
        ∀ wide narrow, Window.SafeDivisors
          { size := 3, stride := 2, span := 6, strict := true, wideLen := wide, narrowLen := narrow } :=
  have created :
      LinkPolicy.uniform "\x7b\"rf_size\": [3], \"rf_overlap\": [1], \"span\": [6]\x7d" =
        .ok { kind := .uniform { rfSize := some [3], rfOverlap := some [1], span := some [6] } } :=
    by decide +kernel
  ⟨created, by decide, by decide,
    @accepted_layout_windows_safe _ _ created 0 2 (by decide)
      { size := 3, stride := 2, span := 6, strict := true } (by decide)⟩

end UniformParams

end RegionNet.Link
