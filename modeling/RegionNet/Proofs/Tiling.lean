import RegionNet.Proofs.Ranges

namespace RegionNet.Link

/-!
# Windows tile the wide axis

A window layout cuts the wide axis into `narrowLen` windows of `size` nodes, `stride` apart,
restarting at each span. When the parameter check accepts the layout (the windows over the wide
axis number exactly `narrowLen`), every window holds a node, every node lies in a window, and
`covering` lists exactly the windows holding a node (`Window.mem_covering_iff`).

An axis with spans is handled span by span: each span is laid out as an axis without spans
(`Window.spanAxis`) and its windows are moved to where the span starts (`NodeRange.shift`).
From this, every axis ratio a policy builds reads each destination coordinate from a non-empty
range of the source axis and reads every source coordinate (`AxisRatio.Tiles`).
-/

namespace NodeRange

/-- The range moved `a` nodes on. -/
def shift (r : NodeRange) (a : Nat) : NodeRange := ⟨a + r.start, a + r.stop⟩

@[simp] theorem mem_shift_toList {r : NodeRange} {a x : Nat} :
    x ∈ (r.shift a).toList ↔ a ≤ x ∧ x - a ∈ r.toList := by
  simp only [shift, mem_toList]
  omega

end NodeRange

namespace Window

variable {w : Window}

/-- A layout the parameter check accepts: windows advance by at least one node and by no more
than their size. -/
structure Valid (w : Window) : Prop where
  stride_pos : 0 < w.stride
  stride_le_size : w.stride ≤ w.size

/--
A run of `len` nodes holds `R` windows: at least one, the last starting inside the run and
reaching its end, and no fewer windows reach the end.
-/
theorem run_spec
    (valid : w.Valid)
    {len R : Nat}
    (ran : w.run len = some R) :
    0 < R ∧ (R - 1) * w.stride < len ∧ len ≤ (R - 1) * w.stride + w.size ∧
      ∀ j, len ≤ j * w.stride + w.size → R - 1 ≤ j := by
  have positive := valid.stride_pos
  have atMostSize := valid.stride_le_size
  unfold run at ran
  split at ran
  · -- shorter than a window: one partial window, when loose
    rename_i short
    split at ran
    · rename_i loose
      cases ran
      simp only [Bool.and_eq_true, Bool.not_eq_true', decide_eq_true_eq] at loose
      refine ⟨by omega, by omega, by omega, fun j _ => by omega⟩
    · cases ran
  · rename_i long
    dsimp only at ran
    -- name the quotient and remainder of the part of the run after the first window
    obtain ⟨q, r, divided, remainder, quotientIs, remainderIs⟩ :
        ∃ q r, q * w.stride + r = len - w.size ∧ r < w.stride ∧
          (len - w.size) / w.stride = q ∧ (len - w.size) % w.stride = r :=
      ⟨_, _, Nat.div_add_mod' _ _, Nat.mod_lt _ positive, rfl, rfl⟩
    rw [quotientIs, remainderIs] at ran
    split at ran
    · -- the windows end exactly at the end of the run
      rename_i exact
      cases ran
      simp only [Nat.add_sub_cancel]
      refine ⟨by omega, by omega, by omega, fun j reaches => Nat.le_of_not_lt fun fewer => ?_⟩
      have below := Nat.mul_lt_mul_of_pos_right fewer positive
      omega
    · split at ran
      · cases ran
      · -- a last partial window is added
        cases ran
        have last : (q + 2 - 1) * w.stride = q * w.stride + w.stride := Nat.succ_mul _ _
        rw [last]
        refine ⟨by omega, by omega, by omega, fun j reaches => Nat.le_of_not_lt fun fewer => ?_⟩
        have below := Nat.mul_le_mul_right w.stride (Nat.le_of_lt_succ fewer)
        omega

/-- Without spans, window `k` starts `k` strides in, cut at the end of the axis. -/
theorem window_of_spanless
    (spanless : w.span = 0)
    (k : Nat) :
    w.bounds k =
      ⟨min (k * w.stride) w.wideLen, min (min (k * w.stride) w.wideLen + w.size) w.wideLen⟩ := by
  simp [bounds, spanless]

/--
Without spans, the windows covering node `c` run from the first window that reaches `c` to the
last one that starts at or before it, cut at the number of windows.
-/
theorem covering_of_spanless
    (spanless : w.span = 0)
    (c : Nat) :
    w.covering c =
      ⟨min ((c + 1 - w.size + w.stride - 1) / w.stride) (min (c / w.stride + 1) w.narrowLen),
        min (c / w.stride + 1) w.narrowLen⟩ := by
  have whole : min (max w.narrowLen 1) w.narrowLen = w.narrowLen := by omega
  simp only [covering, spanless, perSpan, ↓reduceIte, Option.getD_some, Nat.zero_add, Nat.sub_zero,
    whole]

/--
Along an axis without spans that holds exactly its windows, window `k` is a window holding node
`c` exactly when `k` lies between the first window reaching `c` and the last one starting at or
before it.
-/
theorem mem_window_iff_of_run
    (valid : w.Valid)
    (spanless : w.span = 0)
    (ran : w.run w.wideLen = some w.narrowLen)
    {c : Nat}
    (inside : c < w.wideLen)
    (k : Nat) :
    (k < w.narrowLen ∧ c ∈ (w.bounds k).toList) ↔
      (c + 1 - w.size + w.stride - 1) / w.stride ≤ k ∧ k < min (c / w.stride + 1) w.narrowLen := by
  obtain ⟨-, lastStarts, -, -⟩ := run_spec valid ran
  have positive := valid.stride_pos
  have reaches : (c + 1 - w.size + w.stride - 1) / w.stride ≤ k ↔ c < k * w.stride + w.size := by
    rw [Nat.div_le_iff_le_mul_add_pred positive, Nat.mul_comm]
    omega
  have startsBefore : k < c / w.stride + 1 ↔ k * w.stride ≤ c := by
    rw [Nat.lt_succ_iff, Nat.le_div_iff_mul_le positive]
  rw [window_of_spanless spanless, NodeRange.mem_toList, reaches]
  dsimp only
  generalize c / w.stride = last at startsBefore ⊢
  -- a window below the count starts inside the axis, so only the end of the axis cuts it
  have startsInside : k < w.narrowLen → k * w.stride ≤ (w.narrowLen - 1) * w.stride :=
    fun counted => Nat.mul_le_mul_right _ (by omega)
  omega

/-- Along an axis without spans that holds exactly its windows, the windows covering a node are
those that hold it. -/
theorem mem_covering_iff_of_run
    (valid : w.Valid)
    (spanless : w.span = 0)
    (ran : w.run w.wideLen = some w.narrowLen)
    {c : Nat}
    (inside : c < w.wideLen)
    (k : Nat) :
    k ∈ (w.covering c).toList ↔ k < w.narrowLen ∧ c ∈ (w.bounds k).toList := by
  rw [mem_window_iff_of_run valid spanless ran inside, covering_of_spanless spanless,
    NodeRange.mem_toList]
  dsimp only
  omega

/-- Along an axis without spans that holds exactly its windows, every window holds a node. -/
theorem window_nonempty_of_run
    (valid : w.Valid)
    (spanless : w.span = 0)
    (ran : w.run w.wideLen = some w.narrowLen)
    {k : Nat}
    (counted : k < w.narrowLen) :
    (w.bounds k).start < (w.bounds k).stop := by
  obtain ⟨-, lastStarts, -, -⟩ := run_spec valid ran
  have startsInside : k * w.stride ≤ (w.narrowLen - 1) * w.stride :=
    Nat.mul_le_mul_right _ (by omega)
  have positive := valid.stride_pos
  have atMostSize := valid.stride_le_size
  rw [window_of_spanless spanless]
  dsimp only
  omega

/-- Along an axis without spans that holds exactly its windows, every node lies in a window. -/
theorem exists_window_of_run
    (valid : w.Valid)
    (spanless : w.span = 0)
    (ran : w.run w.wideLen = some w.narrowLen)
    {c : Nat}
    (inside : c < w.wideLen) :
    ∃ k, k < w.narrowLen ∧ c ∈ (w.bounds k).toList := by
  obtain ⟨someWindow, -, reachesEnd, -⟩ := run_spec valid ran
  have positive := valid.stride_pos
  have atMostSize := valid.stride_le_size
  -- the first window reaching `c` starts at or before `c`, and is a window of the axis
  refine ⟨(c + 1 - w.size + w.stride - 1) / w.stride,
    (mem_window_iff_of_run valid spanless ran inside _).mpr ⟨Nat.le_refl _, ?_⟩⟩
  have nearStart := Nat.mod_lt c positive
  have split := Nat.div_add_mod' c w.stride
  have beforeLast : (c + 1 - w.size + w.stride - 1) / w.stride ≤ w.narrowLen - 1 := by
    rw [Nat.div_le_iff_le_mul_add_pred positive, Nat.mul_comm]
    omega
  have beforeStart : (c + 1 - w.size + w.stride - 1) / w.stride ≤ c / w.stride := by
    rw [Nat.div_le_iff_le_mul_add_pred positive, Nat.mul_comm]
    omega
  generalize (c + 1 - w.size + w.stride - 1) / w.stride = first at beforeLast beforeStart ⊢
  generalize c / w.stride = last at beforeStart ⊢
  omega

/-- One span of `len` wide nodes holding `count` windows, laid out as an axis without spans. -/
def spanAxis (w : Window) (len count : Nat) : Window :=
  { w with span := 0, wideLen := len, narrowLen := count }

theorem spanAxis_valid
    (valid : w.Valid)
    (len count : Nat) :
    (w.spanAxis len count).Valid :=
  ⟨valid.stride_pos, valid.stride_le_size⟩

@[simp] theorem run_spanAxis (len count n : Nat) : (w.spanAxis len count).run n = w.run n := rfl

/-- With spans, window `k` is window `k % P` of its span, moved to where the span starts. -/
theorem window_of_spanned
    (spanned : w.span ≠ 0)
    {P : Nat}
    (per : w.run w.span = some P)
    (k count : Nat)
    (starts : k / P * w.span ≤ w.wideLen) :
    w.bounds k =
      ((w.spanAxis (min w.span (w.wideLen - k / P * w.span)) count).bounds (k % P)).shift
        (k / P * w.span) := by
  rw [@window_of_spanless (w.spanAxis _ count) rfl]
  simp only [bounds, perSpan, spanned, per, spanAxis, NodeRange.shift, ↓reduceIte, Option.getD_some,
    NodeRange.mk.injEq]
  omega

/-- With spans, the windows covering node `c` are those covering its offset in its span, counted
from the span's first window. -/
theorem covering_of_spanned
    (spanned : w.span ≠ 0)
    {P : Nat}
    (per : w.run w.span = some P)
    (c len : Nat) :
    w.covering c =
      ((w.spanAxis len (min P (w.narrowLen - c / w.span * P))).covering (c % w.span)).shift
        (c / w.span * P) := by
  rw [@covering_of_spanless (w.spanAxis len _) rfl]
  simp only [covering, perSpan, spanned, per, spanAxis, NodeRange.shift, ↓reduceIte,
    Option.getD_some]

/--
With spans, the windows over an axis are those of its whole spans, `P` each, and `T` more in a
shorter last span when the spans do not fill the axis.
-/
theorem windowsOver_of_spanned
    (spanned : w.span ≠ 0)
    {wide narrow : Nat}
    (laidOut : w.windowsOver wide = some narrow) :
    ∃ P T, w.run w.span = some P ∧ narrow = wide / w.span * P + T ∧
      (wide % w.span = 0 ∧ T = 0 ∨ wide % w.span ≠ 0 ∧ w.run (wide % w.span) = some T) := by
  unfold windowsOver at laidOut
  simp only [spanned, ↓reduceIte] at laidOut
  cases per : w.run w.span with
  | none =>
      by_cases filled : wide % w.span = 0
      · simp [filled, per, bind, Option.bind] at laidOut
      · cases tail : w.run (wide % w.span) <;>
          simp [filled, per, tail, bind, Option.bind] at laidOut
  | some P =>
      by_cases filled : wide % w.span = 0
      · simp [filled, per, bind, Option.bind] at laidOut
        exact ⟨P, 0, rfl, by omega, .inl ⟨filled, rfl⟩⟩
      · cases tail : w.run (wide % w.span) with
        | none =>
            simp [filled, per, tail, bind, Option.bind] at laidOut
        | some T =>
            simp [filled, per, tail, bind, Option.bind] at laidOut
            exact ⟨P, T, rfl, laidOut.2.symm, .inr ⟨filled, rfl⟩⟩

/-- A run shorter than a span holds no more windows than the span. -/
theorem run_le_of_lt
    (valid : w.Valid)
    {P T len : Nat}
    (per : w.run w.span = some P)
    (shorter : len < w.span)
    (ran : w.run len = some T) :
    T ≤ P := by
  obtain ⟨spanWindow, -, spanReached, -⟩ := run_spec valid per
  obtain ⟨-, -, -, fewest⟩ := run_spec valid ran
  have := fewest (P - 1) (by omega)
  omega

/-- Each span that starts inside the axis holds a run of windows: `P` in a whole span, the
rest in the last one. -/
theorem run_of_span
    (valid : w.Valid)
    (spanned : w.span ≠ 0)
    (laidOut : w.windowsOver w.wideLen = some w.narrowLen)
    {P : Nat}
    (per : w.run w.span = some P)
    {σ : Nat}
    (starts : σ * w.span < w.wideLen) :
    w.run (min w.span (w.wideLen - σ * w.span)) = some (min P (w.narrowLen - σ * P)) := by
  obtain ⟨P', T, per', count, tail⟩ := windowsOver_of_spanned spanned laidOut
  obtain rfl : P = P' := Option.some.inj (per.symm.trans per')
  have spans := Nat.div_add_mod' w.wideLen w.span
  have lastShort := Nat.mod_lt w.wideLen (Nat.pos_of_ne_zero spanned)
  by_cases whole : σ < w.wideLen / w.span
  · -- a whole span, followed by at least its own length of axis and its own count of windows
    have nextSpan : (σ + 1) * w.span ≤ w.wideLen / w.span * w.span :=
      Nat.mul_le_mul_right _ whole
    have nextWindows : (σ + 1) * P ≤ w.wideLen / w.span * P := Nat.mul_le_mul_right _ whole
    rw [Nat.succ_mul] at nextSpan nextWindows
    have wholeLength : min w.span (w.wideLen - σ * w.span) = w.span := by omega
    have wholeCount : min P (w.narrowLen - σ * P) = P := by omega
    rw [wholeLength, wholeCount]
    exact per
  · -- the last span, which the spans before it do not fill
    have beforeNext : σ * w.span < (w.wideLen / w.span + 1) * w.span := by
      rw [Nat.succ_mul]
      omega
    obtain rfl : σ = w.wideLen / w.span := by
      have := Nat.lt_of_mul_lt_mul_right beforeNext
      omega
    rcases tail with ⟨filled, -⟩ | ⟨-, ran⟩
    · omega
    · have fewer := run_le_of_lt valid per lastShort ran
      have lastLength : min w.span (w.wideLen - w.wideLen / w.span * w.span) =
          w.wideLen % w.span := by omega
      have lastCount : min P (w.narrowLen - w.wideLen / w.span * P) = T := by omega
      rw [lastLength, lastCount]
      exact ran

/-- Window `k` of an axis with spans lies in a span that starts inside the axis, as one of the
windows that span holds. -/
theorem slot_of_window
    (valid : w.Valid)
    (spanned : w.span ≠ 0)
    (laidOut : w.windowsOver w.wideLen = some w.narrowLen)
    {P : Nat}
    (per : w.run w.span = some P)
    {k : Nat}
    (counted : k < w.narrowLen) :
    k / P * w.span < w.wideLen ∧ k % P < min P (w.narrowLen - k / P * P) := by
  obtain ⟨P', T, per', count, tail⟩ := windowsOver_of_spanned spanned laidOut
  obtain rfl : P = P' := Option.some.inj (per.symm.trans per')
  obtain ⟨spanWindow, -, -, -⟩ := run_spec valid per
  have spans := Nat.div_add_mod' w.wideLen w.span
  have lastShort := Nat.mod_lt w.wideLen (Nat.pos_of_ne_zero spanned)
  have slots := Nat.div_add_mod' k P
  have slot := Nat.mod_lt k spanWindow
  by_cases whole : k / P < w.wideLen / w.span
  · have nextSpan : (k / P + 1) * w.span ≤ w.wideLen / w.span * w.span :=
      Nat.mul_le_mul_right _ whole
    rw [Nat.succ_mul] at nextSpan
    omega
  · -- beyond the whole spans only the last span's windows remain, fewer than a span holds
    have fromLast : w.wideLen / w.span * P ≤ k / P * P :=
      Nat.mul_le_mul_right _ (Nat.le_of_not_lt whole)
    rcases tail with ⟨-, noTail⟩ | ⟨filled, ran⟩
    · omega
    · have fewer := run_le_of_lt valid per lastShort ran
      have beforeNext : k < (w.wideLen / w.span + 1) * P := by
        rw [Nat.succ_mul]
        omega
      have lastSlot : k / P = w.wideLen / w.span := by
        have := (Nat.div_lt_iff_lt_mul spanWindow).mpr beforeNext
        omega
      rw [lastSlot]
      omega

/-- A node of an axis with spans lies at offset `c % span` of a span that starts inside the
axis, and within that span's part of the axis. -/
theorem slot_of_node
    (spanned : w.span ≠ 0)
    {c : Nat}
    (inside : c < w.wideLen) :
    c / w.span * w.span < w.wideLen ∧
      c % w.span < min w.span (w.wideLen - c / w.span * w.span) := by
  have offsets := Nat.div_add_mod' c w.span
  have offsetInside := Nat.mod_lt c (Nat.pos_of_ne_zero spanned)
  omega

/-- Every window of a layout the parameter check accepts holds a node. -/
theorem window_nonempty
    (valid : w.Valid)
    (laidOut : w.windowsOver w.wideLen = some w.narrowLen)
    {k : Nat}
    (counted : k < w.narrowLen) :
    (w.bounds k).start < (w.bounds k).stop := by
  by_cases spanless : w.span = 0
  · have ran : w.run w.wideLen = some w.narrowLen := by simpa [windowsOver, spanless] using laidOut
    exact window_nonempty_of_run valid spanless ran counted
  · obtain ⟨P, -, per, -, -⟩ := windowsOver_of_spanned spanless laidOut
    obtain ⟨starts, slot⟩ := slot_of_window valid spanless laidOut per counted
    have ran := run_of_span valid spanless laidOut per starts
    rw [window_of_spanned spanless per k (min P (w.narrowLen - k / P * P)) (Nat.le_of_lt starts)]
    have inSpan := window_nonempty_of_run (spanAxis_valid valid _ _) rfl ran slot
    simp only [NodeRange.shift]
    omega

/--
The windows covering a node of the axis are exactly the windows that hold it: `covering` is the
inverse of `window`.
-/
theorem mem_covering_iff
    (valid : w.Valid)
    (laidOut : w.windowsOver w.wideLen = some w.narrowLen)
    {c : Nat}
    (inside : c < w.wideLen)
    (k : Nat) :
    k ∈ (w.covering c).toList ↔ k < w.narrowLen ∧ c ∈ (w.bounds k).toList := by
  by_cases spanless : w.span = 0
  · have ran : w.run w.wideLen = some w.narrowLen := by simpa [windowsOver, spanless] using laidOut
    exact mem_covering_iff_of_run valid spanless ran inside k
  · obtain ⟨P, -, per, -, -⟩ := windowsOver_of_spanned spanless laidOut
    obtain ⟨perPositive, -, -, -⟩ := run_spec valid per
    have offsets := Nat.div_add_mod' c w.span
    -- `c` lies at offset `c % span` of span `c / span`, which starts inside the axis
    obtain ⟨starts, offsetInSpan⟩ := slot_of_node spanless inside
    have ran := run_of_span valid spanless laidOut per starts
    rw [covering_of_spanned spanless per c (min w.span (w.wideLen - c / w.span * w.span)),
      NodeRange.mem_shift_toList,
      mem_covering_iff_of_run (spanAxis_valid valid _ _) rfl ran offsetInSpan]
    constructor
    · rintro ⟨after, counted, held⟩
      -- window `k` is window `k - c / span * P` of the span of `c`
      have slots := Nat.div_add_mod' k P
      have sameSpan : k / P = c / w.span := by
        refine Nat.div_eq_of_lt_le (by omega) ?_
        rw [Nat.succ_mul]
        have := Nat.lt_min.mp counted
        omega
      have inSlot : k % P = k - c / w.span * P := by
        rw [← sameSpan]
        omega
      refine ⟨by have := Nat.lt_min.mp counted; omega, ?_⟩
      rw [window_of_spanned spanless per k (min P (w.narrowLen - c / w.span * P))
        (by rw [sameSpan]; omega), NodeRange.mem_shift_toList, sameSpan, inSlot]
      refine ⟨by omega, ?_⟩
      have sameOffset : c - c / w.span * w.span = c % w.span := by omega
      rw [sameOffset]
      exact held
    · rintro ⟨counted, held⟩
      obtain ⟨startsK, slot⟩ := slot_of_window valid spanless laidOut per counted
      rw [window_of_spanned spanless per k (min P (w.narrowLen - k / P * P)) (Nat.le_of_lt startsK),
        NodeRange.mem_shift_toList] at held
      obtain ⟨after, inWindow⟩ := held
      -- `c` lies in the span of window `k`, which is therefore the span of `c`
      have inSpanK : ((w.spanAxis (min w.span (w.wideLen - k / P * w.span))
          (min P (w.narrowLen - k / P * P))).bounds (k % P)).stop ≤
            min w.span (w.wideLen - k / P * w.span) :=
        bounds_stop_le _ _
      rw [NodeRange.mem_toList] at inWindow
      have sameSpan : c / w.span = k / P := by
        refine Nat.div_eq_of_lt_le (by omega) ?_
        rw [Nat.succ_mul]
        omega
      have slots := Nat.div_add_mod' k P
      refine ⟨by rw [sameSpan]; omega, ?_⟩
      have sameSlot : k - c / w.span * P = k % P := by
        rw [sameSpan]
        omega
      have sameOffset : c % w.span = c - k / P * w.span := by
        rw [← sameSpan]
        omega
      rw [sameSlot, sameOffset, sameSpan]
      refine ⟨slot, ?_⟩
      rw [NodeRange.mem_toList]
      exact inWindow

/-- Some window covers each node of the axis. -/
theorem exists_mem_covering
    (valid : w.Valid)
    (laidOut : w.windowsOver w.wideLen = some w.narrowLen)
    {c : Nat}
    (inside : c < w.wideLen) :
    ∃ k, k ∈ (w.covering c).toList := by
  by_cases spanless : w.span = 0
  · have ran : w.run w.wideLen = some w.narrowLen := by simpa [windowsOver, spanless] using laidOut
    obtain ⟨k, counted, held⟩ := exists_window_of_run valid spanless ran inside
    exact ⟨k, (mem_covering_iff_of_run valid spanless ran inside k).mpr ⟨counted, held⟩⟩
  · obtain ⟨P, -, per, -, -⟩ := windowsOver_of_spanned spanless laidOut
    obtain ⟨starts, offsetInSpan⟩ := slot_of_node spanless inside
    have ran := run_of_span valid spanless laidOut per starts
    -- a window of the span of `c` holds its offset; counted from the span's first window
    obtain ⟨j, counted, held⟩ :=
      exists_window_of_run (spanAxis_valid valid _ _) rfl ran offsetInSpan
    refine ⟨c / w.span * P + j, ?_⟩
    rw [covering_of_spanned spanless per c (min w.span (w.wideLen - c / w.span * w.span)),
      NodeRange.mem_shift_toList, Nat.add_sub_cancel_left]
    exact ⟨Nat.le_add_right _ _,
      (mem_covering_iff_of_run (spanAxis_valid valid _ _) rfl ran offsetInSpan j).mpr
        ⟨counted, held⟩⟩

/-- Each node of the axis lies in some window. -/
theorem exists_window
    (valid : w.Valid)
    (laidOut : w.windowsOver w.wideLen = some w.narrowLen)
    {c : Nat}
    (inside : c < w.wideLen) :
    ∃ k, k < w.narrowLen ∧ c ∈ (w.bounds k).toList := by
  obtain ⟨k, covers⟩ := exists_mem_covering valid laidOut inside
  exact ⟨k, (mem_covering_iff valid laidOut inside k).mp covers⟩

/-! ### Word arithmetic of the windows -/

/-- A run of more than one window is at least one window long. -/
theorem size_le_of_run {len R : Nat} (ran : w.run len = some R) (several : 1 < R) :
    w.size ≤ len := by
  unfold run at ran
  split at ran
  · split at ran
    · cases ran
      omega
    · cases ran
  · omega

/-- An axis shorter than one window holds at most one window. -/
theorem narrowLen_le_one
    (spanFits : w.span = 0 ∨ w.size ≤ w.span)
    (laidOut : w.windowsOver w.wideLen = some w.narrowLen)
    (short : w.wideLen < w.size) :
    w.narrowLen ≤ 1 := by
  by_cases spanless : w.span = 0
  · have ran : w.run w.wideLen = some w.narrowLen := by
      simpa [windowsOver, spanless] using laidOut
    exact Nat.le_of_not_lt fun several => by
      have := size_le_of_run ran several
      omega
  · obtain ⟨P, T, -, count, tail⟩ := windowsOver_of_spanned spanless laidOut
    -- the axis is shorter than one span, so it is all tail
    have noWhole : w.wideLen / w.span = 0 := Nat.div_eq_of_lt (by omega)
    rw [noWhole, Nat.zero_mul, Nat.zero_add] at count
    rcases tail with ⟨-, noTail⟩ | ⟨-, ran⟩
    · omega
    · exact count ▸ Nat.le_of_not_lt fun several => by
        have := size_le_of_run ran several
        have := Nat.mod_le w.wideLen w.span
        omega

/-- The first window is computed without overflow when its size and span are words. -/
theorem window_zero_eq_ok (sizeWord : w.size < wordSize) (spanWord : w.span < wordSize) :
    w.window 0 = .ok (w.bounds 0) := by
  unfold wordSize at sizeWord spanWord
  by_cases spanless : w.span = 0
  · simp [window, bounds, spanless, sizeWord, bind, Except.bind, pure, Except.pure]
  · simp [window, bounds, spanless, sizeWord, spanWord, bind, Except.bind, pure, Except.pure]

/--
Window `k` of a layout the parameter check accepts is computed without overflow when the wide
axis fits twice in a word and the size and span are words: every span start and window start
lies inside the axis, and every end lies at most one span or one window past it.
-/
theorem window_eq_ok
    (valid : w.Valid)
    (spanFits : w.span = 0 ∨ w.size ≤ w.span)
    (laidOut : w.windowsOver w.wideLen = some w.narrowLen)
    {k : Nat}
    (counted : k < w.narrowLen)
    (wideRoom : 2 * w.wideLen < wordSize)
    (sizeWord : w.size < wordSize)
    (spanWord : w.span < wordSize) :
    w.window k = .ok (w.bounds k) := by
  by_cases short : w.wideLen < w.size
  · -- a window longer than the axis: only window 0 is counted
    obtain rfl : k = 0 := by
      have := narrowLen_le_one spanFits laidOut short
      omega
    exact window_zero_eq_ok sizeWord spanWord
  unfold wordSize at wideRoom sizeWord spanWord
  by_cases spanless : w.span = 0
  · have ran : w.run w.wideLen = some w.narrowLen := by
      simpa [windowsOver, spanless] using laidOut
    obtain ⟨-, lastStarts, -, -⟩ := run_spec valid ran
    have starts : k * w.stride < w.wideLen :=
      Nat.lt_of_le_of_lt (Nat.mul_le_mul_right _ (by omega)) lastStarts
    have ends : min (k * w.stride) w.wideLen + w.size < pow2 64 := by omega
    simp (disch := omega) [window, bounds, spanless, bind, Except.bind, pure, Except.pure]
  · obtain ⟨P, -, per, -, -⟩ := windowsOver_of_spanned spanless laidOut
    obtain ⟨spanStarts, slot⟩ := slot_of_window valid spanless laidOut per counted
    obtain ⟨-, lastInSpan, -, -⟩ := run_spec valid per
    have local_ : k % P * w.stride < w.span :=
      Nat.lt_of_le_of_lt (Nat.mul_le_mul_right _ (by omega)) lastInSpan
    -- a span after the first starts at least one span in
    have spanEnds : k / P * w.span + w.span < pow2 64 := by
      rcases Nat.eq_zero_or_pos (k / P) with first | later
      · rw [first, Nat.zero_mul]
        omega
      · have := Nat.le_mul_of_pos_left w.span later
        omega
    have perIs : w.perSpan.getD 1 = P := by simp [perSpan, spanless, per]
    simp (disch := omega) [window, bounds, spanless, perIs, bind, Except.bind, pure, Except.pure]

end Window

namespace AxisRatio

/--
Along one axis of `srcLen` source and `destLen` destination nodes, every destination coordinate
reads a non-empty range inside the source axis, and every source coordinate is read by some
destination coordinate.
-/
structure Tiles (r : AxisRatio) (srcLen destLen : Nat) : Prop where
  nonempty : ∀ c < destLen, (r.bounds c).start < (r.bounds c).stop
  inside : ∀ c < destLen, (r.bounds c).stop ≤ srcLen
  covers : ∀ x < srcLen, ∃ c < destLen, x ∈ (r.bounds c).toList

/-- Fanning out by the ratio of the axes reads each source node into a block of destination
nodes. -/
theorem fanOut_tiles
    {srcLen factor : Nat}
    (positive : 0 < factor) :
    (fanOut factor).Tiles srcLen (srcLen * factor) where
  nonempty := fun c _ => by simp [bounds]
  inside := fun c below => by
    have := Nat.div_lt_of_lt_mul (by rw [Nat.mul_comm]; exact below)
    simp only [bounds]
    omega
  covers := fun x below => by
    refine ⟨x * factor, Nat.mul_lt_mul_of_pos_right below positive, ?_⟩
    simp [bounds, Nat.mul_div_cancel _ positive]

/-- Fanning in by the ratio of the axes reads a block of source nodes into each destination
node. -/
theorem fanIn_tiles
    {destLen factor : Nat}
    (positive : 0 < factor) :
    (fanIn factor).Tiles (destLen * factor) destLen where
  nonempty := fun c _ => by
    simp only [bounds, Nat.succ_mul]
    omega
  inside := fun c below => Nat.mul_le_mul_right factor below
  covers := fun x below => by
    refine ⟨x / factor, Nat.div_lt_of_lt_mul (by rw [Nat.mul_comm]; exact below), ?_⟩
    have split := Nat.div_add_mod' x factor
    have remainder := Nat.mod_lt x positive
    simp only [bounds, NodeRange.mem_toList, Nat.succ_mul]
    omega

/-- The ratio found by `between` tiles its two axes. -/
theorem tiles_of_between
    {s d : Nat}
    {r : AxisRatio}
    (found : between s d = some r) :
    r.Tiles s d := by
  unfold between at found
  split at found
  · cases found
  · rename_i notEmpty
    simp only [Bool.or_eq_true, decide_eq_true_eq, not_or] at notEmpty
    split at found
    · rename_i divides
      cases found
      have wholeDest : s * (d / s) = d := Nat.mul_div_cancel' (Nat.dvd_of_mod_eq_zero divides)
      have positive : 0 < d / s :=
        Nat.div_pos (Nat.le_of_dvd (by omega) (Nat.dvd_of_mod_eq_zero divides)) (by omega)
      have tiles := @fanOut_tiles s (d / s) positive
      rw [wholeDest] at tiles
      exact tiles
    · split at found
      · rename_i _ divides
        cases found
        have wholeSrc : d * (s / d) = s := Nat.mul_div_cancel' (Nat.dvd_of_mod_eq_zero divides)
        have positive : 0 < s / d :=
          Nat.div_pos (Nat.le_of_dvd (by omega) (Nat.dvd_of_mod_eq_zero divides)) (by omega)
        have tiles := @fanIn_tiles d (s / d) positive
        rw [wholeSrc] at tiles
        exact tiles
      · cases found

/-- Gathering windows laid over the source axis tiles the two axes. -/
theorem gather_tiles
    {w : Window}
    (valid : w.Valid)
    {srcLen destLen : Nat}
    (laidOut : w.windowsOver srcLen = some destLen) :
    (gather { w with wideLen := srcLen, narrowLen := destLen }).Tiles srcLen destLen where
  nonempty := fun _ counted =>
    @Window.window_nonempty { w with wideLen := srcLen, narrowLen := destLen }
      ⟨valid.stride_pos, valid.stride_le_size⟩ laidOut _ counted
  inside := fun c _ => Window.bounds_stop_le _ c
  covers := fun _ inside =>
    @Window.exists_window { w with wideLen := srcLen, narrowLen := destLen }
      ⟨valid.stride_pos, valid.stride_le_size⟩ laidOut _ inside

/-- Scattering over windows laid over the destination axis tiles the two axes. -/
theorem scatter_tiles
    {w : Window}
    (valid : w.Valid)
    {srcLen destLen : Nat}
    (laidOut : w.windowsOver destLen = some srcLen) :
    (scatter { w with wideLen := destLen, narrowLen := srcLen }).Tiles srcLen destLen where
  nonempty := fun _ inside => by
    obtain ⟨k, covers⟩ := @Window.exists_mem_covering
      { w with wideLen := destLen, narrowLen := srcLen } ⟨valid.stride_pos, valid.stride_le_size⟩
      laidOut _ inside
    rw [NodeRange.mem_toList] at covers
    simp only [bounds]
    omega
  inside := fun c inside => by
    obtain ⟨k, covers⟩ := @Window.exists_mem_covering
      { w with wideLen := destLen, narrowLen := srcLen } ⟨valid.stride_pos, valid.stride_le_size⟩
      laidOut _ inside
    rw [NodeRange.mem_toList] at covers
    exact Window.covering_stop_le _ c (by omega)
  covers := fun x counted => by
    -- the first node of window `x` is covered by window `x`
    have nonempty := @Window.window_nonempty { w with wideLen := destLen, narrowLen := srcLen }
      ⟨valid.stride_pos, valid.stride_le_size⟩ laidOut _ counted
    have stops := Window.bounds_stop_le { w with wideLen := destLen, narrowLen := srcLen } x
    refine ⟨_, Nat.lt_of_lt_of_le nonempty stops, ?_⟩
    simp only [bounds]
    exact (@Window.mem_covering_iff { w with wideLen := destLen, narrowLen := srcLen }
      ⟨valid.stride_pos, valid.stride_le_size⟩ laidOut _ (Nat.lt_of_lt_of_le nonempty stops) x).mpr
      ⟨counted, NodeRange.mem_toList.mpr ⟨Nat.le_refl _, nonempty⟩⟩

/-! ### Word arithmetic of the ratios -/

/-- Fanning out reads a range inside the word for every destination coordinate below a word. -/
theorem fanOut_checked
    {destLen factor : Nat}
    (positive : 0 < factor)
    (destWord : destLen < wordSize) :
    (fanOut factor).Checked destLen := fun c below => by
  have := Nat.div_le_self c factor
  unfold wordSize at destWord
  simp (disch := omega) [sourceRange, bounds, Nat.pos_iff_ne_zero.mp positive, bind,
    Except.bind, pure, Except.pure]

/-- Fanning in reads a range inside the word when the whole source axis is counted in a word. -/
theorem fanIn_checked
    {destLen factor : Nat}
    (destWord : destLen < wordSize)
    (srcWord : destLen * factor < wordSize) :
    (fanIn factor).Checked destLen := fun c below => by
  have blockEnds : (c + 1) * factor ≤ destLen * factor := Nat.mul_le_mul_right factor below
  have blockStarts : c * factor ≤ (c + 1) * factor := Nat.mul_le_mul_right factor (by omega)
  unfold wordSize at destWord srcWord
  simp (disch := omega) [sourceRange, bounds, bind, Except.bind, pure, Except.pure]

/-- The ratio found by `between` two axes that are words reads its ranges without overflow. -/
theorem checked_of_between
    {s d : Nat}
    {r : AxisRatio}
    (found : between s d = some r)
    (srcWord : s < wordSize)
    (destWord : d < wordSize) :
    r.Checked d := by
  unfold between at found
  split at found
  · cases found
  · rename_i notEmpty
    simp only [Bool.or_eq_true, decide_eq_true_eq, not_or] at notEmpty
    split at found
    · rename_i divides
      cases found
      exact fanOut_checked
        (Nat.div_pos (Nat.le_of_dvd (by omega) (Nat.dvd_of_mod_eq_zero divides)) (by omega))
        destWord
    · split at found
      · rename_i _ divides
        cases found
        have wholeSrc : d * (s / d) = s := Nat.mul_div_cancel' (Nat.dvd_of_mod_eq_zero divides)
        exact fanIn_checked destWord (by rw [wholeSrc]; exact srcWord)
      · cases found

/-- Gathering windows over a source axis that fits twice in a word reads without overflow. -/
theorem gather_checked
    {w : Window}
    (valid : w.Valid)
    (spanFits : w.span = 0 ∨ w.size ≤ w.span)
    {srcLen destLen : Nat}
    (laidOut : w.windowsOver srcLen = some destLen)
    (srcRoom : 2 * srcLen < wordSize)
    (sizeWord : w.size < wordSize)
    (spanWord : w.span < wordSize) :
    (gather { w with wideLen := srcLen, narrowLen := destLen }).Checked destLen :=
  fun _ counted =>
    @Window.window_eq_ok { w with wideLen := srcLen, narrowLen := destLen }
      ⟨valid.stride_pos, valid.stride_le_size⟩ spanFits laidOut _ counted srcRoom sizeWord spanWord

/-- Scattering computes its covering windows without word arithmetic that can fail. -/
theorem scatter_checked (w : Window) (destLen : Nat) : (scatter w).Checked destLen :=
  fun _ _ => rfl

end AxisRatio

end RegionNet.Link
