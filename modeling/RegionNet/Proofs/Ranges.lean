import RegionNet.Link.Ratio

namespace RegionNet.Link

/-!
# Where source ranges fall

For a destination coordinate, every axis ratio names a range of source coordinates, and a link
reads the source nodes of those ranges. This module shows that the ranges stay inside the
source axis: a window is cut at the end of the wide axis, the windows covering a wide node are
cut at the end of the narrow axis, and whole-number ratios never reach past the source.
-/

namespace NodeRange

/-- A node lies in a range exactly when it lies between the two ends. -/
@[simp] theorem mem_toList
    {r : NodeRange}
    {x : Nat} :
    x ∈ r.toList ↔ r.start ≤ x ∧ x < r.stop := by
  simp only [toList, List.mem_range'_1]
  omega

/-- A range is empty exactly when it stops where it starts or before. -/
theorem isEmpty_eq_false_iff
    {r : NodeRange} :
    r.isEmpty = false ↔ r.start < r.stop := by
  simp [isEmpty]

end NodeRange

namespace Window

/-- A window never reaches past the end of the wide axis. -/
theorem bounds_stop_le
    (w : Window)
    (k : Nat) :
    (w.bounds k).stop ≤ w.wideLen := by
  unfold bounds
  split <;> dsimp only <;> omega

/--
The shape of `covering`: windows `base + lo` up to `base + hi`, where the count `hi` never
reaches past the windows that remain on the narrow axis after `base`.
-/
theorem covering_shape
    (w : Window)
    (c : Nat) :
    ∃ base lo hi,
      hi ≤ w.narrowLen - base ∧
        w.covering c = ⟨base + min lo hi, base + hi⟩ := by
  by_cases spanless : w.span = 0
  · simp only [covering, spanless, ↓reduceIte]
    exact ⟨_, _, _, by omega, rfl⟩
  · simp only [covering, spanless, ↓reduceIte]
    exact ⟨_, _, _, by omega, rfl⟩

/-- The windows covering a wide node, when there are any, are narrow nodes. -/
theorem covering_stop_le
    (w : Window)
    (c : Nat)
    (nonempty : (w.covering c).start < (w.covering c).stop) :
    (w.covering c).stop ≤ w.narrowLen := by
  obtain ⟨base, lo, hi, fits, shape⟩ := w.covering_shape c
  rw [shape] at nonempty ⊢
  dsimp only at nonempty ⊢
  omega

end Window

namespace AxisRatio

/--
Along one axis, every non-empty source range of a destination coordinate below `destLen` ends
inside a source axis of `srcLen` nodes.
-/
def Within (r : AxisRatio) (srcLen destLen : Nat) : Prop :=
  ∀ c < destLen,
    (r.bounds c).start < (r.bounds c).stop →
      (r.bounds c).stop ≤ srcLen

/-- Fanning out by the ratio of the axes reads one source node inside the source axis. -/
theorem fanOut_within
    {srcLen factor : Nat} :
    (fanOut factor).Within srcLen (srcLen * factor) := by
  intro c below _
  simp only [bounds]
  have inside : c / factor < srcLen :=
    Nat.div_lt_of_lt_mul (by rw [Nat.mul_comm]; exact below)
  omega

/-- Fanning in by the ratio of the axes reads a block inside the source axis. -/
theorem fanIn_within
    {destLen factor : Nat} :
    (fanIn factor).Within (destLen * factor) destLen := by
  intro c below _
  simp only [bounds]
  exact Nat.mul_le_mul_right factor below

/-- The ratio found by `between` keeps every source range inside the source axis. -/
theorem within_of_between
    {s d : Nat}
    {r : AxisRatio}
    (found : between s d = some r) :
    r.Within s d := by
  unfold between at found
  split at found
  · cases found
  · split at found
    · rename_i divides
      cases found
      have wholeDest : s * (d / s) = d :=
        Nat.mul_div_cancel' (Nat.dvd_of_mod_eq_zero divides)
      intro c below nonempty
      exact fanOut_within c (by rw [wholeDest]; exact below) nonempty
    · split at found
      · rename_i _ divides
        cases found
        have wholeSrc : d * (s / d) = s :=
          Nat.mul_div_cancel' (Nat.dvd_of_mod_eq_zero divides)
        intro c below nonempty
        calc ((fanIn (s / d)).bounds c).stop ≤ d * (s / d) :=
              fanIn_within c below nonempty
          _ = s := wholeSrc
      · cases found

/-- Gathering windows laid over a source axis of `srcLen` nodes stays inside it. -/
theorem gather_within
    (w : Window)
    (srcLen destLen : Nat) :
    (gather { w with wideLen := srcLen }).Within srcLen destLen := by
  intro c _ _
  exact Window.bounds_stop_le { w with wideLen := srcLen } c

/-- Scattering over windows of a source axis of `srcLen` nodes stays inside it. -/
theorem scatter_within
    (w : Window)
    (srcLen destLen : Nat) :
    (scatter { w with narrowLen := srcLen }).Within srcLen destLen := by
  intro c _ nonempty
  exact Window.covering_stop_le { w with narrowLen := srcLen } c nonempty

/-- Along one axis, the ratio's word arithmetic gives the exact range of every destination
coordinate below `destLen`: nothing overflows. -/
def Checked (r : AxisRatio) (destLen : Nat) : Prop :=
  ∀ c < destLen, r.sourceRange c = .ok (r.bounds c)

end AxisRatio

end RegionNet.Link
