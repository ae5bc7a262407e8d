import RegionNet.Proofs.Policy

namespace RegionNet

namespace Link

/-!
# The halving policy

A halving policy gathers two source nodes into each destination node along every axis. Told one
end of a link while the other is unknown, it works the other out: the destination from the source
by halving every axis, which it refuses when an axis is odd, and the source from the destination by
doubling every axis. Preparing checks that each source axis is twice the destination axis, after
padding both ends with unit axes to one rank.

Axes are 64-bit words, below `wordSize`, and doubling is word arithmetic: a destination whose
doubled axis is past the word panics, and the check a prepare makes panics at the first pair whose
doubled destination axis is past the word. What a halving policy does is exact otherwise
(`halving_exact`).
-/

namespace LinkPolicy

/-- A halving policy starts with neither end known, one element per source node, unprepared. -/
theorem halving_eq_ok
    {params : String}
    {p : LinkPolicy}
    (created : halving params = .ok p) :
    p = { kind := .halving } := by
  unfold halving at created
  dsimp only at created
  split at created
  · cases created
  · simp only [pure, Except.pure, Except.ok.injEq] at created
    exact created.symm

/-- Doubling every axis in word arithmetic gives the doubled axes, or panics when a double is past
the word. -/
theorem mapM_double_eq (axes : List Nat) :
    (axes.mapM fun d => mulOrPanic 64 d 2) =
      if ∀ d ∈ axes, 2 * d < wordSize then .ok (axes.map (2 * ·))
      else .error (.panicked "attempt to multiply with overflow") := by
  induction axes with
  | nil => simp [pure, Except.pure]
  | cons d rest inductionHypothesis =>
      rw [List.mapM_cons, inductionHypothesis]
      by_cases fits : 2 * d < wordSize
      · -- the first axis doubles, and the rest decide
        have doubled : mulOrPanic 64 d 2 = .ok (2 * d) := by
          rw [mulOrPanic_eq_ok, Nat.mul_comm d 2]
          exact ⟨rfl, fits⟩
        by_cases restFits : ∀ x ∈ rest, 2 * x < wordSize
        · have allFit : ∀ x ∈ d :: rest, 2 * x < wordSize :=
            List.forall_mem_cons.mpr ⟨fits, restFits⟩
          rw [if_pos restFits, if_pos allFit, doubled]
          rfl
        · have notAll : ¬∀ x ∈ d :: rest, 2 * x < wordSize := fun allFit =>
            restFits (List.forall_mem_cons.mp allFit).2
          rw [if_neg restFits, if_neg notAll, doubled]
          rfl
      · have panics : mulOrPanic 64 d 2 = .error (.panicked "attempt to multiply with overflow") :=
          mulOrPanic_of_le (by rw [Nat.mul_comm]; exact Nat.le_of_not_lt fits)
        have notAll : ¬∀ x ∈ d :: rest, 2 * x < wordSize := fun allFit =>
          fits (List.forall_mem_cons.mp allFit).1
        rw [if_neg notAll, panics]
        rfl

/-- Told the destination while the source is unknown, a halving policy doubles every axis, and
panics when a double is past the word. -/
theorem setDestination_halving
    {p : LinkPolicy}
    (halvingKind : p.kind = .halving)
    (noSrc : p.src.isSpecified = false)
    {dest : Dimensions}
    (specified : dest.isSpecified = true) :
    p.setDestination dest =
      if ∀ d ∈ dest.axes, 2 * d < wordSize then
        ({ p with dest, src := ⟨dest.axes.map (2 * ·)⟩, ready := false }, .ok ())
      else
        ({ p with dest, ready := false },
          .error (.data (.panicked "attempt to multiply with overflow"))) := by
  by_cases fits : ∀ d ∈ dest.axes, 2 * d < wordSize
  · simp only [setDestination, halvingKind, noSrc, specified, Bool.not_false, Bool.and_self,
      ↓reduceIte, mapM_double_eq, if_pos fits]
    rfl
  · simp only [setDestination, halvingKind, noSrc, specified, Bool.not_false, Bool.and_self,
      ↓reduceIte, mapM_double_eq, if_neg fits]
    rfl

/-- Told the source while the destination is unknown, a halving policy that takes it halves every
axis. -/
theorem setSource_halving_dest
    {p : LinkPolicy}
    (halvingKind : p.kind = .halving)
    (noDest : p.dest.isSpecified = false)
    {src : Dimensions}
    (specified : src.isSpecified = true)
    (told : (p.setSource src).2 = .ok ()) :
    (p.setSource src).1.dest = ⟨src.axes.map (· / 2)⟩ := by
  have tells : (src.isSpecified && !p.dest.isSpecified) = true := by simp [specified, noDest]
  by_cases odd : (src.axes.any fun a => a % 2 != 0) = true
  · simp only [setSource, tells, halvingKind, odd, ↓reduceIte, reduceCtorEq] at told
  · simp only [setSource, tells, halvingKind, odd, ↓reduceIte, Bool.false_eq_true]

end LinkPolicy

/-- Doubling every axis of specified dimensions keeps them specified. -/
theorem isSpecified_doubled
    {dest : Dimensions}
    (specified : dest.isSpecified = true) :
    Dimensions.isSpecified ⟨dest.axes.map (2 * ·)⟩ = true := by
  simp only [Dimensions.isSpecified, Bool.and_eq_true, Bool.not_eq_true', List.isEmpty_eq_false_iff,
    List.all_eq_true, decide_eq_true_eq] at specified ⊢
  obtain ⟨nonempty, positive⟩ := specified
  refine ⟨by simpa using nonempty, fun a member => ?_⟩
  obtain ⟨d, inDest, rfl⟩ := List.mem_map.mp member
  have := positive d inDest
  omega

/-- Between a source of words and any destination, the halving rule asks only that each source
axis be twice the destination axis: the double is then the source axis, a word. -/
theorem accepts_halving_iff
    {src dest : Dimensions}
    (srcWords : ∀ s ∈ src.axes, s < wordSize) :
    PolicyKind.halving.Accepts src dest ↔
      ∀ axis < max src.rank dest.rank, src.axes.getD axis 1 = 2 * dest.axes.getD axis 1 := by
  refine ⟨fun accepts axis below => (accepts axis below).1, fun halves axis below => ?_⟩
  have word : src.axes.getD axis 1 < wordSize := by
    rw [List.getD_eq_getElem?_getD]
    cases found : src.axes[axis]? with
    | none => exact (by decide : 1 < wordSize)
    | some s => exact srcWords s (List.mem_of_getElem? found)
  have halved := halves axis below
  exact ⟨halved, halved ▸ word⟩

/-- Doubled dimensions whose axes are words are twice the dimensions they double, as the halving
rule asks. -/
theorem accepts_doubled
    {dest : Dimensions}
    (fits : ∀ d ∈ dest.axes, 2 * d < wordSize) :
    PolicyKind.halving.Accepts ⟨dest.axes.map (2 * ·)⟩ dest := by
  intro axis below
  simp only [Dimensions.rank, List.length_map, Nat.max_self] at below
  have inDest := fits _ (List.getElem_mem below)
  simp only [List.getD_eq_getElem?_getD, List.getElem?_map, List.getElem?_eq_getElem below,
    Option.map_some, Option.getD_some]
  exact ⟨trivial, inDest⟩

/--
A halving policy made from a parameter text halves and doubles exactly. Told a source alone, it
works the destination out exactly when every axis is even, halving each axis. Told a destination
alone, it doubles each axis into the source when every double is a word, and the two ends then
prepare; it panics when a double is past the word. Told a source of words and then a destination,
it prepares exactly when each source axis is twice the destination axis after padding both ends to
one rank.
-/
theorem halving_exact
    {params : String}
    {p : LinkPolicy}
    (created : LinkPolicy.halving params = .ok p) :
    (∀ src : Dimensions, src.isSpecified = true →
      ((p.setSource src).2 = .ok () ↔ ∀ s ∈ src.axes, s % 2 = 0) ∧
      ((p.setSource src).2 = .ok () → (p.setSource src).1.dest.axes = src.axes.map (· / 2))) ∧
    (∀ dest : Dimensions, dest.isSpecified = true → (∀ d ∈ dest.axes, 2 * d < wordSize) →
      (p.setDestination dest).2 = .ok () ∧
      (p.setDestination dest).1.src.axes = dest.axes.map (2 * ·) ∧
      ∃ q, (p.setDestination dest).1.prepare = .ok q) ∧
    (∀ dest : Dimensions, dest.isSpecified = true → (∃ d ∈ dest.axes, wordSize ≤ 2 * d) →
      (p.setDestination dest).2 = .error (.data (.panicked "attempt to multiply with overflow"))) ∧
    (∀ src dest : Dimensions, src.isSpecified = true → dest.isSpecified = true →
      (∀ s ∈ src.axes, s < wordSize) →
      ((∃ q, ((p.setSource src).1.setDestination dest).1.prepare = .ok q) ↔
        ∀ axis < max src.rank dest.rank, src.axes.getD axis 1 = 2 * dest.axes.getD axis 1)) := by
  obtain rfl := LinkPolicy.halving_eq_ok created
  refine ⟨fun src specified => ?_, fun dest specified fits => ?_, fun dest specified past => ?_,
    fun src dest srcSpecified destSpecified srcWords => ?_⟩
  case refine_1 =>
    refine ⟨LinkPolicy.setSource_ok_iff rfl specified, fun told => ?_⟩
    rw [LinkPolicy.setSource_halving_dest rfl rfl specified told]
  case refine_2 =>
    rw [LinkPolicy.setDestination_halving rfl rfl specified, if_pos fits]
    -- both ends are known and the source is twice the destination
    exact ⟨rfl, rfl, (LinkPolicy.prepare_ok_iff (isSpecified_doubled specified) specified
      Nat.one_pos).mpr (accepts_doubled fits)⟩
  case refine_3 =>
    obtain ⟨d, inDest, overflows⟩ := past
    have unfit : ¬∀ d ∈ dest.axes, 2 * d < wordSize := fun fits => absurd (fits d inDest) (by omega)
    rw [LinkPolicy.setDestination_halving rfl rfl specified, if_neg unfit]
  case refine_4 =>
    -- a destination told after a known source is only recorded; preparing checks the halving rule
    rw [LinkPolicy.setDestination_setSource _ srcSpecified]
    exact (LinkPolicy.prepare_ok_iff srcSpecified destSpecified Nat.one_pos).trans
      (accepts_halving_iff srcWords)

/-- The halving policy made from a blank parameter text halves and doubles exactly. -/
theorem blank_halving_exact :
    LinkPolicy.halving "" = .ok { kind := .halving } ∧
    (∀ src : Dimensions, src.isSpecified = true →
      ((({ kind := .halving } : LinkPolicy).setSource src).2 = .ok () ↔
        ∀ s ∈ src.axes, s % 2 = 0) ∧
      ((({ kind := .halving } : LinkPolicy).setSource src).2 = .ok () →
        (({ kind := .halving } : LinkPolicy).setSource src).1.dest.axes =
          src.axes.map (· / 2))) ∧
    (∀ dest : Dimensions, dest.isSpecified = true → (∀ d ∈ dest.axes, 2 * d < wordSize) →
      (({ kind := .halving } : LinkPolicy).setDestination dest).2 = .ok () ∧
      (({ kind := .halving } : LinkPolicy).setDestination dest).1.src.axes =
        dest.axes.map (2 * ·) ∧
      ∃ q, (({ kind := .halving } : LinkPolicy).setDestination dest).1.prepare = .ok q) ∧
    (∀ dest : Dimensions, dest.isSpecified = true → (∃ d ∈ dest.axes, wordSize ≤ 2 * d) →
      (({ kind := .halving } : LinkPolicy).setDestination dest).2 =
        .error (.data (.panicked "attempt to multiply with overflow"))) ∧
    (∀ src dest : Dimensions, src.isSpecified = true → dest.isSpecified = true →
      (∀ s ∈ src.axes, s < wordSize) →
      ((∃ q, ((({ kind := .halving } : LinkPolicy).setSource src).1.setDestination
          dest).1.prepare = .ok q) ↔
        ∀ axis < max src.rank dest.rank, src.axes.getD axis 1 = 2 * dest.axes.getD axis 1)) :=
  ⟨by decide, @halving_exact "" _ (by decide)⟩

end Link

end RegionNet
