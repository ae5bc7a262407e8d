import Mathlib.Data.List.GetD
import RegionNet.Proofs.Coverage

namespace RegionNet

/-!
# Working one end of a uniform link out from the other

A uniform policy told one end of a link while the other is unknown works the other end out, axis
by axis: where the known end is the wide side of the windows it counts the windows laid over it
(`Window.windowsOver`), where it is the narrow side it takes the shortest wide length that many
windows fill (`Window.wideFor`). Preparing checks every axis by counting the windows over the wide
side. The two agree because `wideFor` is a right inverse of `windowsOver` for windows that
advance (`Window.windowsOver_wideFor`), and the parameter check makes every window advance. An
end worked out from specified dimensions therefore has their rank and positive axes, and the
policy holding the two ends prepares (`Link.LinkPolicy.induced_end_prepares`).

The converse fails: `wideFor` misses wide lengths whose last span is partial, so a pair that
fits can still refuse to be worked out from its narrow end. Telling the two ends in turn then
depends on the order: each order prepares exactly when the end told first lets the policy work
out the other and the pair fits, and when both orders prepare they leave the same policy
(`Link.LinkPolicy.prepare_outcome_by_order`).
-/

namespace Dimensions

/-- Specified dimensions have at least one axis, each positive. -/
theorem isSpecified_iff {d : Dimensions} :
    d.isSpecified = true ↔ 0 < d.rank ∧ ∀ axis < d.rank, 0 < d.axes.getD axis 0 := by
  simp only [isSpecified, rank, Bool.and_eq_true, Bool.not_eq_true', List.isEmpty_eq_false_iff,
    List.all_eq_true, decide_eq_true_eq, List.length_pos_iff]
  constructor
  · rintro ⟨nonempty, positive⟩
    exact ⟨nonempty, fun axis below => by
      rw [List.getD_eq_getElem _ _ below]
      exact positive _ (List.getElem_mem below)⟩
  · rintro ⟨nonempty, positive⟩
    refine ⟨nonempty, fun a member => ?_⟩
    obtain ⟨axis, below, rfl⟩ := List.getElem_of_mem member
    have atAxis := positive axis below
    rwa [List.getD_eq_getElem _ _ below] at atAxis

end Dimensions

namespace Link

/-- Equal positive lengths have a whole-number ratio. -/
theorem AxisRatio.between_self {len : Nat} (positive : 0 < len) :
    (AxisRatio.between len len).isSome = true := by
  simp [AxisRatio.between, Nat.pos_iff_ne_zero.mp positive]

namespace Window

variable {w : Window}

/-- A run that holds windows holds at least one. -/
theorem run_pos {len count : Nat} (ran : w.run len = some count) : 0 < count := by
  unfold run at ran
  split at ran
  · split at ran
    · cases ran
      exact Nat.one_pos
    · cases ran
  · dsimp only at ran
    split at ran
    · cases ran
      exact Nat.succ_pos _
    · split at ran
      · cases ran
      · cases ran
        exact Nat.succ_pos _

/--
Without spans, the wide length worked out from `narrow` windows is the one the last of them ends
at: `narrow - 1` strides and one window.
-/
theorem wideFor_of_spanless
    (spanless : w.span = 0)
    {narrow wide : Nat}
    (worked : w.wideFor narrow = some wide) :
    0 < narrow ∧ wide = (narrow - 1) * w.stride + w.size := by
  unfold wideFor at worked
  split at worked
  · cases worked
  · rename_i some
    simp only [bind, Option.bind_eq_some_iff] at worked
    obtain ⟨covered, multiplied, added⟩ := worked
    obtain ⟨rfl, -⟩ := checkedMul_eq_some multiplied
    obtain ⟨rfl, -⟩ := checkedAdd_eq_some added
    exact ⟨Nat.pos_of_ne_zero some, rfl⟩

/--
With spans, the wide length worked out from `narrow` windows is a number of whole spans: the
windows of one span, `P`, divide `narrow`.
-/
theorem wideFor_of_spanned
    (spanned : w.span ≠ 0)
    {narrow wide : Nat}
    (worked : w.wideFor narrow = some wide) :
    0 < narrow ∧ ∃ P, w.run w.span = some P ∧ narrow % P = 0 ∧ wide = narrow / P * w.span := by
  unfold wideFor at worked
  split at worked
  · cases worked
  · rename_i some
    simp only [bind, Option.bind_eq_some_iff] at worked
    obtain ⟨P, per, divided⟩ := worked
    split at divided
    · cases divided
    · rename_i fills
      obtain ⟨rfl, -⟩ := checkedMul_eq_some divided
      exact ⟨Nat.pos_of_ne_zero some, P, per, by simpa using fills, rfl⟩

/-- Windows laid over a wide axis with nodes number at least one. -/
theorem windowsOver_pos
    {wide count : Nat}
    (occupied : 0 < wide)
    (counted : w.windowsOver wide = some count) :
    0 < count := by
  by_cases spanless : w.span = 0
  · simp only [windowsOver, spanless, ↓reduceIte] at counted
    exact run_pos counted
  · obtain ⟨P, T, per, rfl, tail⟩ := windowsOver_of_spanned spanless counted
    by_cases whole : 0 < wide / w.span
    · exact Nat.lt_of_lt_of_le (Nat.mul_pos whole (run_pos per)) (Nat.le_add_right _ _)
    · -- shorter than one span: the whole axis is a last, partial span
      have short : wide < w.span := by
        rw [Nat.div_pos_iff] at whole
        omega
      rcases tail with ⟨filled, -⟩ | ⟨-, ran⟩
      · rw [Nat.mod_eq_of_lt short] at filled
        omega
      · exact Nat.lt_of_lt_of_le (run_pos ran) (Nat.le_add_left _ _)

/-- The wide length worked out from a number of windows has at least one node. -/
theorem wideFor_pos
    (sized : 0 < w.size)
    {narrow wide : Nat}
    (worked : w.wideFor narrow = some wide) :
    0 < wide := by
  by_cases spanless : w.span = 0
  · obtain ⟨-, rfl⟩ := wideFor_of_spanless spanless worked
    omega
  · obtain ⟨some, P, per, divides, rfl⟩ := wideFor_of_spanned spanless worked
    -- `P` divides a positive `narrow`, so at least one whole span is taken
    have atLeastOne : 0 < narrow / P :=
      Nat.div_pos (Nat.le_of_dvd some (Nat.dvd_of_mod_eq_zero divides)) (run_pos per)
    exact Nat.mul_pos atLeastOne (Nat.pos_of_ne_zero spanless)

/--
The wide length worked out from a number of windows holds exactly that many windows: `wideFor`
is a right inverse of `windowsOver`, for windows that advance.
-/
theorem windowsOver_wideFor
    (advances : 0 < w.stride)
    {narrow wide : Nat}
    (worked : w.wideFor narrow = some wide) :
    w.windowsOver wide = some narrow := by
  by_cases spanless : w.span = 0
  · obtain ⟨some, rfl⟩ := wideFor_of_spanless spanless worked
    -- after the first window the axis is whole strides
    have strides : (narrow - 1) * w.stride + w.size - w.size = (narrow - 1) * w.stride := by omega
    have notShort : ¬(narrow - 1) * w.stride + w.size < w.size := by omega
    simp [windowsOver, run, spanless, strides, notShort, Nat.mul_div_cancel _ advances]
    omega
  · obtain ⟨some, P, per, divides, rfl⟩ := wideFor_of_spanned spanless worked
    -- whole spans leave no partial span, and each holds `P` windows
    have spansAt : narrow / P * w.span / w.span = narrow / P :=
      Nat.mul_div_cancel _ (Nat.pos_of_ne_zero spanless)
    simp [windowsOver, spanless, per, spansAt, Nat.div_mul_cancel (Nat.dvd_of_mod_eq_zero divides)]

/-- Windows of one node, one apart and without spans: the layout of an axis without fields. -/
def unit : Window := { size := 1, stride := 1, span := 0, strict := true }

/-- Windows of one node over a length number as many as its nodes. -/
theorem unit_windowsOver {len count : Nat} (counted : unit.windowsOver len = some count) :
    count = len := by
  simp only [unit, windowsOver, run, ↓reduceIte] at counted
  split at counted
  · simp at counted
  · simp at counted
    omega

end Window

namespace UniformParams

/-- Without a field layout every axis has windows of one node, one apart, without spans. -/
theorem windowFor_of_ratioOnly
    {p : UniformParams}
    (ratioOnly : p.isRatioOnly = true)
    (axis rank : Nat) :
    p.windowFor axis rank = .ok Window.unit := by
  simp only [isRatioOnly, Bool.and_eq_true, Option.isNone_iff_eq_none] at ratioOnly
  obtain ⟨⟨⟨noSize, noOverlap⟩, noSpan⟩, isStrict⟩ := ratioOnly
  simp [windowFor, axisValue, noSize, noOverlap, noSpan, isStrict, Window.unit, bind,
    Except.bind, pure, Except.pure]

/--
The end a uniform policy works out from `known` (the destination when `towardDest`) has one
axis per axis of `known`: the windows over the known axis where it is the wide side, the wide
length of that many windows where it is the narrow side.
-/
theorem induce_eq_ok
    {p : UniformParams}
    {known induced : Dimensions}
    {towardDest : Bool}
    (worked : p.induce known towardDest = .ok induced) :
    induced.rank = known.rank ∧
      ∀ axis < known.rank, ∃ w, p.windowFor axis known.rank = .ok w ∧
        (if (p.mapping == .inward) == towardDest then w.windowsOver (known.axes.getD axis 0)
          else w.wideFor (known.axes.getD axis 0)) = some (induced.axes.getD axis 0) := by
  unfold induce at worked
  obtain ⟨axes, mapped, rfl⟩ := (bind_pure_eq_ok_iff _ _ _).mp worked
  -- each axis is paired with the length worked out for it
  have paired := (mapM_except_eq_ok_iff _ _ _).mp mapped
  have pairs : ((List.range known.rank).zip known.axes).length = known.rank := by
    simp [Dimensions.rank]
  refine ⟨by simp [Dimensions.rank, ← paired.length_eq], fun axis below => ?_⟩
  have inPairs : axis < ((List.range known.rank).zip known.axes).length := by omega
  have inAxes : axis < axes.length := paired.length_eq ▸ inPairs
  have atAxis := paired.get inPairs inAxes
  simp only [List.get_eq_getElem, List.getElem_zip, List.getElem_range] at atAxis
  have knownAxis : known.axes.getD axis 0 = known.axes[axis] := List.getD_eq_getElem _ _ below
  have inducedAxis : axes.getD axis 0 = axes[axis] := List.getD_eq_getElem _ _ inAxes
  cases found : p.windowFor axis known.rank with
  | error e =>
      simp [found, bind, Except.bind] at atAxis
  | ok w =>
      refine ⟨w, rfl, ?_⟩
      simp only [found, bind, Except.bind] at atAxis
      rw [knownAxis, inducedAxis]
      -- the axis is kept when it was worked out, and refused otherwise
      split at atAxis
      · rename_i n value
        cases atAxis
        exact value
      · cases atAxis

/--
Along an axis of a checked layout, a length worked out from a known positive length is positive,
and the two fit the rule the policy checks, each on its own side of the link.
-/
theorem axisFits_of_worked
    {p : UniformParams}
    (checked : p.validate = .ok ())
    {rank axis known worked : Nat}
    (below : axis < rank)
    (positive : 0 < known)
    {w : Window}
    (found : p.windowFor axis rank = .ok w)
    {towardDest : Bool}
    (workedOut : (if (p.mapping == .inward) == towardDest then w.windowsOver known
      else w.wideFor known) = some worked) :
    0 < worked ∧
      if towardDest then p.AxisFits rank axis known worked else p.AxisFits rank axis worked known := by
  have valid := (windowFor_valid checked below found).1
  by_cases ratioOnly : p.isRatioOnly = true
  · -- windows of one node: the worked-out end is as long as the known one
    rw [windowFor_of_ratioOnly ratioOnly, Except.ok.injEq] at found
    subst found
    have same : worked = known := by
      split at workedOut
      · exact Window.unit_windowsOver workedOut
      · obtain ⟨-, counted⟩ := Window.wideFor_of_spanless rfl workedOut
        simp only [Window.unit, Nat.mul_one] at counted
        omega
    subst same
    refine ⟨positive, ?_⟩
    cases towardDest <;> simp [AxisFits, ratioOnly, AxisRatio.between_self positive]
  · have sized : 0 < w.size := Nat.lt_of_lt_of_le valid.stride_pos valid.stride_le_size
    have positiveWorked : 0 < worked := by
      split at workedOut
      · exact Window.windowsOver_pos positive workedOut
      · exact Window.wideFor_pos sized workedOut
    refine ⟨positiveWorked, ?_⟩
    -- the wide side is counted directly, or through the inverse of `wideFor`
    cases towardDest <;> cases mapping : p.mapping <;>
      simp only [mapping, reduceCtorEq, beq_self_eq_true, beq_iff_eq, Bool.true_eq_false,
        ↓reduceIte] at workedOut <;>
      simp only [AxisFits, ratioOnly, Bool.false_eq_true, ↓reduceIte, mapping, Bool.false_eq_true]
    · exact ⟨w, found, Window.windowsOver_wideFor valid.stride_pos workedOut⟩
    · exact ⟨w, found, workedOut⟩
    · exact ⟨w, found, workedOut⟩
    · exact ⟨w, found, Window.windowsOver_wideFor valid.stride_pos workedOut⟩

/--
The end a checked uniform layout works out from specified dimensions is specified, has their
rank, and fits them under the rule the policy checks, each end on its own side of the link.
-/
theorem accepts_of_induce
    {p : UniformParams}
    (checked : p.validate = .ok ())
    {known induced : Dimensions}
    (specified : known.isSpecified = true)
    {towardDest : Bool}
    (worked : p.induce known towardDest = .ok induced) :
    induced.isSpecified = true ∧ induced.rank = known.rank ∧
      if towardDest then (PolicyKind.uniform p).Accepts known induced
      else (PolicyKind.uniform p).Accepts induced known := by
  obtain ⟨sameRank, axes⟩ := induce_eq_ok worked
  obtain ⟨nonempty, positive⟩ := Dimensions.isSpecified_iff.mp specified
  have fits : ∀ axis < known.rank, 0 < induced.axes.getD axis 0 ∧
      if towardDest then p.AxisFits known.rank axis (known.axes.getD axis 0) (induced.axes.getD axis 0)
      else p.AxisFits known.rank axis (induced.axes.getD axis 0) (known.axes.getD axis 0) := by
    intro axis below
    obtain ⟨w, found, workedOut⟩ := axes axis below
    exact axisFits_of_worked checked below (positive axis below) found workedOut
  -- below the common rank, reading a missing axis as `1` never happens
  have padded : ∀ d : Dimensions, ∀ axis < d.rank, d.axes.getD axis 1 = d.axes.getD axis 0 := by
    intro d axis below
    have inAxes : axis < d.axes.length := below
    rw [List.getD_eq_getElem _ _ inAxes, List.getD_eq_getElem _ _ inAxes]
  refine ⟨Dimensions.isSpecified_iff.mpr ⟨by omega, fun axis below =>
      (fits axis (by omega)).1⟩, sameRank, ?_⟩
  cases towardDest with
  | true =>
      intro axis below
      simp only [sameRank, Nat.max_self] at below ⊢
      rw [padded known axis below, padded induced axis (by omega)]
      simpa using (fits axis below).2
  | false =>
      intro axis below
      simp only [sameRank, Nat.max_self] at below ⊢
      rw [padded known axis below, padded induced axis (by omega)]
      simpa using (fits axis below).2

end UniformParams

namespace PolicyKind

/--
Whether a policy with no source yet, told destination dimensions, works out the source without
failing: a uniform policy must lay its windows (or their inverse) along every axis; a halving one
always doubles every axis.
-/
def InducesBackFrom : PolicyKind → Dimensions → Prop
  | .uniform p, dest => ∃ src, p.induce dest false = .ok src
  | .halving, _ => True

end PolicyKind

namespace LinkPolicy

/-- A uniform policy made from a parameter text has a layout read from it and no end yet. -/
theorem uniform_eq_ok
    {text : String}
    {fresh : LinkPolicy}
    (created : LinkPolicy.uniform text = .ok fresh) :
    ∃ params, UniformParams.parse text = .ok params ∧ fresh = { kind := .uniform params } := by
  simp only [uniform, bind, Except.bind] at created
  split at created
  · cases created
  · rename_i params parsed
    simp only [pure, Except.pure, Except.ok.injEq] at created
    exact ⟨params, parsed, created.symm⟩

section Told

variable {params : UniformParams} {p : LinkPolicy}

/-- Told a specified source while its destination is unknown, a uniform policy holds the source
and the destination it works out, when it works one out. -/
theorem setSource_of_induce
    (kindIs : p.kind = .uniform params)
    (noDest : p.dest.isSpecified = false)
    {src : Dimensions}
    (specified : src.isSpecified = true)
    (told : (p.setSource src).2 = .ok ()) :
    ∃ dest, params.induce src true = .ok dest ∧
      (p.setSource src).1 = { p with src, dest, ready := false } := by
  cases worked : params.induce src true with
  | error e =>
      simp [setSource, specified, noDest, kindIs, worked] at told
  | ok dest =>
      exact ⟨dest, rfl, by simp [setSource, specified, noDest, kindIs, worked]⟩

/-- Told a specified destination while its source is unknown, a uniform policy holds the
destination and the source it works out, when it works one out. -/
theorem setDestination_of_induce
    (kindIs : p.kind = .uniform params)
    (noSrc : p.src.isSpecified = false)
    {dest : Dimensions}
    (specified : dest.isSpecified = true)
    (told : (p.setDestination dest).2 = .ok ()) :
    ∃ src, params.induce dest false = .ok src ∧
      (p.setDestination dest).1 = { p with src, dest, ready := false } := by
  cases worked : params.induce dest false with
  | error e =>
      simp [setDestination, specified, noSrc, kindIs, worked] at told
  | ok src =>
      exact ⟨src, rfl, by simp [setDestination, specified, noSrc, kindIs, worked]⟩

end Told

/--
A uniform policy made from a parameter text and told one specified end works out the other:
told the source, it holds a destination of the source's rank with every axis positive; told the
destination, it holds a specified source of the destination's rank. Either way, given any
positive number of elements on each source node, it then prepares.
-/
theorem induced_end_prepares
    {text : String}
    {fresh : LinkPolicy}
    (created : LinkPolicy.uniform text = .ok fresh)
    {known : Dimensions}
    (specified : known.isSpecified = true)
    {elementCount : Nat}
    (positive : 0 < elementCount) :
    ((fresh.setSource known).2 = .ok () →
        (fresh.setSource known).1.dest.rank = known.rank ∧
        (∀ a ∈ (fresh.setSource known).1.dest.axes, 0 < a) ∧
        ∃ prepared, ((fresh.setSource known).1.setElementCount elementCount).prepare = .ok prepared) ∧
      ((fresh.setDestination known).2 = .ok () →
        (fresh.setDestination known).1.src.isSpecified = true ∧
        (fresh.setDestination known).1.src.rank = known.rank ∧
        ∃ prepared,
          ((fresh.setDestination known).1.setElementCount elementCount).prepare = .ok prepared) := by
  obtain ⟨params, parsed, rfl⟩ := uniform_eq_ok created
  have checked := UniformParams.validate_of_parse parsed
  constructor
  · intro told
    obtain ⟨dest, worked, holds⟩ := setSource_of_induce rfl rfl specified told
    obtain ⟨destSpecified, sameRank, accepts⟩ := UniformParams.accepts_of_induce checked specified worked
    rw [holds]
    refine ⟨sameRank, fun a member => Dimensions.pos_of_isSpecified destSpecified member, ?_⟩
    exact (prepare_ok_iff specified destSpecified positive).mpr accepts
  · intro told
    obtain ⟨src, worked, holds⟩ := setDestination_of_induce rfl rfl specified told
    obtain ⟨srcSpecified, sameRank, accepts⟩ := UniformParams.accepts_of_induce checked specified worked
    rw [holds]
    exact ⟨srcSpecified, sameRank, (prepare_ok_iff srcSpecified specified positive).mpr accepts⟩

/-- With the default layout, a source of four nodes gives a destination of four nodes, a
destination of four nodes gives a source of four, and the policy prepares either way. -/
theorem default_uniform_induced_end_prepares :
    LinkPolicy.uniform "" = .ok { kind := .uniform {} } ∧
      (Dimensions.mk [4]).isSpecified = true ∧ 0 < 1 ∧
      (({ kind := .uniform {} } : LinkPolicy).setSource ⟨[4]⟩).2 = .ok () ∧
      (({ kind := .uniform {} } : LinkPolicy).setDestination ⟨[4]⟩).2 = .ok () ∧
      ((({ kind := .uniform {} } : LinkPolicy).setSource ⟨[4]⟩).2 = .ok () →
        (({ kind := .uniform {} } : LinkPolicy).setSource ⟨[4]⟩).1.dest.rank = 1 ∧
        (∀ a ∈ (({ kind := .uniform {} } : LinkPolicy).setSource ⟨[4]⟩).1.dest.axes, 0 < a) ∧
        ∃ prepared,
          ((({ kind := .uniform {} } : LinkPolicy).setSource ⟨[4]⟩).1.setElementCount 1).prepare =
            .ok prepared) ∧
      ((({ kind := .uniform {} } : LinkPolicy).setDestination ⟨[4]⟩).2 = .ok () →
        (({ kind := .uniform {} } : LinkPolicy).setDestination ⟨[4]⟩).1.src.isSpecified = true ∧
        (({ kind := .uniform {} } : LinkPolicy).setDestination ⟨[4]⟩).1.src.rank = 1 ∧
        ∃ prepared,
          ((({ kind := .uniform {} } : LinkPolicy).setDestination ⟨[4]⟩).1.setElementCount
            1).prepare = .ok prepared) :=
  ⟨rfl, by decide, by decide, by decide, by decide,
    @induced_end_prepares "" { kind := .uniform {} } rfl ⟨[4]⟩ (by decide) 1 (by decide)⟩

/-!
## Telling both ends in turn
-/

/-- Tell a policy its source and then its destination, then the elements on each source node,
and prepare it; the first step that fails ends the sequence. -/
def prepareSourceFirst (p : LinkPolicy) (src dest : Dimensions) (elementCount : Nat) :
    Except EngineError LinkPolicy := do
  let (p, told) := p.setSource src
  told
  let (p, told) := p.setDestination dest
  told
  (p.setElementCount elementCount).prepare

/-- Tell a policy its destination and then its source, then the elements on each source node,
and prepare it; the first step that fails ends the sequence. -/
def prepareDestinationFirst (p : LinkPolicy) (src dest : Dimensions) (elementCount : Nat) :
    Except EngineError LinkPolicy := do
  let (p, told) := p.setDestination dest
  told
  let (p, told) := p.setSource src
  told
  (p.setElementCount elementCount).prepare

section Order

variable {params : UniformParams} {src dest : Dimensions} {elementCount : Nat}

/--
Told a specified source first, a uniform policy with no ends prepares the two ends it is told
once it works a destination out from the source, and fails with the induction's error otherwise.
-/
theorem prepareSourceFirst_eq
    (srcSpecified : src.isSpecified = true) :
    ({ kind := .uniform params } : LinkPolicy).prepareSourceFirst src dest elementCount =
      (do
        let _ ← params.induce src true
        ({ kind := .uniform params, src, dest, elementCount } : LinkPolicy).prepare) := by
  have noEnd : Dimensions.unspecified.isSpecified = false := rfl
  cases worked : params.induce src true <;>
    simp [prepareSourceFirst, setSource, setDestination, setElementCount, srcSpecified, noEnd, worked,
      bind, Except.bind]

/--
Told a specified destination first, a uniform policy with no ends prepares the two ends it is
told once it works a source out from the destination, and fails with the induction's error
otherwise.
-/
theorem prepareDestinationFirst_eq
    (destSpecified : dest.isSpecified = true) :
    ({ kind := .uniform params } : LinkPolicy).prepareDestinationFirst src dest elementCount =
      (do
        let _ ← params.induce dest false
        ({ kind := .uniform params, src, dest, elementCount } : LinkPolicy).prepare) := by
  have noEnd : Dimensions.unspecified.isSpecified = false := rfl
  cases worked : params.induce dest false <;>
    simp [prepareDestinationFirst, setSource, setDestination, setElementCount, destSpecified, noEnd,
      worked, bind, Except.bind]

/-- A step whose result is ignored, followed by another, succeeds exactly when both do. -/
theorem bind_const_ok_iff
    {ε α β : Type}
    (first : Except ε α)
    (next : Except ε β) :
    (∃ b, (do let _ ← first; next) = .ok b) ↔ (∃ a, first = .ok a) ∧ ∃ b, next = .ok b := by
  cases first <;> simp [bind, Except.bind]

end Order

/--
A uniform policy made from a parameter text and told two specified ends in turn, then a positive
number of elements on each source node, prepares exactly when the end told first lets it work
out the other and the pair fits the rule it checks. When both orders prepare they leave the
same policy, and so the same splitter map.
-/
theorem prepare_outcome_by_order
    {text : String}
    {fresh : LinkPolicy}
    (created : LinkPolicy.uniform text = .ok fresh)
    {src dest : Dimensions}
    (srcSpecified : src.isSpecified = true)
    (destSpecified : dest.isSpecified = true)
    {elementCount : Nat}
    (positive : 0 < elementCount) :
    ((∃ q, fresh.prepareSourceFirst src dest elementCount = .ok q) ↔
        fresh.kind.InducesFrom src ∧ fresh.kind.Accepts src dest) ∧
      ((∃ q, fresh.prepareDestinationFirst src dest elementCount = .ok q) ↔
        fresh.kind.InducesBackFrom dest ∧ fresh.kind.Accepts src dest) ∧
      ∀ q q', fresh.prepareSourceFirst src dest elementCount = .ok q →
        fresh.prepareDestinationFirst src dest elementCount = .ok q' → q = q' := by
  obtain ⟨params, -, rfl⟩ := uniform_eq_ok created
  -- both orders end by preparing the policy that holds the two ends
  have prepares := @prepare_ok_iff { kind := .uniform params, src, dest, elementCount }
    srcSpecified destSpecified positive
  refine ⟨?_, ?_, fun q q' sourceFirst destinationFirst => ?_⟩
  · rw [prepareSourceFirst_eq srcSpecified, bind_const_ok_iff, prepares]
    rfl
  · rw [prepareDestinationFirst_eq destSpecified, bind_const_ok_iff, prepares]
    rfl
  · rw [prepareSourceFirst_eq srcSpecified] at sourceFirst
    rw [prepareDestinationFirst_eq destSpecified] at destinationFirst
    -- neither induction failed, so both prepared the same policy
    cases forward : params.induce src true with
    | error e =>
        simp [forward, bind, Except.bind] at sourceFirst
    | ok _ =>
        cases backward : params.induce dest false with
        | error e =>
            simp [backward, bind, Except.bind] at destinationFirst
        | ok _ =>
            simp only [forward, bind, Except.bind] at sourceFirst
            simp only [backward, bind, Except.bind] at destinationFirst
            exact Except.ok.inj (sourceFirst.symm.trans destinationFirst)

/-- With the default layout, a source of four nodes and a destination of two prepare in either
order. -/
theorem default_uniform_prepares_in_either_order :
    LinkPolicy.uniform "" = .ok { kind := .uniform {} } ∧
      (Dimensions.mk [4]).isSpecified = true ∧ (Dimensions.mk [2]).isSpecified = true ∧ 0 < 1 ∧
      (((∃ q, ({ kind := .uniform {} } : LinkPolicy).prepareSourceFirst ⟨[4]⟩ ⟨[2]⟩ 1 = .ok q) ↔
          (PolicyKind.uniform {}).InducesFrom ⟨[4]⟩ ∧ (PolicyKind.uniform {}).Accepts ⟨[4]⟩ ⟨[2]⟩) ∧
        ((∃ q, ({ kind := .uniform {} } : LinkPolicy).prepareDestinationFirst ⟨[4]⟩ ⟨[2]⟩ 1 = .ok q) ↔
          (PolicyKind.uniform {}).InducesBackFrom ⟨[2]⟩ ∧
            (PolicyKind.uniform {}).Accepts ⟨[4]⟩ ⟨[2]⟩) ∧
        ∀ q q', ({ kind := .uniform {} } : LinkPolicy).prepareSourceFirst ⟨[4]⟩ ⟨[2]⟩ 1 = .ok q →
          ({ kind := .uniform {} } : LinkPolicy).prepareDestinationFirst ⟨[4]⟩ ⟨[2]⟩ 1 = .ok q' →
            q = q') :=
  ⟨rfl, by decide, by decide, by decide,
    @prepare_outcome_by_order "" { kind := .uniform {} } rfl ⟨[4]⟩ ⟨[2]⟩ (by decide) (by decide) 1
      (by decide)⟩

/--
The order matters. A uniform policy with mapping `out`, fields of 2 in spans of 4 and loose
windows, told a source of 3 nodes first, fails to work a destination out (3 windows fill no whole
number of spans); told the destination of 5 nodes first, it works out the source and prepares.
-/
theorem source_first_refuses_loose_spans :
    ∃ fresh, LinkPolicy.uniform
        "\x7b\"mapping\": \"out\", \"rf_size\": [2], \"span\": [4], \"strict\": false\x7d" =
          .ok fresh ∧
      (fresh.prepareSourceFirst ⟨[3]⟩ ⟨[5]⟩ 1).isOk = false ∧
      (fresh.prepareDestinationFirst ⟨[3]⟩ ⟨[5]⟩ 1).isOk = true :=
  ⟨{ kind := .uniform { mapping := .outward, rfSize := some [2], span := some [4], strict := false } },
    by decide +kernel, by decide, by decide⟩

end LinkPolicy

end Link

end RegionNet
