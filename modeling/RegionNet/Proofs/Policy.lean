import RegionNet.Proofs.Splitter
import RegionNet.Link.Policy

namespace RegionNet

/-!
# What a link policy accepts

A policy is told the dimensions of both ends of a link and then prepared, which checks the pair
axis by axis after padding both sides with unit axes to the larger rank. This module states
that check as a rule of its own (`PolicyKind.Accepts`): a whole-number ratio between the axes
for a uniform policy without field layout, windows over the wide side that give exactly the
narrow side for one with a layout, and a source twice the destination for a halving policy, the
doubling a word. Preparing succeeds exactly when the rule holds. A prepared policy's splitter
map has one entry per destination node when it is built; building it can still panic, on word
arithmetic or allocations too large (`PolicyKind.Builds`).

Telling a policy one end while the other is unknown also works the other end out. That
induction can fail on its own, and `PolicyKind.InducesFrom` says when it does not.
-/

namespace Dimensions

/-- Padding with unit axes keeps an axis that is there and reads a missing one as `1`. -/
theorem promote_getD
    (d : Dimensions)
    (rank axis : Nat) :
    (d.promote rank).axes.getD axis 0 =
      if axis < max d.rank rank then d.axes.getD axis 1 else 0 := by
  simp only [promote, Dimensions.rank, List.getD_eq_getElem?_getD, List.getElem?_append,
    List.getElem?_replicate]
  by_cases inAxes : axis < d.axes.length
  · simp [inAxes, show axis < max d.axes.length rank by omega]
  · -- past the given axes, the padding is read
    have inPadding :
        axis - d.axes.length < rank - d.axes.length ↔ axis < max d.axes.length rank := by
      omega
    by_cases padded : axis < max d.axes.length rank
    · simp [inAxes, padded, inPadding.mpr padded]
    · simp [inAxes, padded, mt inPadding.mp padded]

/-- Padded specified dimensions are specified. -/
theorem isSpecified_promote
    {d : Dimensions}
    (specified : d.isSpecified = true)
    (rank : Nat) :
    (d.promote rank).isSpecified = true := by
  simp only [isSpecified, promote, Bool.and_eq_true, Bool.not_eq_true',
    List.isEmpty_eq_false_iff, List.all_eq_true, decide_eq_true_eq, List.mem_append,
    List.mem_replicate] at specified ⊢
  refine ⟨by simp [specified.1], ?_⟩
  rintro a (member | ⟨-, rfl⟩)
  · exact specified.2 a member
  · exact Nat.one_pos

/-- Padding with unit axes keeps the product of the axes. -/
theorem product_promote
    (d : Dimensions)
    (rank : Nat) :
    (d.promote rank).product = d.product := by
  simp only [product, promote, List.foldr_append]
  have ones : ∀ n, (List.replicate n 1).foldr (· * ·) 1 = 1 := by
    intro n
    induction n with
    | zero => rfl
    | succ n inductionHypothesis => simp [List.replicate_succ, inductionHypothesis]
  rw [ones]

/-- Padding specified dimensions with unit axes keeps the number of nodes. -/
theorem count_promote
    {d : Dimensions}
    (specified : d.isSpecified = true)
    (rank : Nat) :
    (d.promote rank).count = d.count := by
  simp [count, specified, isSpecified_promote specified rank, product_promote]

/-- Padding reaches the larger of the two ranks. -/
@[simp] theorem rank_promote
    (d : Dimensions)
    (rank : Nat) :
    (d.promote rank).rank = max d.rank rank := by
  simp only [promote, Dimensions.rank, List.length_append, List.length_replicate]
  omega

end Dimensions

namespace Link

namespace UniformParams

/--
The rule a uniform policy checks along one axis of `rank` axes, with `s` source and `d`
destination nodes: a whole-number ratio when no field layout is given; otherwise the axis must
have a window layout, and laying its windows over the wide side must give the narrow side.
-/
def AxisFits (p : UniformParams) (rank axis s d : Nat) : Prop :=
  if p.isRatioOnly then (AxisRatio.between s d).isSome = true
  else
    ∃ w, p.windowFor axis rank = .ok w ∧
      match p.mapping with
      | .inward => w.windowsOver s = some d
      | .outward => w.windowsOver d = some s

/-- An axis has a ratio exactly when it fits the rule. -/
theorem axisRatio_some_iff
    (p : UniformParams)
    (rank axis s d : Nat) :
    (∃ r, p.axisRatio axis rank s d = .ok (some r)) ↔ p.AxisFits rank axis s d := by
  unfold axisRatio AxisFits
  by_cases ratioOnly : p.isRatioOnly = true
  · simp [ratioOnly, pure, Except.pure, Option.isSome_iff_exists]
  · simp only [ratioOnly, Bool.false_eq_true, ↓reduceIte]
    cases layout : p.windowFor axis rank with
    | error e =>
        simp [bind, Except.bind]
    | ok w =>
        cases mapping : p.mapping with
        | inward =>
            by_cases fits : w.windowsOver s = some d <;>
              simp [bind, Except.bind, pure, Except.pure, fits]
        | outward =>
            by_cases fits : w.windowsOver d = some s <;>
              simp [bind, Except.bind, pure, Except.pure, fits]

/-- The ratio found for an axis: the whole-number ratio when no layout is given; otherwise the
windows of the axis, gathered from a wide source or scattered over a wide destination. -/
theorem axisRatio_eq_some
    {p : UniformParams}
    {rank axis s d : Nat}
    {r : AxisRatio}
    (found : p.axisRatio axis rank s d = .ok (some r)) :
    AxisRatio.between s d = some r ∨
      ∃ w, p.windowFor axis rank = .ok w ∧
        (w.windowsOver s = some d ∧ r = .gather { w with wideLen := s, narrowLen := d } ∨
          w.windowsOver d = some s ∧ r = .scatter { w with wideLen := d, narrowLen := s }) := by
  unfold axisRatio at found
  by_cases ratioOnly : p.isRatioOnly = true
  · simp only [ratioOnly, ↓reduceIte, pure, Except.pure, Except.ok.injEq] at found
    exact .inl found
  · simp only [ratioOnly, Bool.false_eq_true, ↓reduceIte] at found
    cases layout : p.windowFor axis rank with
    | error e =>
        simp [layout, bind, Except.bind] at found
    | ok w =>
        refine .inr ⟨w, rfl, ?_⟩
        cases mapping : p.mapping with
        | inward =>
            by_cases fits : w.windowsOver s = some d <;>
              simp [layout, bind, Except.bind, pure, Except.pure, mapping, fits] at found
            exact .inl ⟨fits, found.symm⟩
        | outward =>
            by_cases fits : w.windowsOver d = some s <;>
              simp [layout, bind, Except.bind, pure, Except.pure, mapping, fits] at found
            exact .inr ⟨fits, found.symm⟩

/-- The ratio found for an axis keeps its source ranges inside the source axis. -/
theorem within_of_axisRatio
    {p : UniformParams}
    {rank axis s d : Nat}
    {r : AxisRatio}
    (found : p.axisRatio axis rank s d = .ok (some r)) :
    r.Within s d := by
  rcases axisRatio_eq_some found with between | ⟨w, -, ⟨-, rfl⟩ | ⟨-, rfl⟩⟩
  · exact AxisRatio.within_of_between between
  · exact AxisRatio.gather_within { w with narrowLen := d } s d
  · exact AxisRatio.scatter_within { w with wideLen := d } s d

end UniformParams

namespace PolicyKind

/--
The rule a policy checks on a pair of dimensions, axis by axis after padding both with unit
axes to the larger rank (a missing axis reads as `1`).
-/
def Accepts : PolicyKind → Dimensions → Dimensions → Prop
  | .uniform p, src, dest =>
      ∀ axis < max src.rank dest.rank,
        p.AxisFits (max src.rank dest.rank) axis (src.axes.getD axis 1) (dest.axes.getD axis 1)
  | .halving, src, dest =>
      ∀ axis < max src.rank dest.rank,
        src.axes.getD axis 1 = 2 * dest.axes.getD axis 1 ∧ 2 * dest.axes.getD axis 1 < wordSize

/--
Whether a policy with no destination yet, told source dimensions, works out the destination
without failing: a uniform policy must lay its windows (or their inverse) along every axis, and
a halving one must find every axis even.
-/
def InducesFrom : PolicyKind → Dimensions → Prop
  | .uniform p, src => ∃ dest, p.induce src true = .ok dest
  | .halving, src => ∀ a ∈ src.axes, a % 2 = 0

/--
Prepared between two ends with `count` elements on each source node, a policy of this kind builds
its splitter map: the map's word arithmetic stays within words and its vectors fit in
allocations.
-/
def Builds (kind : PolicyKind) (count : Nat) (src dest : Dimensions) : Prop :=
  ∀ q, ({ kind, elementCount := count, src, dest } : LinkPolicy).prepare = .ok q →
    ∃ m, q.splitterMap = .ok m

/--
The ratio a policy of this kind finds along one axis of `rank` axes with `s` source and `d`
destination nodes: the one its uniform parameters give, or two source nodes gathered into each
destination node when the source axis is twice the destination axis.
-/
def RatioFits : PolicyKind → Nat → Nat → Nat → Nat → AxisRatio → Prop
  | .uniform p, rank, axis, s, d, r => p.axisRatio axis rank s d = .ok (some r)
  | .halving, _, _, s, d, r => r = .fanIn 2 ∧ s = d * 2

/-- The ratio a policy finds keeps its source ranges inside the source axis. -/
theorem RatioFits.within
    {kind : PolicyKind}
    {rank axis s d : Nat}
    {r : AxisRatio}
    (fits : kind.RatioFits rank axis s d r) :
    r.Within s d := by
  cases kind with
  | uniform p =>
      exact UniformParams.within_of_axisRatio fits
  | halving =>
      obtain ⟨rfl, rfl⟩ := fits
      exact AxisRatio.fanIn_within

end PolicyKind

section CommonRank

variable {src dest : Dimensions} {axis : Nat}

@[simp] theorem commonRank_fst_rank : (commonRank src dest).1.rank = max src.rank dest.rank := by
  simp only [commonRank, Dimensions.rank_promote]
  omega

@[simp] theorem commonRank_snd_rank : (commonRank src dest).2.rank = max src.rank dest.rank := by
  simp only [commonRank, Dimensions.rank_promote]
  omega

theorem commonRank_fst_getD (below : axis < max src.rank dest.rank) :
    (commonRank src dest).1.axes.getD axis 0 = src.axes.getD axis 1 := by
  simp only [commonRank]
  rw [Dimensions.promote_getD, if_pos (by omega)]

theorem commonRank_snd_getD (below : axis < max src.rank dest.rank) :
    (commonRank src dest).2.axes.getD axis 0 = dest.axes.getD axis 1 := by
  simp only [commonRank]
  rw [Dimensions.promote_getD, if_pos (by omega)]

end CommonRank

/--
A fallible lookup followed by a step that keeps a found value and fails on `none` gives a value
exactly when the lookup found it.
-/
theorem bind_eq_ok_iff_found
    {ε α : Type}
    {found : Except ε (Option α)}
    {k : Option α → Except ε α}
    (keeps : ∀ r, k (some r) = .ok r)
    (refuses : ∀ y, k none ≠ .ok y)
    (y : α) :
    found >>= k = .ok y ↔ found = .ok (some y) := by
  cases found with
  | error e => simp [bind, Except.bind]
  | ok result =>
      cases result with
      | none => simpa [bind, Except.bind] using refuses y
      | some r => simp [bind, Except.bind, keeps]

/-- A fallible value followed by a pure step gives a result exactly when the value is found. -/
theorem bind_pure_eq_ok_iff
    {ε α β : Type}
    (m : Except ε α)
    (f : α → β)
    (q : β) :
    (do let a ← m; pure (f a) : Except ε β) = .ok q ↔ ∃ a, m = .ok a ∧ f a = q := by
  cases m <;> simp [bind, Except.bind, pure, Except.pure]

/-- The halving check on equally long axes passes exactly when each source axis is twice its
destination axis and each doubling is a word. -/
theorem halvesAll_eq_ok_true_iff
    {ss ds : List Nat}
    (sameLength : ss.length = ds.length) :
    LinkPolicy.halvesAll ss ds = .ok true ↔
      ∀ i < ss.length, ss.getD i 0 = 2 * ds.getD i 0 ∧ 2 * ds.getD i 0 < wordSize := by
  induction ss generalizing ds with
  | nil =>
      cases ds with
      | nil => simp [LinkPolicy.halvesAll, pure, Except.pure]
      | cons => simp at sameLength
  | cons s ss inductionHypothesis =>
      cases ds with
      | nil => simp at sameLength
      | cons d ds =>
          have rest := @inductionHypothesis ds (by simpa using sameLength)
          -- the first pair decides unless it halves, and then the rest does
          have firstThenRest : (∀ i < ss.length + 1, (s :: ss).getD i 0 = 2 * (d :: ds).getD i 0 ∧
              2 * (d :: ds).getD i 0 < wordSize) ↔
              (s = 2 * d ∧ 2 * d < wordSize) ∧
                ∀ i < ss.length, ss.getD i 0 = 2 * ds.getD i 0 ∧ 2 * ds.getD i 0 < wordSize := by
            constructor
            · intro every
              exact ⟨by simpa using every 0 (by omega),
                fun i below => by simpa using every (i + 1) (by omega)⟩
            · rintro ⟨here, later⟩ i below
              cases i with
              | zero => simpa using here
              | succ i => simpa using later i (by omega)
          rw [List.length_cons, firstThenRest, ← rest]
          unfold wordSize
          by_cases fits : 2 * d < pow2 64
          · by_cases halves : s = 2 * d
            · simp [LinkPolicy.halvesAll, fits, halves, bind, Except.bind]
            · simp [LinkPolicy.halvesAll, fits, halves, bind, Except.bind, pure, Except.pure]
          · simp [LinkPolicy.halvesAll, mulOrPanic, fits, bind, Except.bind]

/-- The halving check on padded ends is the halving rule. -/
theorem halvesAll_commonRank_iff
    (src dest : Dimensions) :
    LinkPolicy.halvesAll (commonRank src dest).1.axes (commonRank src dest).2.axes = .ok true ↔
      PolicyKind.halving.Accepts src dest := by
  have sameLength :
      (commonRank src dest).1.axes.length = (commonRank src dest).2.axes.length := by
    have bothRanks : (commonRank src dest).1.rank = (commonRank src dest).2.rank := by
      rw [commonRank_fst_rank, commonRank_snd_rank]
    simpa only [Dimensions.rank] using bothRanks
  rw [halvesAll_eq_ok_true_iff sameLength]
  simp only [PolicyKind.Accepts]
  have paddedRank : (commonRank src dest).1.axes.length = max src.rank dest.rank :=
    commonRank_fst_rank
  rw [paddedRank]
  -- below the common rank the padded axes read the given ones, a missing one as `1`
  constructor
  · intro halved axis below
    rw [← commonRank_fst_getD below, ← commonRank_snd_getD below]
    exact halved axis below
  · intro halved axis below
    rw [commonRank_fst_getD below, commonRank_snd_getD below]
    exact halved axis below

namespace LinkPolicy

/--
Preparing a policy whose two ends are known, with elements on each source node, succeeds
exactly when its kind accepts the two ends.
-/
theorem prepare_ok_iff
    {p : LinkPolicy}
    (srcSpecified : p.src.isSpecified = true)
    (destSpecified : p.dest.isSpecified = true)
    (positive : 0 < p.elementCount) :
    (∃ q, p.prepare = .ok q) ↔ p.kind.Accepts p.src p.dest := by
  cases kindIs : p.kind with
  | uniform params =>
      simp only [prepare, kindIs, srcSpecified, destSpecified, Nat.pos_iff_ne_zero.mp positive,
        Bool.not_true, Bool.or_false, Bool.false_eq_true, ↓reduceIte, bind_pure_eq_ok_iff]
      rw [exists_comm]
      simp only [exists_and_left, exists_eq', and_true]
      rw [mapM_except_ok_iff_forall]
      simp only [List.mem_range, commonRank_fst_rank, PolicyKind.Accepts]
      -- axis by axis: a ratio is found exactly when the axis fits
      refine forall_congr' fun axis => imp_congr_right fun below => ?_
      rw [← UniformParams.axisRatio_some_iff, commonRank_fst_getD below,
        commonRank_snd_getD below]
      exact exists_congr fun r =>
        bind_eq_ok_iff_found (fun _ => rfl) (fun _ refused => by cases refused) r
  | halving =>
      simp only [prepare, kindIs, srcSpecified, destSpecified, Bool.not_true, Bool.or_false,
        Bool.false_eq_true, ↓reduceIte]
      rw [← halvesAll_commonRank_iff]
      -- a panic or a refusal of the check fails, a pass prepares
      cases checked : halvesAll (commonRank p.src p.dest).1.axes (commonRank p.src p.dest).2.axes
        with
      | error e => simp [liftData, bind, Except.bind]
      | ok halves =>
          cases halves <;>
            simp [liftData, bind, Except.bind, pure, Except.pure, throw, throwThe,
              MonadExceptOf.throw]

/-- Preparing checks first that both ends are known. -/
theorem specified_of_prepare
    {p q : LinkPolicy}
    (prepared : p.prepare = .ok q) :
    p.src.isSpecified = true ∧ p.dest.isSpecified = true := by
  by_cases refused : (!p.src.isSpecified || !p.dest.isSpecified) = true
  · simp only [prepare, refused, ↓reduceIte] at prepared
    cases prepared
  · simpa using refused

/-- A halving policy prepares by passing the halving check on its padded ends, and then only
becomes ready. -/
theorem prepare_halving_eq_ok
    {p q : LinkPolicy}
    (halvingKind : p.kind = .halving)
    (prepared : p.prepare = .ok q) :
    halvesAll (commonRank p.src p.dest).1.axes (commonRank p.src p.dest).2.axes = .ok true ∧
      q = { p with ready := true } := by
  obtain ⟨srcSpecified, destSpecified⟩ := specified_of_prepare prepared
  simp only [prepare, halvingKind, srcSpecified, destSpecified, Bool.not_true, Bool.or_false,
    Bool.false_eq_true, ↓reduceIte] at prepared
  cases checked : halvesAll (commonRank p.src p.dest).1.axes (commonRank p.src p.dest).2.axes with
  | error e =>
      simp [checked, liftData, bind, Except.bind] at prepared
  | ok halves =>
      cases halves with
      | false =>
          simp [checked, liftData, bind, Except.bind, throw, throwThe, MonadExceptOf.throw]
            at prepared
      | true =>
          simp only [checked, liftData, bind, Except.bind, ↓reduceIte, pure, Except.pure,
            Except.ok.injEq] at prepared
          subst prepared
          exact ⟨rfl, by rw [halvingKind]⟩

/-- A prepared policy is ready and keeps its kind, its ends and its element count. -/
theorem prepare_eq_ok
    {p q : LinkPolicy}
    (prepared : p.prepare = .ok q) :
    q.ready = true ∧ q.kind = p.kind ∧ q.src = p.src ∧ q.dest = p.dest ∧
      q.elementCount = p.elementCount := by
  obtain ⟨srcSpecified, destSpecified⟩ := specified_of_prepare prepared
  cases kindIs : p.kind with
  | uniform params =>
      by_cases empty : p.elementCount = 0
      · simp only [prepare, kindIs, srcSpecified, destSpecified, empty, Bool.not_true,
          Bool.or_false, Bool.false_eq_true, ↓reduceIte] at prepared
        cases prepared
      · simp only [prepare, kindIs, srcSpecified, destSpecified, empty, Bool.not_true,
          Bool.or_false, Bool.false_eq_true, ↓reduceIte, bind_pure_eq_ok_iff] at prepared
        obtain ⟨_, _, rfl⟩ := prepared
        simp
  | halving =>
      obtain ⟨-, rfl⟩ := prepare_halving_eq_ok kindIs prepared
      exact ⟨rfl, kindIs, rfl, rfl, rfl⟩

/--
The ratios a prepared policy uses: one per axis of the two ends padded to their common rank, each
the ratio its kind finds along that axis.
-/
theorem ratios_of_prepare
    {p q : LinkPolicy}
    (prepared : p.prepare = .ok q) :
    ∃ ratios,
      q.splitterMap = Link.splitterMap (commonRank p.src p.dest).1 (commonRank p.src p.dest).2
        ratios p.elementCount ∧
      ratios.length = (commonRank p.src p.dest).2.rank ∧
      ∀ axis (h : axis < ratios.length),
        p.kind.RatioFits (commonRank p.src p.dest).1.rank axis
          ((commonRank p.src p.dest).1.axes.getD axis 0)
          ((commonRank p.src p.dest).2.axes.getD axis 0) ratios[axis] := by
  obtain ⟨srcSpecified, destSpecified⟩ := specified_of_prepare prepared
  have sameRank : (commonRank p.src p.dest).1.rank = (commonRank p.src p.dest).2.rank := by
    simp
  cases kindIs : p.kind with
  | uniform params =>
      have positive : p.elementCount ≠ 0 := by
        intro empty
        simp only [prepare, kindIs, srcSpecified, destSpecified, empty, Bool.not_true,
          Bool.or_false, Bool.false_eq_true, ↓reduceIte] at prepared
        cases prepared
      simp only [prepare, kindIs, srcSpecified, destSpecified, positive, Bool.not_true,
        Bool.or_false, Bool.false_eq_true, ↓reduceIte, bind_pure_eq_ok_iff] at prepared
      obtain ⟨ratios, mapped, rfl⟩ := prepared
      -- one ratio per axis, each the one `axisRatio` found
      have paired := (mapM_except_eq_ok_iff _ _ _).mp mapped
      refine ⟨ratios, by simp [splitterMap], ?_, fun axis inRatios => ?_⟩
      · rw [← paired.length_eq, List.length_range, sameRank]
      · have inRange : axis < (List.range (commonRank p.src p.dest).1.rank).length := by
          rw [paired.length_eq]
          exact inRatios
        have found := paired.get inRange inRatios
        simp only [List.get_eq_getElem, List.getElem_range] at found
        rw [bind_eq_ok_iff_found (fun _ => rfl) (fun _ refused => by cases refused)] at found
        exact found
  | halving =>
      obtain ⟨halved, rfl⟩ := prepare_halving_eq_ok kindIs prepared
      -- every axis gathers two source nodes per destination node
      have sameLength : (commonRank p.src p.dest).1.axes.length =
          (commonRank p.src p.dest).2.axes.length := sameRank
      have twice := (halvesAll_eq_ok_true_iff sameLength).mp halved
      refine ⟨List.replicate (commonRank p.src p.dest).1.rank (AxisRatio.fanIn 2),
        by simp [splitterMap, kindIs], by simp, fun axis inRatios => ⟨by simp, ?_⟩⟩
      have atAxis := twice axis (by simpa [Dimensions.rank] using inRatios)
      omega

/-- A splitter map a prepared policy builds has one entry per destination node. -/
theorem splitterMap_length_of_prepare
    {p q : LinkPolicy}
    (prepared : p.prepare = .ok q)
    {m : List (List Nat)}
    (built : q.splitterMap = .ok m) :
    m.length = p.dest.count := by
  obtain ⟨-, destSpecified⟩ := specified_of_prepare prepared
  obtain ⟨ratios, usesRatios, -, -⟩ := ratios_of_prepare prepared
  -- the map is built between the ends padded to the common rank, which keeps the node count
  have destCount : (commonRank p.src p.dest).2.count = p.dest.count :=
    Dimensions.count_promote destSpecified _
  rw [usesRatios] at built
  rw [Link.splitterMap_length built, destCount]

/--
Telling the source to a policy with no destination yet succeeds exactly when its kind works a
destination out from it.
-/
theorem setSource_ok_iff
    {p : LinkPolicy}
    (noDest : p.dest.isSpecified = false)
    {dims : Dimensions}
    (specified : dims.isSpecified = true) :
    (p.setSource dims).2 = .ok () ↔ p.kind.InducesFrom dims := by
  cases kindIs : p.kind with
  | uniform params =>
      simp only [setSource, specified, noDest, kindIs, Bool.not_false, Bool.and_self, ↓reduceIte,
        PolicyKind.InducesFrom]
      cases params.induce dims true <;> simp
  | halving =>
      -- the halving policy refuses a source with an odd axis
      by_cases odd : ∃ a ∈ dims.axes, a % 2 = 1
      · obtain ⟨a, member, oddHere⟩ := odd
        have anyOdd : (dims.axes.any fun a => a % 2 != 0) = true :=
          List.any_eq_true.mpr ⟨a, member, by simp [oddHere]⟩
        simp only [setSource, specified, noDest, kindIs, Bool.not_false, Bool.and_self,
          ↓reduceIte, anyOdd, PolicyKind.InducesFrom, reduceCtorEq, false_iff, not_forall]
        exact ⟨a, member, by omega⟩
      · simp only [not_exists, not_and] at odd
        simp [setSource, specified, noDest, kindIs, PolicyKind.InducesFrom]
        grind

/-- Telling the source keeps the kind and the element count and forgets any preparation. -/
theorem setSource_fst
    (p : LinkPolicy)
    (dims : Dimensions) :
    ∃ dest, (p.setSource dims).1 = { p with src := dims, dest, ready := false } := by
  by_cases tells : (dims.isSpecified && !p.dest.isSpecified) = true
  · cases kindIs : p.kind with
    | uniform params =>
        cases induced : params.induce dims true with
        | ok dest => exact ⟨dest, by simp [setSource, tells, kindIs, induced]⟩
        | error e => exact ⟨p.dest, by simp [setSource, tells, kindIs, induced]⟩
    | halving =>
        by_cases odd : (dims.axes.any fun a => a % 2 != 0) = true
        · exact ⟨p.dest, by simp only [setSource, tells, kindIs, odd, ↓reduceIte]⟩
        · exact ⟨⟨dims.axes.map (· / 2)⟩,
            by simp only [setSource, tells, kindIs, odd, ↓reduceIte, Bool.false_eq_true]⟩
  · exact ⟨p.dest, by simp [setSource, tells]⟩

/-- Telling the destination to a policy whose source is known only records it. -/
theorem setDestination_of_specified
    {p : LinkPolicy}
    (srcSpecified : p.src.isSpecified = true)
    (dims : Dimensions) :
    p.setDestination dims = ({ p with dest := dims, ready := false }, .ok ()) := by
  simp [setDestination, srcSpecified]

/-- Told a known source and then a destination, a policy holds exactly those two ends. -/
theorem setDestination_setSource
    (p : LinkPolicy)
    {src : Dimensions}
    (specified : src.isSpecified = true)
    (dest : Dimensions) :
    (p.setSource src).1.setDestination dest =
      ({ p with src, dest, ready := false }, .ok ()) := by
  obtain ⟨induced, told⟩ := setSource_fst p src
  rw [told, setDestination_of_specified specified]

end LinkPolicy

end Link

end RegionNet
