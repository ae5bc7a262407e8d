import RegionNet.Proofs.Blocks
import RegionNet.Proofs.Policy

namespace RegionNet

/-!
# Link policies lose nothing

A uniform policy's parameter text is checked when the policy is made: every axis of the layout's
rank must have windows of positive size that overlap by less than their size, and its counts are
64-bit words. This module shows that the windows of every axis a prepared policy lays out are
then valid, so that every ratio it finds tiles its two axes and, between axes that fit in
allocations, computes its ranges without overflow. A policy made from a parameter text, told its
two ends and prepared, therefore builds a splitter map that gives each destination node whole
source nodes in increasing order and reads every source element, when the map's vectors fit in
allocations (`Link.LinkPolicy.splitterMap_wellFormed`). Past that bound the map panics.

-/

/-- A loop that never stops early finishes only when every pass continues. -/
theorem forIn_except_yield
    {ε α : Type}
    {xs : List α}
    {f : α → PUnit → Except ε (ForInStep PUnit)}
    (continues : ∀ a step, f a PUnit.unit = .ok step → step = .yield PUnit.unit)
    (finished : forIn xs PUnit.unit f = .ok PUnit.unit) :
    ∀ a ∈ xs, f a PUnit.unit = .ok (.yield PUnit.unit) := by
  induction xs with
  | nil =>
      simp
  | cons x rest inductionHypothesis =>
      rw [List.forIn_cons] at finished
      cases passed : f x PUnit.unit with
      | error e =>
          simp [passed, bind, Except.bind] at finished
      | ok step =>
          obtain rfl := continues x step passed
          simp only [passed, bind, Except.bind] at finished
          intro a member
          rcases List.mem_cons.mp member with rfl | inRest
          · exact passed
          · exact inductionHypothesis finished a inRest

namespace Dimensions

/-- An axis of specified dimensions is no longer than all of them together. -/
theorem getD_le_product
    {d : Dimensions}
    (specified : d.isSpecified = true)
    (axis : Nat) :
    d.axes.getD axis 0 ≤ d.product := by
  have positive : ∀ a ∈ d.axes, 0 < a := fun _ member => pos_of_isSpecified specified member
  obtain ⟨axes⟩ := d
  simp only [product] at positive ⊢
  clear specified
  induction axes generalizing axis with
  | nil =>
      simp
  | cons a rest inductionHypothesis =>
      have restPositive : ∀ b ∈ rest, 0 < b := fun b member => positive b (by simp [member])
      have first := positive a (by simp)
      -- the other axes multiply to at least one
      have others : 0 < rest.foldr (· * ·) 1 :=
        product_pos_of_forall₂ (digits_forall₂_lt rest restPositive 0)
      cases axis with
      | zero =>
          simpa using Nat.le_mul_of_pos_right a others
      | succ axis =>
          simpa using Nat.le_trans (inductionHypothesis axis restPositive)
            (Nat.le_mul_of_pos_left _ first)

end Dimensions

namespace Link

namespace UniformParams

/-- A per-axis setting fits a layout of `rank` axes: a list of more than one entry has one
entry per axis. -/
def Agrees (values : Option (List Nat)) (rank : Nat) : Prop :=
  ∀ vs, values = some vs → 2 ≤ vs.length → vs.length = rank

/--
A fold that keeps the rank it has found, sets it from every list of more than one entry, and
sets it to nothing else, ends with a rank every such list agrees with.
-/
theorem foldlM_agrees
    {ε : Type}
    {step : Option Nat → String × Option (List Nat) → Except ε (Option Nat)}
    (keeps : ∀ acc x r, step acc x = .ok r →
      (∀ a, acc = some a → r = some a) ∧
        (∀ vs, x.2 = some vs → 2 ≤ vs.length → r = some vs.length) ∧
        (∀ a, r = some a → acc = some a ∨ 2 ≤ a))
    (settings : List (String × Option (List Nat)))
    {acc r : Option Nat}
    (fromLists : ∀ a, acc = some a → 2 ≤ a)
    (folded : settings.foldlM step acc = .ok r) :
    (∀ a, acc = some a → r = some a) ∧
      (∀ x ∈ settings, ∀ vs, x.2 = some vs → 2 ≤ vs.length → r = some vs.length) ∧
      (∀ a, r = some a → 2 ≤ a) := by
  induction settings generalizing acc with
  | nil =>
      simp only [List.foldlM_nil, pure, Except.pure, Except.ok.injEq] at folded
      subst folded
      exact ⟨fun _ found => found, by simp, fromLists⟩
  | cons x rest inductionHypothesis =>
      rw [List.foldlM_cons] at folded
      cases stepped : step acc x with
      | error e =>
          simp [stepped, bind, Except.bind] at folded
      | ok acc' =>
          simp only [stepped, bind, Except.bind] at folded
          obtain ⟨kept, setsRank, onlyLists⟩ := keeps acc x acc' stepped
          have fromLists' : ∀ a, acc' = some a → 2 ≤ a := by
            intro a found
            rcases onlyLists a found with before | long
            · exact fromLists a before
            · exact long
          obtain ⟨keptRest, agreesRest, ranked⟩ := inductionHypothesis fromLists' folded
          refine ⟨fun a found => keptRest a (kept a found), ?_, ranked⟩
          intro y member
          rcases List.mem_cons.mp member with rfl | inRest
          · exact fun vs given long => keptRest _ (setsRank vs given long)
          · exact agreesRest y inRest

theorem rank_agrees
    {p : UniformParams}
    {r : Option Nat}
    (ranked : p.rank = .ok r) :
    Agrees p.rfSize (r.getD 1) ∧ Agrees p.rfOverlap (r.getD 1) ∧ Agrees p.span (r.getD 1) ∧
      0 < r.getD 1 := by
  unfold rank at ranked
  have folded := foldlM_agrees ?_ _ (by simp) ranked
  · obtain ⟨-, agrees, positive⟩ := folded
    -- the rank found, or one axis when no list fixes it
    have fits : ∀ x ∈ p.perAxis, Agrees x.2 (r.getD 1) := by
      intro x member vs given long
      rw [agrees x member vs given long]
      rfl
    have atLeastOne : 0 < r.getD 1 := by
      cases r with
      | none => exact Nat.one_pos
      | some a => exact Nat.lt_of_lt_of_le (by decide) (positive a rfl)
    exact ⟨fits ("rf_size", p.rfSize) (by simp [perAxis]),
      fits ("rf_overlap", p.rfOverlap) (by simp [perAxis]), fits ("span", p.span) (by simp [perAxis]),
      atLeastOne⟩
  · intro acc x r stepped
    obtain ⟨name, values⟩ := x
    dsimp only at stepped
    split at stepped
    · -- no setting keeps the rank
      cases stepped
      exact ⟨fun _ found => found, by simp, fun a found => .inl found⟩
    · cases stepped
    · -- one entry for all axes keeps the rank
      cases stepped
      exact ⟨fun _ found => found, by simp, fun a found => .inl found⟩
    · -- a list of more than one entry sets the rank, agreeing with any rank set before
      rename_i vs notEmpty notSingle
      have long : 2 ≤ vs.length := by
        rcases vs with _ | ⟨a, _ | ⟨b, rest⟩⟩
        · exact absurd rfl notEmpty
        · exact absurd rfl (notSingle a)
        · simp
      split at stepped
      · rename_i before
        split at stepped
        · cases stepped
        · rename_i same
          cases stepped
          simp only [ne_eq, Decidable.not_not] at same
          subst same
          exact ⟨fun _ found => found, by simp, fun a found => .inl found⟩
      · cases stepped
        exact ⟨by simp, by simp, fun a found => .inr (by simp at found; omega)⟩

/-- A layout that passes the check has, on every axis of its rank, settings with no problem. -/
theorem validate_axes
    {p : UniformParams}
    (checked : p.validate = .ok ()) :
    ∃ r, p.rank = .ok r ∧ ∀ axis < r.getD 1, ∃ size overlap span,
      axisValue p.rfSize 1 axis (r.getD 1) = .ok size ∧
        axisValue p.rfOverlap 0 axis (r.getD 1) = .ok overlap ∧
        axisValue p.span 0 axis (r.getD 1) = .ok span ∧ axisProblem size overlap span = none := by
  unfold validate at checked
  cases ranked : p.rank with
  | error e =>
      simp [ranked, bind, Except.bind] at checked
  | ok r =>
      simp only [ranked, bind, Except.bind] at checked
      refine ⟨r, rfl, fun axis below => ?_⟩
      split at checked
      · cases checked
      · rename_i finished
        -- every pass that does not throw continues the loop
        have pass := forIn_except_yield ?_ finished axis (List.mem_range.mpr below)
        · split at pass
          · cases pass
          · rename_i size sized
            split at pass
            · cases pass
            · rename_i overlap overlapped
              split at pass
              · cases pass
              · rename_i span spanned
                refine ⟨size, overlap, span, sized, overlapped, spanned, ?_⟩
                split at pass
                · -- a problem throws
                  split at pass
                  · cases pass
                  · rename_i thrown
                    cases thrown
                · rename_i noProblem
                  exact Option.eq_none_iff_forall_ne_some.mpr noProblem
        · intro a step passed
          repeat' split at passed
          all_goals first | (cases passed; rfl) | cases passed

/--
A setting that agrees with the checked rank reads, on an axis of a layout it fits, the value it
reads on an axis the check visited: the same axis when it has one entry per axis, and the first
axis when one entry stands for all.
-/
theorem axisValue_at_checked
    {values : Option (List Nat)}
    {checked : Nat}
    (agrees : Agrees values checked)
    {fallback axis rank v : Nat}
    (below : axis < rank)
    (found : axisValue values fallback axis rank = .ok v) :
    axisValue values fallback (if axis < checked then axis else 0) checked = .ok v := by
  rcases values with _ | _ | ⟨a, _ | ⟨b, rest⟩⟩
  · exact found
  · -- an empty list fits no layout of at least one axis
    simp only [axisValue, List.length_nil] at found
    split at found
    · omega
    · cases found
  · exact found
  · -- one entry per axis: the layout has the checked rank, so this axis was checked
    have sameRank := agrees _ rfl (by simp)
    simp only [axisValue] at found ⊢
    split at found
    · rename_i fitsRank
      have visited : axis < checked := by omega
      simp only [visited, ↓reduceIte, sameRank]
      exact found
    · cases found

/-- A layout without problem advances its windows by at least one node and by no more than
their size, and restarts them in spans no shorter than a window, if at all. -/
theorem valid_of_axisProblem
    {size overlap span : Nat}
    (noProblem : axisProblem size overlap span = none)
    (strict : Bool) :
    ({ size, stride := size - overlap, span, strict } : Window).Valid ∧ (span = 0 ∨ size ≤ span) := by
  unfold axisProblem at noProblem
  split at noProblem
  · cases noProblem
  · split at noProblem
    · cases noProblem
    · split at noProblem
      · cases noProblem
      · split at noProblem
        · cases noProblem
        · rename_i short
          simp only [Bool.and_eq_true, decide_eq_true_eq, not_and, Nat.not_lt] at short
          exact ⟨⟨by dsimp only; omega, by dsimp only; omega⟩, by omega⟩

/-- The windows of an axis are laid out from its three settings. -/
theorem windowFor_eq_ok
    {p : UniformParams}
    {axis rank : Nat}
    {w : Window}
    (found : p.windowFor axis rank = .ok w) :
    ∃ size overlap span,
      axisValue p.rfSize 1 axis rank = .ok size ∧ axisValue p.rfOverlap 0 axis rank = .ok overlap ∧
        axisValue p.span 0 axis rank = .ok span ∧
        w = { size, stride := size - overlap, span, strict := p.strict } := by
  unfold windowFor at found
  cases sized : axisValue p.rfSize 1 axis rank with
  | error e =>
      simp [sized, bind, Except.bind] at found
  | ok size =>
      cases overlapped : axisValue p.rfOverlap 0 axis rank with
      | error e =>
          simp [sized, overlapped, bind, Except.bind] at found
      | ok overlap =>
          cases spanned : axisValue p.span 0 axis rank with
          | error e =>
              simp [sized, overlapped, spanned, bind, Except.bind] at found
          | ok span =>
              simp only [sized, overlapped, spanned, bind, Except.bind, pure, Except.pure,
                Except.ok.injEq] at found
              exact ⟨size, overlap, span, rfl, rfl, rfl, found.symm⟩

/--
The windows of an axis of a layout that passed the check are laid out from settings without
problem: those the check saw on that axis, or on the first axis when one entry stands for all.
-/
theorem windowFor_checked
    {p : UniformParams}
    (checked : p.validate = .ok ())
    {axis rank : Nat}
    (below : axis < rank)
    {w : Window}
    (found : p.windowFor axis rank = .ok w) :
    ∃ size overlap span, axisValue p.rfOverlap 0 axis rank = .ok overlap ∧
      axisProblem size overlap span = none ∧
      w = { size, stride := size - overlap, span, strict := p.strict } := by
  obtain ⟨r, ranked, axes⟩ := validate_axes checked
  obtain ⟨sizeAgrees, overlapAgrees, spanAgrees, positive⟩ := rank_agrees ranked
  obtain ⟨size, overlap, span, sized, overlapped, spanned, rfl⟩ := windowFor_eq_ok found
  -- the check visited an axis with the same three settings
  have visited : (if axis < r.getD 1 then axis else 0) < r.getD 1 := by
    split <;> omega
  obtain ⟨size', overlap', span', sized', overlapped', spanned', noProblem⟩ := axes _ visited
  rw [axisValue_at_checked sizeAgrees below sized, Except.ok.injEq] at sized'
  rw [axisValue_at_checked overlapAgrees below overlapped, Except.ok.injEq] at overlapped'
  rw [axisValue_at_checked spanAgrees below spanned, Except.ok.injEq] at spanned'
  subst sized' overlapped' spanned'
  exact ⟨size, overlap, span, overlapped, noProblem, rfl⟩

/-- Every axis of a layout that passed the check has valid windows, restarting in spans no
shorter than a window, if at all. -/
theorem windowFor_valid
    {p : UniformParams}
    (checked : p.validate = .ok ())
    {axis rank : Nat}
    (below : axis < rank)
    {w : Window}
    (found : p.windowFor axis rank = .ok w) :
    w.Valid ∧ (w.span = 0 ∨ w.size ≤ w.span) := by
  obtain ⟨size, overlap, span, -, noProblem, rfl⟩ := windowFor_checked checked below found
  exact valid_of_axisProblem noProblem p.strict

/-- The ratio found for an axis of valid windows tiles the two axes. -/
theorem tiles_of_axisRatio
    {p : UniformParams}
    {rank axis s d : Nat}
    (valid : ∀ w, p.windowFor axis rank = .ok w → w.Valid)
    {r : AxisRatio}
    (found : p.axisRatio axis rank s d = .ok (some r)) :
    r.Tiles s d := by
  rcases axisRatio_eq_some found with between | ⟨w, layout, ⟨fits, rfl⟩ | ⟨fits, rfl⟩⟩
  · exact AxisRatio.tiles_of_between between
  · exact AxisRatio.gather_tiles (valid w layout) fits
  · exact AxisRatio.scatter_tiles (valid w layout) fits

/-- The window sizes and spans of a layout are 64-bit words. -/
structure Words (p : UniformParams) : Prop where
  sizes : ∀ vs, p.rfSize = some vs → ∀ v ∈ vs, v < wordSize
  spans : ∀ vs, p.span = some vs → ∀ v ∈ vs, v < wordSize

/-- A per-axis setting whose entries and fallback lie below a bound reads a value below it. -/
theorem axisValue_lt
    {values : Option (List Nat)}
    {bound fallback axis rank v : Nat}
    (entries : ∀ vs, values = some vs → ∀ v ∈ vs, v < bound)
    (fallbackBelow : fallback < bound)
    (read : axisValue values fallback axis rank = .ok v) :
    v < bound := by
  rcases values with _ | _ | ⟨a, _ | ⟨b, rest⟩⟩
  · simp only [axisValue, pure, Except.pure, Except.ok.injEq] at read
    omega
  · -- an empty list reads zero, or fails
    simp only [axisValue] at read
    split at read
    · simp only [pure, Except.pure, Except.ok.injEq, List.getD_nil] at read
      omega
    · cases read
  · simp only [axisValue, pure, Except.pure, Except.ok.injEq] at read
    subst read
    exact entries _ rfl a (by simp)
  · simp only [axisValue] at read
    split at read
    · simp only [pure, Except.pure, Except.ok.injEq] at read
      subst read
      -- an entry of the list, or zero past its end
      rw [List.getD_eq_getElem?_getD]
      cases entry : (a :: b :: rest)[axis]? with
      | none =>
          simp only [Option.getD_none]
          omega
      | some e =>
          exact entries _ rfl e (List.mem_of_getElem? entry)
    · cases read

/-- Windows laid out from a layout whose sizes and spans are words have a word size and span. -/
theorem windowFor_words
    {p : UniformParams}
    (words : p.Words)
    {axis rank : Nat}
    {w : Window}
    (found : p.windowFor axis rank = .ok w) :
    w.size < wordSize ∧ w.span < wordSize := by
  obtain ⟨size, overlap, span, sized, -, spanned, rfl⟩ := windowFor_eq_ok found
  exact ⟨axisValue_lt words.sizes (by decide) sized, axisValue_lt words.spans (by decide) spanned⟩

/-- The ratio found for an axis of valid windows of word size and span computes its ranges
without overflow, when the source axis fits twice in a word and the destination axis is a
word. -/
theorem checked_of_axisRatio
    {p : UniformParams}
    {rank axis s d : Nat}
    (valid : ∀ w, p.windowFor axis rank = .ok w →
      (w.Valid ∧ (w.span = 0 ∨ w.size ≤ w.span)) ∧ w.size < wordSize ∧ w.span < wordSize)
    (srcRoom : 2 * s < wordSize)
    (destWord : d < wordSize)
    {r : AxisRatio}
    (found : p.axisRatio axis rank s d = .ok (some r)) :
    r.Checked d := by
  rcases axisRatio_eq_some found with between | ⟨w, layout, ⟨fits, rfl⟩ | ⟨-, rfl⟩⟩
  · exact AxisRatio.checked_of_between between (by omega) destWord
  · obtain ⟨⟨windowValid, spanFits⟩, sizeWord, spanWord⟩ := valid w layout
    exact AxisRatio.gather_checked windowValid spanFits fits srcRoom sizeWord spanWord
  · exact AxisRatio.scatter_checked _ d

/-- A value that a step reads, checks and returns is the value read, and passed the check. -/
theorem read_checked_of_bind
    {ε α : Type}
    {read : Except ε α}
    {check : α → Except ε Unit}
    {a : α}
    (done : (do let x ← read; check x; pure x) = .ok a) :
    read = .ok a ∧ check a = .ok () := by
  cases read with
  | error e =>
      cases done
  | ok x =>
      cases checking : check x with
      | error e =>
          simp [bind, Except.bind, checking] at done
      | ok u =>
          simp only [bind, Except.bind, checking, pure, Except.pure, Except.ok.injEq] at done
          subst done
          exact ⟨rfl, checking⟩

/-- A layout read from a parameter text has passed the check. -/
theorem validate_of_parse
    {text : String}
    {params : UniformParams}
    (parsed : parse text = .ok params) :
    params.validate = .ok () := by
  unfold parse at parsed
  -- a blank text, a text that reads, and one that does not all end in the same check
  split at parsed
  · exact (read_checked_of_bind parsed).2
  · split at parsed
    · exact (read_checked_of_bind parsed).2
    · exact (read_checked_of_bind parsed).2

/-- The counts of a setting read from a parameter text are 64-bit words. -/
theorem countsOf_lt
    {j : Json}
    {vs : List Nat}
    (read : countsOf j = some vs) :
    ∀ v ∈ vs, v < wordSize := by
  intro v member
  simp only [countsOf, Option.map_eq_some_iff] at read
  obtain ⟨xs, -, rfl⟩ := read
  obtain ⟨x, -, counted⟩ := List.mem_filterMap.mp member
  exact Json.unsigned?_lt counted

/-- A layout read from a parameter text is the default one or the one a JSON value holds. -/
theorem parse_eq_ok
    {text : String}
    {params : UniformParams}
    (parsed : parse text = .ok params) :
    params = {} ∨ ∃ j, params = ofJson j := by
  unfold parse at parsed
  split at parsed
  · left
    simp only [pure, Except.pure, bind, Except.bind] at parsed
    split at parsed
    · cases parsed
    · exact (Except.ok.inj parsed).symm
  · split at parsed
    · rename_i j _
      right
      refine ⟨j, ?_⟩
      simp only [pure, Except.pure, bind, Except.bind] at parsed
      split at parsed
      · cases parsed
      · exact (Except.ok.inj parsed).symm
    · simp [bind, Except.bind, throw, throwThe, MonadExceptOf.throw] at parsed

/-- A layout read from a parameter text has window sizes and spans that are words: the defaults
leave them out, and a JSON value holds only counts read as words. -/
theorem words_of_parse
    {text : String}
    {params : UniformParams}
    (parsed : parse text = .ok params) :
    params.Words := by
  rcases parse_eq_ok parsed with rfl | ⟨j, rfl⟩
  · exact ⟨fun _ absent => (nomatch absent), fun _ absent => (nomatch absent)⟩
  · refine ⟨fun vs found => ?_, fun vs found => ?_⟩
    · obtain ⟨field, -, counted⟩ := Option.bind_eq_some_iff.mp found
      exact countsOf_lt counted
    · obtain ⟨field, -, counted⟩ := Option.bind_eq_some_iff.mp found
      exact countsOf_lt counted

end UniformParams

namespace PolicyKind

/-- The layout of a uniform policy kind passed the check and has window sizes and spans that
are words; a halving kind has no layout. -/
def CheckedLayout (kind : PolicyKind) : Prop :=
  ∀ params, kind = .uniform params → params.validate = .ok () ∧ params.Words

/-- The ratio a policy whose layout passed the check finds along an axis tiles the two axes. -/
theorem RatioFits.tiles
    {kind : PolicyKind}
    {rank axis s d : Nat}
    {r : AxisRatio}
    (laidOut : kind.CheckedLayout)
    (below : axis < rank)
    (fits : kind.RatioFits rank axis s d r) :
    r.Tiles s d := by
  cases kind with
  | uniform params =>
      exact UniformParams.tiles_of_axisRatio
        (fun _ found => (UniformParams.windowFor_valid (laidOut params rfl).1 below found).1) fits
  | halving =>
      obtain ⟨rfl, rfl⟩ := fits
      exact AxisRatio.fanIn_tiles (by decide)

/-- The ratio a policy with a checked layout finds along an axis computes its ranges without
overflow, when the source axis fits twice in a word and the destination axis is a word. -/
theorem RatioFits.checked
    {kind : PolicyKind}
    {rank axis s d : Nat}
    {r : AxisRatio}
    (laidOut : kind.CheckedLayout)
    (below : axis < rank)
    (srcRoom : 2 * s < wordSize)
    (destWord : d < wordSize)
    (fits : kind.RatioFits rank axis s d r) :
    r.Checked d := by
  cases kind with
  | uniform params =>
      obtain ⟨checked, words⟩ := laidOut params rfl
      exact UniformParams.checked_of_axisRatio
        (fun _ found => ⟨UniformParams.windowFor_valid checked below found,
          UniformParams.windowFor_words words found⟩) srcRoom destWord fits
  | halving =>
      obtain ⟨rfl, rfl⟩ := fits
      exact AxisRatio.fanIn_checked destWord (by omega)

end PolicyKind

namespace BuiltinPolicy

/-- A policy made from a parameter text has a checked layout. -/
theorem create_checked
    {kind : BuiltinPolicy}
    {text : String}
    {made : LinkPolicy}
    (created : kind.create text = .ok made) :
    made.kind.CheckedLayout := by
  intro params madeKind
  cases kind with
  | uniform =>
      simp only [create, LinkPolicy.uniform, bind, Except.bind] at created
      split at created
      · cases created
      · rename_i parsed
        simp only [pure, Except.pure, Except.ok.injEq] at created
        subst created
        cases madeKind
        exact ⟨UniformParams.validate_of_parse parsed, UniformParams.words_of_parse parsed⟩
  | halving =>
      simp only [create, LinkPolicy.halving] at created
      split at created
      · cases created
      · simp only [pure, Except.pure, Except.ok.injEq] at created
        subst created
        cases madeKind

end BuiltinPolicy

namespace LinkPolicy

/--
A prepared policy with a checked layout builds a splitter map that reads whole source nodes and
every source element, when the map's vectors fit in allocations: the elements of the whole
source in one entry, and one entry for each destination node.
-/
theorem splitterMap_wellFormed_of_prepare
    {p q : LinkPolicy}
    (prepared : p.prepare = .ok q)
    (laidOut : p.kind.CheckedLayout)
    (positive : 0 < p.elementCount)
    (srcRoom : p.src.product * p.elementCount * 8 ≤ isizeMax)
    (destRoom : p.dest.product * 24 ≤ isizeMax) :
    ∃ map, q.splitterMap = .ok map ∧ map.length = p.dest.count ∧
      WellFormedMap map p.src.count p.elementCount := by
  obtain ⟨srcSpecified, destSpecified⟩ := specified_of_prepare prepared
  obtain ⟨ratios, usesRatios, oneRatioPerAxis, fits⟩ := ratios_of_prepare prepared
  -- the map is built between the ends padded to the common rank, which keeps their nodes
  have paddedSrc : (commonRank p.src p.dest).1.isSpecified = true :=
    Dimensions.isSpecified_promote srcSpecified _
  have paddedDest : (commonRank p.src p.dest).2.isSpecified = true :=
    Dimensions.isSpecified_promote destSpecified _
  have sameRank : (commonRank p.src p.dest).1.rank = (commonRank p.src p.dest).2.rank := by
    simp
  have srcCount : (commonRank p.src p.dest).1.count = p.src.count :=
    Dimensions.count_promote srcSpecified _
  have destCount : (commonRank p.src p.dest).2.count = p.dest.count :=
    Dimensions.count_promote destSpecified _
  have srcProduct : (commonRank p.src p.dest).1.product = p.src.product :=
    Dimensions.product_promote _ _
  have destProduct : (commonRank p.src p.dest).2.product = p.dest.product :=
    Dimensions.product_promote _ _
  have tiles : RatiosTile ratios (commonRank p.src p.dest).1.axes (commonRank p.src p.dest).2.axes :=
    fun axis inRatios => (fits axis inRatios).tiles laidOut (by omega)
  -- every axis is at most its side's product, which fits in an allocation
  have checked : RatiosChecked ratios (commonRank p.src p.dest).2.axes := by
    intro axis inRatios
    have srcAxis := Dimensions.getD_le_product paddedSrc axis
    have destAxis := Dimensions.getD_le_product paddedDest axis
    have srcNodes := Nat.le_mul_of_pos_right p.src.product positive
    have twice := two_mul_isizeMax_lt_wordSize
    exact (fits axis inRatios).checked laidOut (by omega) (by omega) (by omega)
  obtain ⟨map, built, length, wellFormed⟩ := splitterMap_wellFormed_of_tiles paddedSrc paddedDest
    sameRank oneRatioPerAxis tiles checked positive (by rw [srcProduct]; exact srcRoom)
    (by rw [destProduct]; exact destRoom)
  rw [srcCount] at wellFormed
  exact ⟨map, usesRatios.trans built, length.trans destCount, wellFormed⟩

/--
A policy made from a parameter text, told a specified source, a destination and a positive
element count, and then prepared, builds a splitter map with one entry per destination node,
when the map's vectors fit in allocations: the elements of the whole source in one entry of
8-byte offsets, and one 24-byte entry for each destination node. Each entry reads whole source
nodes, at least one and in increasing order, and together the entries read every source
element.
-/
theorem splitterMap_wellFormed
    {kind : BuiltinPolicy}
    {text : String}
    {made : LinkPolicy}
    (created : kind.create text = .ok made)
    {src : Dimensions}
    (srcSpecified : src.isSpecified = true)
    (dest : Dimensions)
    {elementCount : Nat}
    (positive : 0 < elementCount)
    {prepared : LinkPolicy}
    (initialized :
      (((made.setSource src).1.setDestination dest).1.setElementCount elementCount).prepare =
        .ok prepared)
    (srcRoom : src.product * elementCount * 8 ≤ isizeMax)
    (destRoom : dest.product * 24 ≤ isizeMax) :
    ∃ map, prepared.splitterMap = .ok map ∧ map.length = dest.count ∧
      WellFormedMap map src.count elementCount := by
  rw [setDestination_setSource made srcSpecified dest] at initialized
  have laidOut : made.kind.CheckedLayout := BuiltinPolicy.create_checked created
  exact splitterMap_wellFormed_of_prepare initialized laidOut positive srcRoom destRoom

/-- A uniform policy with the default layout, between four source nodes and two destination
nodes of one element each, gathers two source nodes into each destination node. -/
theorem default_uniform_splitterMap_wellFormed :
    BuiltinPolicy.uniform.create "" = .ok { kind := .uniform {} } ∧
      (((({ kind := .uniform {} } : LinkPolicy).setSource ⟨[4]⟩).1.setDestination ⟨[2]⟩).1.setElementCount
          1).prepare =
        .ok { kind := .uniform {}, src := ⟨[4]⟩, dest := ⟨[2]⟩, ratios := [.fanIn 2], ready := true } ∧
      ∃ map,
        ({ kind := .uniform {}, src := ⟨[4]⟩, dest := ⟨[2]⟩, ratios := [.fanIn 2], ready := true } :
          LinkPolicy).splitterMap = .ok map ∧
          map.length = (⟨[2]⟩ : Dimensions).count ∧ WellFormedMap map (⟨[4]⟩ : Dimensions).count 1 := by
  have created : BuiltinPolicy.uniform.create "" = .ok { kind := .uniform {} } := by rfl
  have initialized :
      (((({ kind := .uniform {} } : LinkPolicy).setSource ⟨[4]⟩).1.setDestination ⟨[2]⟩).1.setElementCount
          1).prepare =
        .ok { kind := .uniform {}, src := ⟨[4]⟩, dest := ⟨[2]⟩, ratios := [.fanIn 2], ready := true } := by
    rfl
  exact ⟨created, initialized, splitterMap_wellFormed created (by decide) ⟨[2]⟩ (by decide) initialized
    (by decide) (by decide)⟩

/-- A uniform policy with the default layout accepts one source node per destination node along
an axis of `2^64 - 1` destination nodes, but its splitter map of that many entries does not fit
in an allocation and panics, though the source holds two elements. -/
theorem wide_destination_map_panics :
    let prepared : LinkPolicy :=
      { kind := .uniform {}
        src := ⟨[1, 2]⟩
        dest := ⟨[pow2 64 - 1, 2]⟩
        ratios := [.fanOut (pow2 64 - 1), .fanOut 1]
        ready := true }
    BuiltinPolicy.uniform.create "" = .ok { kind := .uniform {} } ∧
      (((({ kind := .uniform {} } : LinkPolicy).setSource ⟨[1, 2]⟩).1.setDestination
          ⟨[pow2 64 - 1, 2]⟩).1.setElementCount 1).prepare = .ok prepared ∧
      prepared.splitterMap = .error (.data (.panicked "capacity overflow")) :=
  ⟨rfl, by decide, by decide⟩

end LinkPolicy

end Link

end RegionNet
