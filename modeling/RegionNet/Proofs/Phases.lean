import RegionNet.Proofs.Edits

set_option mvcgen.warning false

namespace RegionNet

open Std.Do

/-!
# Phase numbers

A region runs in a set of phases, 32-bit numbers kept sorted without repeats. A new phase set is
accepted when its highest phase lies at most the configured jump past the next phase: one past the
highest phase any region runs in, or `0` when no region runs in any. The next phase is computed in
a 32-bit word whose increment panics on overflow, so once a region runs in the top phase
`2^32 - 1`, setting phases panics.

This module states that rule for every session (`setPhases_accepted_iff_within_jump_or_panics`)
and shows the panic at the top phase.
-/

section PhaseSet

/-- Erasing duplicates keeps every relation the entries had in order. -/
theorem pairwise_eraseDups
    {R : Nat → Nat → Prop} :
    {xs : List Nat} → xs.Pairwise R → xs.eraseDups.Pairwise R
  | [], _ => by simp
  | x :: rest, ordered => by
      rw [List.pairwise_cons] at ordered
      rw [List.eraseDups_cons, List.pairwise_cons]
      -- what is kept of the tail is a filtered part of it
      exact ⟨fun y kept => ordered.1 y (List.mem_filter.mp (List.mem_eraseDups.mp kept)).1,
        pairwise_eraseDups (ordered.2.sublist List.filter_sublist)⟩
termination_by xs => xs.length
decreasing_by
  have filtered := List.length_filter_le (fun y => !y == x) rest
  simp only [List.length_cons]
  omega

/-- The last entry of an ascending list is its largest. -/
theorem getLast?_eq_max?_of_ascending
    {xs : List Nat}
    (ascending : xs.Pairwise (· ≤ ·)) :
    xs.getLast? = xs.max? := by
  cases lastIs : xs.getLast? with
  | none =>
      simp_all
  | some last =>
      obtain ⟨front, rfl⟩ := List.getLast?_eq_some_iff.mp lastIs
      rw [List.pairwise_append] at ascending
      refine (List.max?_eq_some_iff.mpr ⟨by simp, fun b member => ?_⟩).symm
      rcases List.mem_append.mp member with inFront | isLast
      · exact ascending.2.2 b inFront last (by simp)
      · simp_all

/-- Lists with the same entries have the same largest entry. -/
theorem max?_congr
    {xs ys : List Nat}
    (same : ∀ x, x ∈ xs ↔ x ∈ ys) :
    xs.max? = ys.max? := by
  cases largest : ys.max? with
  | none =>
      simp only [List.max?_eq_none_iff] at largest ⊢
      subst largest
      exact List.eq_nil_iff_forall_not_mem.mpr fun x member => by simpa using (same x).mp member
  | some top =>
      obtain ⟨member, bound⟩ := List.max?_eq_some_iff.mp largest
      exact List.max?_eq_some_iff.mpr
        ⟨(same top).mpr member, fun b inXs => bound b ((same b).mp inXs)⟩

/-- Erasing duplicates leaves entries that are apart. -/
theorem eraseDups_pairwise_ne : (xs : List Nat) → xs.eraseDups.Pairwise (· ≠ ·)
  | [] => by simp
  | x :: rest => by
      rw [List.eraseDups_cons, List.pairwise_cons]
      refine ⟨fun y kept => ?_, eraseDups_pairwise_ne _⟩
      -- what is kept of the tail differs from the head
      have differs := (List.mem_filter.mp (List.mem_eraseDups.mp kept)).2
      simp only [Bool.not_eq_eq_eq_not, Bool.not_true, beq_eq_false_iff_ne] at differs
      exact Ne.symm differs
termination_by xs => xs.length
decreasing_by
  have filtered := List.length_filter_le (fun y => !y == x) rest
  simp only [List.length_cons]
  omega

/-- A list whose entries are apart has no duplicates to erase. -/
theorem eraseDups_of_pairwise_ne : {xs : List Nat} → xs.Pairwise (· ≠ ·) → xs.eraseDups = xs
  | [], _ => rfl
  | x :: rest, apart => by
      rw [List.pairwise_cons] at apart
      have kept : rest.filter (fun y => !y == x) = rest :=
        List.filter_eq_self.mpr fun y member => by simpa using (apart.1 y member).symm
      rw [List.eraseDups_cons, kept, eraseDups_of_pairwise_ne apart.2]

/-- A phase set holds the phases it was made from. -/
@[simp] theorem mem_phaseSet {p : Nat} {phases : List Nat} : p ∈ phaseSet phases ↔ p ∈ phases := by
  simp [phaseSet, List.mem_eraseDups, List.mem_mergeSort]

/-- A phase set is ascending. -/
theorem phaseSet_ascending (phases : List Nat) : (phaseSet phases).Pairwise (· ≤ ·) := by
  refine pairwise_eraseDups ?_
  have sorted := @List.pairwise_mergeSort _ (fun a b => decide (a ≤ b))
    (fun a b c ab bc => by simp only [decide_eq_true_eq] at *; omega)
    (fun a b => by simp only [Bool.or_eq_true, decide_eq_true_eq]; omega) phases
  simpa using sorted

/-- Making a phase set of a phase set changes nothing: it is sorted already and has no
repeats. -/
theorem phaseSet_phaseSet (phases : List Nat) : phaseSet (phaseSet phases) = phaseSet phases := by
  have sorted : (phaseSet phases).Pairwise fun a b => decide (a ≤ b) = true := by
    simpa using phaseSet_ascending phases
  have apart : (phaseSet phases).Pairwise (· ≠ ·) := eraseDups_pairwise_ne _
  calc phaseSet (phaseSet phases)
      _ = (phaseSet phases).eraseDups := by rw [phaseSet, List.mergeSort_of_pairwise sorted]
      _ = phaseSet phases := eraseDups_of_pairwise_ne apart

/-- The highest phase of a phase set is the largest phase it was made from. -/
theorem phaseSet_getLast?
    (phases : List Nat) :
    (phaseSet phases).getLast? = phases.max? := by
  rw [getLast?_eq_max?_of_ascending (phaseSet_ascending phases)]
  exact max?_congr fun x => mem_phaseSet

end PhaseSet

/-- The configured jump: how far past the next phase a new highest phase may lie. -/
def Session.phaseJump (s : Session) : Nat := s.host.config.network.maxPhaseJump.toNat

namespace Network

/-- The next unused phase, counted without bound: one past the highest phase a region runs in,
or `0` when no region runs in any. -/
def nextPhase (n : Network) : Nat :=
  match n.maxPhase with
  | some p => p + 1
  | none => 0

/-- With no region in any phase, the next phase is `0`. -/
theorem nextPhase_of_none
    {n : Network}
    (noPhase : n.maxPhase = none) :
    n.nextPhase = 0 := by
  simp [nextPhase, noPhase]

/-- The word after the highest phase is the next phase, or a panic where the next phase is past
the word. -/
theorem phaseAfter_eq
    {n : Network}
    {p : Nat}
    (highest : n.maxPhase = some p) :
    liftData (Op.phaseAfter p) =
      if n.nextPhase < pow2 32 then .ok n.nextPhase
      else .error (.data (.panicked "attempt to add with overflow")) := by
  simp only [nextPhase, highest, Op.phaseAfter, addOrPanic]
  split <;> rfl

end Network

namespace Op

/-- What setting phases does, from a session `s₀`: with the next phase in the word, the region
present and the highest phase within the jump past the next phase, the region runs in the new
phase set; with the next phase past the word it panics; otherwise it refuses. A session that
fails is left as it was. -/
theorem setPhases_spec
    (name : String)
    (phases : List UInt32)
    {highest : Nat}
    (top : (phaseSet (phases.map UInt32.toNat)).getLast? = some highest)
    (s₀ : Session) :
    ⦃fun s => ⌜s = s₀⌝⦄ setPhases name phases
    ⦃post⟨fun _ s => ⌜s₀.network.nextPhase < pow2 32 ∧
        highest ≤ s₀.network.nextPhase + s₀.phaseJump ∧
        ∃ r, s₀.network.region name = .ok r ∧
          s = { s₀ with
            network := s₀.network.replaceRegion
              { r with phases := phaseSet (phases.map UInt32.toNat) } }⌝,
      fun e s => ⌜s = s₀ ∧
        ((¬s₀.network.nextPhase < pow2 32 ∧ e = .data (.panicked "attempt to add with overflow")) ∨
          (s₀.network.nextPhase < pow2 32 ∧ (s₀.network.nextPhase + s₀.phaseJump < highest ∨
            s₀.network.region name = .error e)))⌝⟩⦄ := by
  -- the next phase is `0` or the word after the highest phase: split on which, and on the word
  cases maxIs : s₀.network.maxPhase with
  | none =>
      have next := Network.nextPhase_of_none maxIs
      mvcgen [setPhases, -setPhases_keeps, region, lift, putRegion_spec]
      all_goals
        subst s₀
        simp +zetaDelta only [top, maxIs, next, Option.some.injEq, Bool.and_eq_true,
          decide_eq_true_eq, Session.phaseJump, reduceCtorEq, pow2_pos, not_true_eq_false,
          false_and, false_or, true_and, Nat.zero_add, Nat.sub_zero] at *
      all_goals subst_vars
      case vc5.none.h_1.h_2.isTrue =>
        exact .inl (by omega)
      case vc6.none.h_1.h_2.isFalse.h_1 =>
        exact ⟨by omega, _, ‹_›, rfl⟩
      case vc7.none.h_1.h_2.isFalse.h_2 =>
        exact .inr ‹_›
      case vc8.none.h_2 =>
        -- a phase set made from a list with a largest entry is not empty
        exact (‹∀ h, some highest = some h → False› highest rfl).elim
  | some p =>
      have after := Network.phaseAfter_eq maxIs
      by_cases fits : s₀.network.nextPhase < pow2 32
      · mvcgen [setPhases, -setPhases_keeps, region, lift, putRegion_spec]
        all_goals
          subst s₀
          simp +zetaDelta only [top, maxIs, Option.some.injEq, Bool.and_eq_true,
            decide_eq_true_eq, Session.phaseJump, reduceCtorEq] at *
        all_goals subst_vars
        all_goals simp only [after, fits, ↓reduceIte, Except.ok.injEq, reduceCtorEq,
          not_true_eq_false, false_and, false_or, true_and] at *
        all_goals subst_vars
        case vc1.pos.h_1.h_1.h_1.isTrue =>
          exact .inl (by omega)
        case vc2.pos.h_1.h_1.h_1.isFalse.h_1 =>
          exact ⟨by omega, _, ‹_›, rfl⟩
        case vc3.pos.h_1.h_1.h_1.isFalse.h_2 =>
          exact .inr ‹_›
        case vc8.pos.h_2 =>
          exact (‹∀ h, some highest = some h → False› highest rfl).elim
      · mvcgen [setPhases, -setPhases_keeps, region, lift, putRegion_spec]
        all_goals
          subst s₀
          simp +zetaDelta only [top, maxIs, Option.some.injEq, Bool.and_eq_true,
            decide_eq_true_eq, Session.phaseJump, reduceCtorEq] at *
        all_goals subst_vars
        all_goals simp only [after, fits, ↓reduceIte, Except.error.injEq, reduceCtorEq,
          not_false_eq_true, true_and, false_and, or_false] at *
        all_goals subst_vars
        case vc4.neg.h_1.h_1.h_2 =>
          rfl
        case vc8.neg.h_2 =>
          exact (‹∀ h, some highest = some h → False› highest rfl).elim

/-- Where the next phase is past the word, setting phases panics and leaves the session as it
was. -/
theorem run_setPhases_of_past_word
    {s : Session}
    (past : pow2 32 ≤ s.network.nextPhase)
    (name : String)
    {phases : List UInt32}
    {highest : Nat}
    (top : (phases.map UInt32.toNat).max? = some highest) :
    EStateM.run (setPhases name phases) s =
      .error (.data (.panicked "attempt to add with overflow")) s := by
  have outcome := run_of_triple (setPhases_spec name phases (by rw [phaseSet_getLast?, top]) s) rfl
  cases ran : EStateM.run (setPhases name phases) s with
  | ok _ s' =>
      rw [ran] at outcome
      omega
  | error e s' =>
      rw [ran] at outcome
      obtain ⟨rfl, panicked | ⟨fits, -⟩⟩ := outcome
      · rw [panicked.2]
      · omega

end Op

/-- Setting the phases of a region a session has, from a list whose largest entry is `highest`:
with the next phase in the 32-bit word, it succeeds exactly when `highest` lies at most the
configured jump past the next phase, over the integers; with the next phase past the word, which
a region running in the top phase `2^32 - 1` puts it, it panics on the increment. -/
theorem setPhases_accepted_iff_within_jump_or_panics
    {s : Session}
    {name : String}
    {r : Region}
    (found : s.network.region name = .ok r)
    {phases : List UInt32}
    {highest : Nat}
    (top : (phases.map UInt32.toNat).max? = some highest) :
    (s.network.nextPhase < pow2 32 →
      ((∃ s', EStateM.run (Op.setPhases name phases) s = .ok () s') ↔
        highest ≤ s.network.nextPhase + s.phaseJump)) ∧
    (pow2 32 ≤ s.network.nextPhase →
      EStateM.run (Op.setPhases name phases) s =
        .error (.data (.panicked "attempt to add with overflow")) s) := by
  refine ⟨fun fits => ⟨fun ⟨s', accepted⟩ => ?_, fun within => ?_⟩,
    fun past => Op.run_setPhases_of_past_word past name top⟩
  all_goals
    have outcome := Op.run_of_triple
      (Op.setPhases_spec name phases (by rw [phaseSet_getLast?, top]) s) rfl
  · rw [accepted] at outcome
    exact outcome.2.1
  · cases ran : EStateM.run (Op.setPhases name phases) s with
    | ok _ s' =>
        exact ⟨s', rfl⟩
    | error e s' =>
        -- a refusal needs the highest phase past the bound or the region missing
        rw [ran] at outcome
        rcases outcome.2 with ⟨past, -⟩ | ⟨-, above | absent⟩
        · omega
        · omega
        · rw [found] at absent
          cases absent

/-- A region running in the top phase, in a network of its own whose jump is `2^32 - 2`: the next
phase is past the word, and setting the top phase again panics. -/
theorem top_phase_setting_outcome :
    let r : Region :=
      { name := "A", typeName := "ProbeRegion", spec := {}, impl := .probe .plain 0,
        inputs := .empty, outputs := .empty, dims := .unspecified, source := .unset,
        phases := [pow2 32 - 1] }
    let s : Session :=
      { host := Host.new { network := { maxPhaseJump := 4294967294 } }, files := {},
        network := { id := 0, regions := ⟨[("A", r)]⟩ } }
    s.network.region "A" = .ok r ∧ ([4294967295].map UInt32.toNat).max? = some (pow2 32 - 1) ∧
      (s.network.nextPhase < pow2 32 →
        ((∃ s', EStateM.run (Op.setPhases "A" [4294967295]) s = .ok () s') ↔
          pow2 32 - 1 ≤ s.network.nextPhase + s.phaseJump)) ∧
      (pow2 32 ≤ s.network.nextPhase →
        EStateM.run (Op.setPhases "A" [4294967295]) s =
          .error (.data (.panicked "attempt to add with overflow")) s) := by
  intro r s
  have found : s.network.region "A" = .ok r := rfl
  have top : ([4294967295].map UInt32.toNat).max? = some (pow2 32 - 1) := rfl
  exact ⟨found, top, setPhases_accepted_iff_within_jump_or_panics found top⟩

/-- The next phase overflows at the top phase: a region already running in phase `2^32 - 1` is
set that phase again under a jump of `2^32 - 2`, within that jump of the next phase `2^32` over
the integers, and the increment of the next phase panics. -/
theorem top_phase_panics :
    let r : Region :=
      { name := "A", typeName := "ProbeRegion", spec := {}, impl := .probe .plain 0,
        inputs := .empty, outputs := .empty, dims := .unspecified, source := .unset,
        phases := [pow2 32 - 1] }
    let s : Session :=
      { host := Host.new { network := { maxPhaseJump := 4294967294 } }, files := {},
        network := { id := 0, regions := ⟨[("A", r)]⟩ } }
    pow2 32 - 1 ≤ s.network.nextPhase + s.phaseJump ∧
      EStateM.run (Op.setPhases "A" [4294967295]) s =
        .error (.data (.panicked "attempt to add with overflow")) s := by
  intro r s
  have past : pow2 32 ≤ s.network.nextPhase := by decide
  exact ⟨by decide, Op.run_setPhases_of_past_word past "A" rfl⟩

end RegionNet
