import RegionNet.Proofs.ExplicitDimensions

set_option mvcgen.warning false

namespace RegionNet

open Std.Do

/-!
# The induction loop of propagation ends

Propagation works out unknown dimensions in rounds: each round is a pass over the links, and
another round follows whenever the pass changed something. The loop is driven by that flag, not
by a visible measure, and is given one round more than there are regions. This module shows that
the bound never binds (`induction_loop_ends`).

A pass writes dimensions only into a region whose dimensions at the link's end are not specified.
A region-level port shows one node, so such an end is the region's own unknown dimensions, and
the pass writes the specified dimensions the policy worked out. So a pass, whatever its outcome,
keeps every region's specified dimensions (`Collection.KeepsDimensions`), and a pass that reports
a change gives dimensions to a region that had none (`Collection.Induced`). The regions left
without dimensions (`Collection.unresolved`) fall with every such pass; once the rounds exceed
them, the loop has stopped on a pass that changed nothing, or on a failure, and more rounds do
exactly the same (`Op.induceAll_add`).

This needs regions stored under their own names (`Collection.Named`), so that storing a region
back replaces the entry it was read from; every reachable network stores them so.
-/

/-- A map that makes no element satisfy `p` that did not, and takes `p` from one that did,
leaves fewer elements satisfying `p`. -/
theorem countP_map_lt
    {α : Type}
    {p : α → Bool}
    {g : α → α}
    {l : List α}
    (never : ∀ a ∈ l, p (g a) = true → p a = true)
    {a : α}
    (member : a ∈ l)
    (resolves : p a = true ∧ p (g a) = false) :
    (l.map g).countP p < l.countP p := by
  induction l with
  | nil => cases member
  | cons b rest inductionHypothesis =>
      have restNever : ∀ x ∈ rest, p (g x) = true → p x = true :=
        fun x inRest => never x (List.mem_cons_of_mem b inRest)
      have restLe : (rest.map g).countP p ≤ rest.countP p := by
        rw [List.countP_map]
        exact List.countP_mono_left fun x inRest => restNever x inRest
      have headNever := never b List.mem_cons_self
      simp only [List.map_cons, List.countP_cons]
      rcases List.mem_cons.mp member with rfl | inRest
      · rw [if_neg (by simp [resolves.2]), if_pos resolves.1]
        omega
      · have fewer := inductionHypothesis restNever inRest
        cases pb : p b <;> cases pgb : p (g b) <;> simp_all

namespace Collection

variable {c c' c'' : Collection Region}

/-- Regions stored under their own names. -/
def Named (c : Collection Region) : Prop := ∀ e ∈ c.entries, e.2.name = e.1

/-- The number of regions whose dimensions are not specified. -/
def unresolved (c : Collection Region) : Nat := c.entries.countP fun e => !e.2.dims.isSpecified

/-- The same regions under the same names in the same places, each with specified dimensions
where the earlier one had them. -/
def KeepsDimensions (c' c : Collection Region) : Prop :=
  List.Forall₂
    (fun e' e => e'.1 = e.1 ∧ (e.2.dims.isSpecified = true → e'.2.dims.isSpecified = true))
    c'.entries c.entries

namespace KeepsDimensions

theorem refl (c : Collection Region) : c.KeepsDimensions c :=
  List.forall₂_same.mpr fun _ _ => ⟨rfl, id⟩

theorem trans (later : c''.KeepsDimensions c') (earlier : c'.KeepsDimensions c) :
    c''.KeepsDimensions c := by
  obtain ⟨l''⟩ := c''
  obtain ⟨l'⟩ := c'
  obtain ⟨l⟩ := c
  unfold KeepsDimensions at *
  dsimp only at *
  induction earlier generalizing l'' with
  | nil => exact later
  | cons kept _ inductionHypothesis =>
      cases later with
      | cons kept' rest' =>
          exact .cons ⟨kept'.1.trans kept.1, kept'.2 ∘ kept.2⟩ (inductionHypothesis _ rest')

/-- No region loses its dimensions, so no more regions are left without them. -/
theorem unresolved_le (keeps : c'.KeepsDimensions c) : c'.unresolved ≤ c.unresolved := by
  obtain ⟨l'⟩ := c'
  obtain ⟨l⟩ := c
  unfold KeepsDimensions at keeps
  unfold unresolved
  dsimp only at *
  induction keeps with
  | nil => rfl
  | @cons e' e rest' rest kept _ inductionHypothesis =>
      have keepsHead := kept.2
      simp only [List.countP_cons]
      cases known : e.2.dims.isSpecified <;> cases known' : e'.2.dims.isSpecified <;> simp_all
      omega

end KeepsDimensions

theorem named_store (named : c.Named) (r : Region) : (c.store r.name r).Named := by
  intro e stored
  rcases mem_store stored with ⟨key, rfl, -⟩ | ⟨-, before⟩
  · exact key.symm
  · exact named e before

/-- Storing a region with specified dimensions keeps every region's dimensions. -/
theorem keepsDimensions_store
    {key : String}
    {r : Region}
    (known : r.dims.isSpecified = true) :
    (c.store key r).KeepsDimensions c := by
  unfold KeepsDimensions store
  rw [List.forall₂_map_left_iff, List.forall₂_same]
  rintro ⟨k, x⟩ -
  by_cases replaced : k = key <;> simp [replaced, known]

/-- Storing a region with specified dimensions under a name found without them leaves fewer
regions without dimensions. -/
theorem unresolved_store_lt
    {key : String}
    {x r : Region}
    (found : c.find? key = some x)
    (unknown : x.dims.isSpecified = false)
    (known : r.dims.isSpecified = true) :
    (c.store key r).unresolved < c.unresolved := by
  obtain ⟨e, first, rfl⟩ := Option.map_eq_some_iff.mp found
  have atKey : e.1 = key := by simpa using List.find?_some first
  unfold unresolved store
  refine countP_map_lt ?_ (List.mem_of_find?_eq_some first) ?_
  · -- an entry is only ever replaced by the region with dimensions
    rintro ⟨k, y⟩ - stillUnknown
    by_cases replaced : k = key <;> simp_all
  · obtain ⟨k, y⟩ := e
    simp_all

/--
What a pass of induction, or part of one, does to the regions `c` it started from: they stay
stored under their own names, every region keeps the dimensions it had, and a reported change
leaves fewer regions without dimensions.
-/
structure Induced (c' c : Collection Region) (changed : Bool) : Prop where
  named : c'.Named
  keeps : c'.KeepsDimensions c
  fewer : changed = true → c'.unresolved < c.unresolved

theorem Induced.start (named : c.Named) : c.Induced c false :=
  ⟨named, .refl c, nofun⟩

theorem Induced.trans
    {changed changed' : Bool}
    (later : c''.Induced c' changed')
    (earlier : c'.Induced c changed) :
    c''.Induced c (changed || changed') where
  named := later.named
  keeps := later.keeps.trans earlier.keeps
  fewer := by
    intro reported
    have stays := later.keeps.unresolved_le
    have kept := earlier.keeps.unresolved_le
    -- the change was reported by one of the two parts
    rcases Bool.or_eq_true _ _ |>.mp reported with first | second
    · exact Nat.lt_of_le_of_lt stays (earlier.fewer first)
    · exact Nat.lt_of_lt_of_le (later.fewer second) kept

/-- Storing, under its name, a region given specified dimensions that was found without them. -/
theorem induced_store
    (named : c.Named)
    {k : String}
    {target r : Region}
    {dims : Dimensions}
    {source : DimensionSource}
    (found : c.find? k = some target)
    (unknown : target.dims.isSpecified = false)
    (set : target.setDimensions dims source = .ok r)
    (known : dims.isSpecified = true) :
    (c.store r.name r).Induced c true := by
  obtain ⟨sameName, sameDims, -⟩ := Region.setDimensions_eq_ok set
  -- the region keeps the name it was found under, so it replaces the entry it came from
  have stored : r.name = k := sameName.trans (named _ (mem_of_find? found))
  refine ⟨named_store named r, keepsDimensions_store (sameDims ▸ known), fun _ => ?_⟩
  rw [stored]
  exact unresolved_store_lt found unknown (sameDims ▸ known)

end Collection

namespace Network

variable {n : Network} {k : String} {target r : Region} {dims : Dimensions}
  {source : DimensionSource}

/-- Induction into a link's destination, whose end showed unknown dimensions, gives dimensions to
a region that had none. -/
theorem induced_destination
    (named : n.regions.Named)
    {input : String}
    {dest : Region}
    {sd dd : Dimensions}
    (found : n.region k = .ok dest)
    (shown : destinationDimensions dest input = .ok dd)
    (differ : ¬(sd.isSpecified == dd.isSpecified) = true)
    (sdKnown : sd.isSpecified = true)
    (again : n.region k = .ok target)
    (set : target.setDimensions dims source = .ok r)
    (known : ¬(!dims.isSpecified) = true) :
    (n.replaceRegion r).regions.Induced n.regions true := by
  have unknown : dd.isSpecified = false := by simpa [sdKnown] using differ
  obtain rfl : target = dest := Except.ok.inj (again.symm.trans found)
  obtain ⟨_, -, port⟩ := destinationDimensions_eq_ok shown
  exact Collection.induced_store named (region_eq_ok_iff.mp found) (unknown_of_shown port unknown)
    set (by simpa using known)

/-- Induction into a link's source, whose end showed unknown dimensions, gives dimensions to a
region that had none. -/
theorem induced_source
    (named : n.regions.Named)
    {output : String}
    {src : Region}
    {sd : Dimensions}
    (found : n.region k = .ok src)
    (shown : sourceDimensions src output = .ok sd)
    (unknown : ¬sd.isSpecified = true)
    (again : n.region k = .ok target)
    (set : target.setDimensions dims source = .ok r)
    (known : ¬(!dims.isSpecified) = true) :
    (n.replaceRegion r).regions.Induced n.regions true := by
  obtain rfl : target = src := Except.ok.inj (again.symm.trans found)
  obtain ⟨_, -, port⟩ := sourceDimensions_eq_ok shown
  exact Collection.induced_store named (region_eq_ok_iff.mp found)
    (unknown_of_shown port (by simpa using unknown)) set (by simpa using known)

end Network

namespace Op

variable {c : Collection Region}

/-- One link's induction either leaves the regions as they were or gives dimensions to a region
that had none, and reports which. -/
theorem induceThrough_induced (id : Nat) :
    ⦃fun s => ⌜s.network.regions.Named ∧ s.network.regions = c⌝⦄ induceThrough id
    ⦃post⟨fun changed s => ⌜s.network.regions.Induced c changed⌝,
      fun _ s => ⌜s.network.regions.Induced c false⌝⟩⦄ := by
  mvcgen [induceThrough, -induceThrough_keeps, -stepLink_keeps, stepLink, link, region, lift,
    putRegion_spec]
  -- the two paths that write a region: into the destination, and into the source
  case vc3 s pre _ _ _ _ dest found sd _ dd shown differ _ sdKnown _ _ _ known _ again _ set =>
    obtain ⟨named, rfl⟩ := pre
    exact Network.induced_destination named found shown differ sdKnown again set known
  case vc8 s pre _ _ src found _ _ sd shown _ _ _ _ unknown _ _ _ known _ again _ set =>
    obtain ⟨named, rfl⟩ := pre
    exact Network.induced_source named found shown unknown again set known
  -- every other path leaves the regions as they were
  all_goals
    obtain ⟨named, rfl⟩ := ‹_ ∧ _›
    exact Collection.Induced.start named

/-- One pass of induction over the links, in the order of their numbers; whether any link
induced dimensions. -/
def inducePass : Op Bool := do
  let ids := (← network).links.map (·.id)
  ids.foldlM (fun acc id => do
    let c ← induceThrough id
    pure (acc || c)) false

/-- A round of the induction loop is a pass, and more rounds when the pass changed something. -/
theorem induceAll_succ (fuel : Nat) :
    induceAll (fuel + 1) = (do if ← inducePass then induceAll fuel) := rfl

theorem inducePass_induced :
    ⦃fun s => ⌜s.network.regions.Named ∧ s.network.regions = c⌝⦄ inducePass
    ⦃post⟨fun changed s => ⌜s.network.regions.Induced c changed⌝,
      fun _ s => ⌜s.network.regions.Induced c false⌝⟩⦄ := by
  mvcgen [inducePass, -induceThrough_keeps] invariants
  · post⟨fun cursor s => ⌜s.network.regions.Induced c cursor.2⌝,
      fun _ s => ⌜s.network.regions.Induced c false⌝⟩
  case vc1.step s _ _ _ cur _ _ acc s' before =>
    -- each link's induction continues what the links before it did
    refine wp_of_triple (induceThrough_induced cur) ?_ ?_ ⟨before.named, rfl⟩
    · intro changed s'' after
      simpa using after.trans before
    · intro _ s'' after
      exact ⟨after.named, after.keeps.trans before.keeps, nofun⟩
  case vc2.pre s pre _ =>
    obtain ⟨named, rfl⟩ := pre
    exact Collection.Induced.start named
  case vc3.post.success =>
    exact id

/-- A pass from regions stored under their own names, whatever its outcome, keeps them so stored
and keeps every dimensions they had; a pass that reports a change leaves fewer without. -/
theorem inducePass_run
    {s : Session}
    (named : s.network.regions.Named) :
    match EStateM.run inducePass s with
    | .ok changed s' => s'.network.regions.Induced s.network.regions changed
    | .error _ s' => s'.network.regions.Induced s.network.regions false := by
  have outcome := run_of_triple inducePass_induced
    (show s.network.regions.Named ∧ s.network.regions = s.network.regions from ⟨named, rfl⟩)
  split
  all_goals
    rename_i ran
    rw [ran] at outcome
    exact outcome

/-- Given more rounds than regions left without dimensions, the loop ends, on a pass that
changes nothing or on a failure, before its rounds run out: further rounds change nothing. -/
theorem induceAll_add
    {s : Session}
    (named : s.network.regions.Named)
    {fuel : Nat}
    (enough : s.network.regions.unresolved < fuel)
    (extra : Nat) :
    EStateM.run (induceAll (fuel + extra)) s = EStateM.run (induceAll fuel) s := by
  -- induction on the rounds: a pass that changes something leaves fewer regions unresolved
  induction fuel generalizing s with
  | zero =>
      omega
  | succ fuel inductionHypothesis =>
      have passed := inducePass_run named
      rw [Nat.add_right_comm, induceAll_succ, induceAll_succ]
      unfold EStateM.run at passed ⊢
      simp only [bind, EStateM.bind]
      split at passed
      · rename_i changed s' ran
        rw [ran]
        cases changed with
        | false =>
            rfl
        | true =>
            have fewer := passed.fewer rfl
            exact inductionHypothesis passed.named (by omega)
      · rename_i e s' ran
        rw [ran]

end Op

/--
The induction loop of propagation ends on every state whose regions are stored under their own
names. A pass, whatever its outcome, keeps every region's specified dimensions, and a pass that
reports a change gives dimensions to a region that had none; so at most one pass per region
changes anything, and the loop's rounds, one more than the regions, never run out: with any more
rounds it does exactly the same.
-/
theorem induction_loop_ends
    {s : Session}
    (named : s.network.regions.Named) :
    (match EStateM.run Op.inducePass s with
      | .ok changed s' => s'.network.regions.Induced s.network.regions changed
      | .error _ s' => s'.network.regions.Induced s.network.regions false) ∧
      ∀ fuel, s.network.regions.count + 1 ≤ fuel →
        EStateM.run (Op.induceAll fuel) s =
          EStateM.run (Op.induceAll (s.network.regions.count + 1)) s := by
  refine ⟨Op.inducePass_run named, fun fuel enough => ?_⟩
  have bounded : s.network.regions.unresolved < s.network.regions.count + 1 :=
    Nat.lt_succ_of_le List.countP_le_length
  obtain ⟨extra, rfl⟩ := Nat.exists_eq_add_of_le enough
  exact Op.induceAll_add named bounded extra

/-- Two regions, the first given four nodes, joined by a uniform link as a caller makes them:
the pass gives the second its dimensions, and the loop's rounds do not run out. -/
theorem given_pair_induction_ends :
    let s₀ : Session := { host := Host.new {}, files := {}, network := { id := 0 } }
    let s := (Command.connect "A" "" "B" "" "UniformLink" "").op.leaves
      ((Command.setRegionDimensions "A" ⟨[4]⟩).op.leaves
        ((Command.addRegion "B" "TestNode" "").op.leaves
          ((Command.addRegion "A" "TestNode" "").op.leaves s₀)))
    s.network.regions.Named ∧
      (match EStateM.run Op.inducePass s with
        | .ok changed s' => s'.network.regions.Induced s.network.regions changed
        | .error _ s' => s'.network.regions.Induced s.network.regions false) ∧
      ∀ fuel, s.network.regions.count + 1 ≤ fuel →
        EStateM.run (Op.induceAll fuel) s =
          EStateM.run (Op.induceAll (s.network.regions.count + 1)) s := by
  intro s₀ s
  have reachable : Reachable s := .command _ (.command _ (.command _ (.command _ (.fresh rfl))))
  have named : s.network.regions.Named := reachable.wired.named
  exact ⟨named, induction_loop_ends named⟩

end RegionNet
