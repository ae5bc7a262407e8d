import RegionNet.Proofs.Session
import RegionNet.Proofs.Policy

set_option mvcgen.warning false

namespace RegionNet

open Std.Do

/-!
# Routing one link

Routing a link looks up its two regions, the elements on each node of its source output and the
dimensions it sees at its two ports (`Network.linkEnds`); then the link takes a fresh policy, is
told the element count, the source and the destination, in that order, and is prepared.

Told the source first, a fresh policy also works out a destination of its own, and that can fail
even when the two ends fit. So a link routes exactly when its ends are found, its policy works a
destination out from the source (`PolicyKind.InducesFrom`), accepts the pair
(`PolicyKind.Accepts`) and builds its splitter map between them (`PolicyKind.Builds`):
`Network.Routable`. The step rule `routeLink_spec` says that a routed link replaces the old one,
ready and with one splitter map entry per destination-side node, and that routing fails only when
the link is not routable.
-/

namespace Link

/-- A link prepares exactly when its policy does and the prepared policy builds its map. -/
theorem prepare_snd_eq_ok_iff (l : Link) :
    l.prepare.2 = .ok () ↔ ∃ q, l.policy.prepare = .ok q ∧ ∃ m, q.splitterMap = .ok m := by
  unfold prepare
  cases prepared : l.policy.prepare with
  | error e => simp
  | ok q => cases built : q.splitterMap <;> simp [built]

/--
A link whose policy prepares and builds its map keeps its number, policy text and ends, and takes
the prepared policy with the map, of one entry per destination node.
-/
theorem prepare_of_ok
    {l : Link}
    {q : LinkPolicy}
    (prepared : l.policy.prepare = .ok q)
    {m : List (List Nat)}
    (built : q.splitterMap = .ok m) :
    l.prepare = ({ l with policy := q, routes := m }, .ok ()) ∧
      m.length = l.policy.dest.count :=
  ⟨by simp [prepare, prepared, built], LinkPolicy.splitterMap_length_of_prepare prepared built⟩

end Link

/-- A region reports at least one element on each node of an output. -/
theorem Region.elementCount_pos
    {r : Region}
    {output : String}
    {count : Nat}
    (counted : r.elementCount output = .ok count) :
    0 < count := by
  unfold Region.elementCount at counted
  split at counted
  · rename_i declared _
    by_cases positive : declared.count > 0
    · simp only [positive, ↓reduceIte, pure, Except.pure, Except.ok.injEq] at counted
      omega
    · cases reported : r.impl.elementCount output with
      | error e =>
          simp [positive, reported, bind, Except.bind] at counted
      | ok k =>
          by_cases empty : k = 0
          · simp only [positive, ↓reduceIte, reported, empty, bind, Except.bind] at counted
            cases counted
          · simp only [positive, ↓reduceIte, reported, empty, bind, Except.bind, pure,
              Except.pure, Except.ok.injEq] at counted
            omega
  · cases counted

/-- Dimensions a port shows: one node for a region-level port, else its region's. -/
theorem portDimensions_isSpecified
    {r : Region}
    (specified : r.dims.isSpecified = true)
    (regionLevel : Bool) :
    (if regionLevel then Dimensions.ones 1 else r.dims).isSpecified = true := by
  cases regionLevel
  · exact specified
  · rw [if_pos rfl]
    decide

namespace Network

/--
The ends a link is routed between: the elements on each node of its source output, and the
dimensions it sees at its source and destination ports.
-/
def linkEnds (n : Network) (l : Link) : Except EngineError (Nat × Dimensions × Dimensions) := do
  let src ← n.region l.endpoints.srcRegion
  let dest ← n.region l.endpoints.destRegion
  let count ← src.elementCount l.endpoints.srcOutput
  let sd ← sourceDimensions src l.endpoints.srcOutput
  let dd ← destinationDimensions dest l.endpoints.destInput
  pure (count, sd, dd)

/--
A link routes: its ends are found, its policy kind works a destination out from the source it
sees, accepts the dimensions at the two ports and builds its splitter map between them. A found
element count is at least one.
-/
def Routable (n : Network) (l : Link) : Prop :=
  ∃ count sd dd, n.linkEnds l = .ok (count, sd, dd) ∧ l.fresh.kind.InducesFrom sd ∧
    l.fresh.kind.Accepts sd dd ∧ l.fresh.kind.Builds count sd dd

/--
`routed` is `l` after routing: same number, policy text and ends, a prepared policy, and one
splitter map entry per node at the destination port.
-/
def Routed (n : Network) (l routed : Link) : Prop :=
  routed.id = l.id ∧ routed.fresh = l.fresh ∧ routed.endpoints = l.endpoints ∧
    routed.policy.ready = true ∧
    ∃ count sd dd, n.linkEnds l = .ok (count, sd, dd) ∧ routed.routes.length = dd.count

/-- The ends are found exactly when each lookup succeeds. -/
theorem linkEnds_eq_ok_iff
    {n : Network}
    {l : Link}
    {count : Nat}
    {sd dd : Dimensions} :
    n.linkEnds l = .ok (count, sd, dd) ↔
      ∃ src dest, n.region l.endpoints.srcRegion = .ok src ∧
        n.region l.endpoints.destRegion = .ok dest ∧
        src.elementCount l.endpoints.srcOutput = .ok count ∧
        sourceDimensions src l.endpoints.srcOutput = .ok sd ∧
        destinationDimensions dest l.endpoints.destInput = .ok dd := by
  unfold linkEnds
  cases srcFound : n.region l.endpoints.srcRegion <;>
    cases destFound : n.region l.endpoints.destRegion <;>
    simp only [bind, Except.bind, reduceCtorEq, false_and, exists_false, exists_and_left,
      exists_eq_left', Except.ok.injEq, and_false]
  rename_i src dest
  cases counted : src.elementCount l.endpoints.srcOutput <;>
    cases seen : sourceDimensions src l.endpoints.srcOutput <;>
    cases shown : destinationDimensions dest l.endpoints.destInput <;>
    simp [pure, Except.pure]

/-- A region found by name is one of the regions. -/
theorem mem_items_of_region
    {n : Network}
    {name : String}
    {r : Region}
    (found : n.region name = .ok r) :
    r ∈ n.regions.items := by
  unfold region at found
  split at found
  · rename_i located
    cases found
    simp only [Collection.find?, Option.map_eq_some_iff] at located
    obtain ⟨entry, first, rfl⟩ := located
    exact List.mem_map_of_mem (List.mem_of_find?_eq_some first)
  · cases found

/-- When every region has dimensions, so do both ports of a link whose ends are found. -/
theorem linkEnds_specified
    {n : Network}
    {l : Link}
    {count : Nat}
    {sd dd : Dimensions}
    (resolved : ∀ r ∈ n.regions.items, r.dims.isSpecified = true)
    (ends : n.linkEnds l = .ok (count, sd, dd)) :
    0 < count ∧ sd.isSpecified = true ∧ dd.isSpecified = true := by
  obtain ⟨src, dest, srcFound, destFound, counted, seen, shown⟩ := linkEnds_eq_ok_iff.mp ends
  refine ⟨Region.elementCount_pos counted, ?_, ?_⟩
  · simp only [sourceDimensions, bind, Except.bind] at seen
    split at seen
    · cases seen
    · cases seen
      exact portDimensions_isSpecified (resolved src (mem_items_of_region srcFound)) _
  · simp only [destinationDimensions, bind, Except.bind] at shown
    split at shown
    · cases shown
    · cases shown
      exact portDimensions_isSpecified (resolved dest (mem_items_of_region destFound)) _

/-- Whether a link routes reads only the regions. -/
theorem routable_of_regions
    {m n : Network}
    (sameRegions : m.regions = n.regions)
    {l : Link} :
    m.Routable l ↔ n.Routable l := by
  simp [Routable, linkEnds, region, sameRegions]

end Network

/--
Routing one link, from a network where it is found under its number, holds a policy told nothing
yet and every region has dimensions: a routable link is replaced by its routed form, and routing
fails only for a link that is not routable.
-/
theorem routeLink_spec
    {n : Network}
    {l : Link}
    {kind : Link.PolicyKind}
    (untold : l.fresh = { kind })
    (found : n.link l.id = .ok l)
    (resolved : ∀ r ∈ n.regions.items, r.dims.isSpecified = true) :
    ⦃fun s => ⌜s.network = n⌝⦄
    Op.routeLink l.id
    ⦃post⟨fun _ s => ⌜n.Routable l ∧ ∃ routed, n.Routed l routed ∧
        s.network = n.replaceLink routed⌝,
      fun _ _ => ⌜¬ n.Routable l⌝⟩⦄ := by
  mvcgen [Op.routeLink, Op.region, Op.link, Op.stepLink, Op.lift]
  case vc1 s atN link foundLink src srcFound dest destFound count counted sd seen dd shown l₀ p
      u₁ told l₁ u₂ destTold u₃ prepared =>
    subst atN
    obtain rfl : link = l := Except.ok.inj (foundLink.symm.trans found)
    have ends :=
      Network.linkEnds_eq_ok_iff.mpr ⟨src, dest, srcFound, destFound, counted, seen, shown⟩
    obtain ⟨positive, srcSpecified, destSpecified⟩ := Network.linkEnds_specified resolved ends
    -- before preparing, the link holds a fresh policy told the count and both ends
    have freshTold : p = { kind, elementCount := count } := by
      simp [p, l₀, Link.reset, untold, Link.LinkPolicy.setElementCount]
    have held : l₁.policy = { kind, elementCount := count, src := sd, dest := dd } := by
      simp [l₁, freshTold, Link.LinkPolicy.setDestination_setSource _ srcSpecified]
    have induces : kind.InducesFrom sd := by
      rw [freshTold, Link.LinkPolicy.setSource_ok_iff rfl srcSpecified] at told
      exact told
    obtain ⟨q, preparedPolicy, m, built⟩ := (Link.prepare_snd_eq_ok_iff l₁).mp prepared
    have accepts : kind.Accepts sd dd := by
      have prepares : ∃ q, l₁.policy.prepare = .ok q := ⟨q, preparedPolicy⟩
      rwa [held, Link.LinkPolicy.prepare_ok_iff srcSpecified destSpecified positive] at prepares
    -- the policy prepares to one result, whose map is built
    have builds : kind.Builds count sd dd := by
      intro q' preparedAgain
      rw [← held, preparedPolicy] at preparedAgain
      exact ⟨m, Except.ok.inj preparedAgain ▸ built⟩
    obtain ⟨routedIs, length⟩ := Link.prepare_of_ok preparedPolicy built
    obtain ⟨ready, -⟩ := Link.LinkPolicy.prepare_eq_ok preparedPolicy
    refine ⟨⟨count, sd, dd, ends, untold ▸ induces, untold ▸ accepts, untold ▸ builds⟩,
      l₁.prepare.1, ?_, ?_⟩
    · rw [routedIs]
      exact ⟨rfl, rfl, rfl, ready, count, sd, dd, ends, by simpa [held] using length⟩
    · -- the three stores under the same number leave only the last
      rw [routedIs, Network.replaceLink_replaceLink, Network.replaceLink_replaceLink]
      all_goals rfl
  case vc2 s atN link foundLink src srcFound dest destFound count counted sd seen dd shown l₀ p
      u₁ told l₁ u₂ destTold e refused =>
    subst atN
    obtain rfl : link = l := Except.ok.inj (foundLink.symm.trans found)
    have ends :=
      Network.linkEnds_eq_ok_iff.mpr ⟨src, dest, srcFound, destFound, counted, seen, shown⟩
    obtain ⟨positive, srcSpecified, destSpecified⟩ := Network.linkEnds_specified resolved ends
    rintro ⟨count', sd', dd', ends', -, accepts, builds⟩
    obtain ⟨rfl, rfl, rfl⟩ : count = count' ∧ sd = sd' ∧ dd = dd' := by
      simpa using ends.symm.trans ends'
    have held : l₁.policy = { kind, elementCount := count, src := sd, dest := dd } := by
      simp [l₁, p, l₀, Link.reset, untold, Link.LinkPolicy.setElementCount,
        Link.LinkPolicy.setDestination_setSource _ srcSpecified]
    -- an accepted pair prepares, the prepared policy builds its map, and the link prepares too
    obtain ⟨q, preparedPolicy⟩ : ∃ q, l₁.policy.prepare = .ok q := by
      rw [held, Link.LinkPolicy.prepare_ok_iff srcSpecified destSpecified positive]
      simpa [untold] using accepts
    have freshBuilds : kind.Builds count sd dd := by simpa [untold] using builds
    obtain ⟨m, built⟩ := freshBuilds q (held ▸ preparedPolicy)
    rw [(Link.prepare_snd_eq_ok_iff l₁).mpr ⟨q, preparedPolicy, m, built⟩] at refused
    cases refused
  case vc3 atN link foundLink src srcFound dest destFound count counted sd seen dd shown l₀ p
      u₁ told l₁ e refused =>
    subst atN
    have ends :=
      Network.linkEnds_eq_ok_iff.mpr ⟨src, dest, srcFound, destFound, counted, seen, shown⟩
    obtain ⟨-, srcSpecified, -⟩ := Network.linkEnds_specified resolved ends
    rw [Link.LinkPolicy.setDestination_setSource _ srcSpecified] at refused
    cases refused
  case vc4 s atN link foundLink src srcFound dest destFound count counted sd seen dd shown l₀ p
      e refused =>
    subst atN
    obtain rfl : link = l := Except.ok.inj (foundLink.symm.trans found)
    have ends :=
      Network.linkEnds_eq_ok_iff.mpr ⟨src, dest, srcFound, destFound, counted, seen, shown⟩
    obtain ⟨-, srcSpecified, -⟩ := Network.linkEnds_specified resolved ends
    rintro ⟨count', sd', dd', ends', induces, -, -⟩
    obtain ⟨rfl, rfl, rfl⟩ : count = count' ∧ sd = sd' ∧ dd = dd' := by
      simpa using ends.symm.trans ends'
    have freshTold : p = { kind, elementCount := count } := by
      simp [p, l₀, Link.reset, untold, Link.LinkPolicy.setElementCount]
    rw [freshTold, (Link.LinkPolicy.setSource_ok_iff rfl srcSpecified).mpr
      (by simpa [untold] using induces)] at refused
    cases refused
  -- the remaining failures are lookups, and a routable link's lookups all succeed
  all_goals
    rintro ⟨count, sd, dd, ends, -, -, -⟩
    obtain ⟨src, dest, srcFound, destFound, counted, seen, shown⟩ :=
      Network.linkEnds_eq_ok_iff.mp ends
    simp_all
end RegionNet
