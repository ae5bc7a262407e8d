import RegionNet.Proofs.Reachable

set_option mvcgen.warning false

namespace RegionNet

open Std.Do

/-!
# Propagation succeeds exactly when every link routes

Propagation has two halves. The first (`Op.induceDimensions`) orders the regions producers
first and lets links induce the dimensions of regions that have none. The second
(`Op.routeLinks`) refuses a region still without dimensions, routes every link in order and
marks the network propagated.

When the first half succeeds and leaves every region with dimensions, the second succeeds
exactly when every link is routable, and then every link is ready with one splitter map entry
per node of its destination port (`propagate_ok_iff_routable`). Routable asks more than that
the policy accept the dimensions at the two ports: routing tells a fresh policy the source
first, the destination the policy works out from the source alone must exist as well, and the
splitter map of the prepared policy must be built without a panic.

The routing loop is carried by `Network.RoutedExcept`: the links still to route are held as
they were, every other link is held in routed form.
-/

namespace Dimensions

/-- Specified dimensions have at least one node. -/
theorem count_pos {d : Dimensions} (specified : d.isSpecified = true) : 0 < d.count := by
  have product : 0 < d.product := List.prod_pos fun a member => pos_of_isSpecified specified member
  have word : 0 < wordMax := by decide
  simp only [count, specified, ↓reduceIte]
  omega

end Dimensions

/-- A destination port found on a region shows one node when region-level, else the region's. -/
theorem destinationDimensions_eq_ok
    {r : Region}
    {input : String}
    {dd : Dimensions}
    (shown : destinationDimensions r input = .ok dd) :
    ∃ i, r.input input = .ok i ∧ dd = if i.regionLevel then Dimensions.ones 1 else r.dims := by
  simp only [destinationDimensions, bind, Except.bind] at shown
  split at shown
  · cases shown
  · rename_i i found
    cases shown
    exact ⟨i, found, rfl⟩

/-- A source port found on a region shows one node when region-level, else the region's. -/
theorem sourceDimensions_eq_ok
    {r : Region}
    {output : String}
    {sd : Dimensions}
    (shown : sourceDimensions r output = .ok sd) :
    ∃ o, r.output output = .ok o ∧ sd = if o.regionLevel then Dimensions.ones 1 else r.dims := by
  simp only [sourceDimensions, bind, Except.bind] at shown
  split at shown
  · cases shown
  · rename_i o found
    cases shown
    exact ⟨o, found, rfl⟩

namespace Network

/-- Among links of distinct numbers, two links of one number are the same link. -/
theorem eq_of_id_eq
    {n : Network}
    (distinct : n.linkIds.Nodup)
    {l l' : Link}
    (member : l ∈ n.links)
    (member' : l' ∈ n.links)
    (same : l.id = l'.id) :
    l = l' := by
  have found := link_of_mem distinct member
  rw [same, link_of_mem distinct member'] at found
  exact (Except.ok.inj found).symm

/-- The link a loop over distinct links is at is a link and does not come again. -/
theorem current_of_links_eq
    {n : Network}
    (distinct : n.linkIds.Nodup)
    {pref rest : List Link}
    {cur : Link}
    (split : n.links = pref ++ cur :: rest) :
    cur ∈ n.links ∧ cur ∉ rest := by
  refine ⟨by simp [split], fun again => ?_⟩
  rw [linkIds, split, List.map_append, List.map_cons] at distinct
  have later := (List.nodup_append.mp distinct).2.1
  exact (List.nodup_cons.mp later).1 (List.mem_map_of_mem again)

/-- Looking a region up reads only the regions. -/
theorem region_of_regions
    {m n : Network}
    (sameRegions : m.regions = n.regions)
    (name : String) :
    m.region name = n.region name := by
  simp [region, sameRegions]

/-- Whether a link is routed reads only the regions. -/
theorem routed_of_regions
    {m n : Network}
    (sameRegions : m.regions = n.regions)
    {l routed : Link} :
    m.Routed l routed ↔ n.Routed l routed := by
  simp [Routed, linkEnds, region, sameRegions]

/--
A routed link is initialized, with one splitter map entry per node of its destination port:
one for a region-level input, else one per node of the destination region.
-/
theorem Routed.initialized
    {m n : Network}
    (resolved : ∀ r ∈ n.regions.items, r.dims.isSpecified = true)
    (sameRegions : m.regions = n.regions)
    {x l : Link}
    (routed : n.Routed x l) :
    l.isInitialized = true ∧
      ∃ dest i, m.region l.endpoints.destRegion = .ok dest ∧
        dest.input l.endpoints.destInput = .ok i ∧
        l.routes.length = if i.regionLevel then 1 else dest.nodeCount := by
  obtain ⟨-, -, sameEnds, ready, count, sd, dd, ends, length⟩ := routed
  obtain ⟨-, -, destSpecified⟩ := linkEnds_specified resolved ends
  obtain ⟨-, dest, -, destFound, -, -, shown⟩ := linkEnds_eq_ok_iff.mp ends
  obtain ⟨i, inputFound, rfl⟩ := destinationDimensions_eq_ok shown
  have filled : l.routes ≠ [] :=
    List.ne_nil_of_length_pos (length ▸ Dimensions.count_pos destSpecified)
  refine ⟨by simp [Link.isInitialized, ready, filled], dest, i, ?_, ?_, ?_⟩
  · rw [region_of_regions sameRegions, sameEnds]
    exact destFound
  · rw [sameEnds]
    exact inputFound
  · rw [length]
    cases i.regionLevel
    · rfl
    · rw [if_pos rfl, if_pos rfl]
      decide

/--
Routing of `n` has left only the links `rest`: the network `m` has the regions and link numbers
of `n`, holds every link of `rest` as it was and every other link of `n` in routed form.
-/
structure RoutedExcept (n : Network) (rest : List Link) (m : Network) : Prop where
  regions : m.regions = n.regions
  linkIds : m.linkIds = n.linkIds
  waiting : ∀ l ∈ n.links, l ∈ rest → m.link l.id = .ok l
  routed : ∀ l ∈ n.links, l ∉ rest → n.Routable l ∧ ∃ r, n.Routed l r ∧ m.link l.id = .ok r

namespace RoutedExcept

variable {n m : Network} {rest : List Link}

/-- Before routing every link waits. -/
theorem start (table : n.LinkTable) : n.RoutedExcept n.links n where
  regions := rfl
  linkIds := rfl
  waiting := fun _ member _ => link_of_mem table.distinct member
  routed := fun _ member missing => absurd member missing

/-- Storing the routed form of the next waiting link leaves the links after it. -/
theorem advance
    (table : n.LinkTable)
    {cur r : Link}
    (progress : n.RoutedExcept (cur :: rest) m)
    (member : cur ∈ n.links)
    (fresh : cur ∉ rest)
    (routable : n.Routable cur)
    (routed : n.Routed cur r) :
    n.RoutedExcept rest (m.replaceLink r) where
  regions := progress.regions
  linkIds := by rw [linkIds_replaceLink, progress.linkIds]
  waiting := by
    intro l present waits
    have other : l.id ≠ r.id := by
      rw [routed.1]
      intro same
      exact fresh (eq_of_id_eq table.distinct present member same ▸ waits)
    rw [link_replaceLink_of_ne other]
    exact progress.waiting l present (List.mem_cons_of_mem _ waits)
  routed := by
    intro l present done
    by_cases current : l = cur
    · subst current
      have numbered : r.id ∈ m.linkIds := by
        rw [routed.1, progress.linkIds]
        exact List.mem_map_of_mem present
      refine ⟨routable, r, routed, ?_⟩
      rw [← routed.1]
      exact link_replaceLink_self numbered
    · have earlier : l ∉ cur :: rest := by simp [current, done]
      obtain ⟨routableL, r', routedL, found⟩ := progress.routed l present earlier
      have other : l.id ≠ r.id := by
        rw [routed.1]
        exact fun same => current (eq_of_id_eq table.distinct present member same)
      refine ⟨routableL, r', routedL, ?_⟩
      rw [link_replaceLink_of_ne other]
      exact found

/-- With no link left, every link of `n` routes and every link held is a routed link of `n`. -/
theorem finish
    (table : n.LinkTable)
    (done : n.RoutedExcept [] m) :
    (∀ l ∈ n.links, n.Routable l) ∧ ∀ l ∈ m.links, ∃ x ∈ n.links, n.Routed x l := by
  refine ⟨fun l member => (done.routed l member List.not_mem_nil).1, ?_⟩
  intro l present
  -- the link of `n` under the same number was routed into the one held under it, which is `l`
  have numbered : l.id ∈ n.linkIds := done.linkIds ▸ List.mem_map_of_mem present
  obtain ⟨x, member, sameId⟩ := List.mem_map.mp numbered
  obtain ⟨-, r, routedX, found⟩ := done.routed x member List.not_mem_nil
  have distinct : m.linkIds.Nodup := done.linkIds ▸ table.distinct
  rw [sameId, link_of_mem distinct present] at found
  obtain rfl : l = r := Except.ok.inj found
  exact ⟨x, member, routedX⟩

end RoutedExcept

end Network

/--
Routing the next waiting link either stores its routed form, leaving the links after it, or
fails, and then some link of the network does not route.
-/
theorem routeLink_advances
    {n : Network}
    {cur : Link}
    {rest : List Link}
    (table : n.LinkTable)
    (resolved : ∀ r ∈ n.regions.items, r.dims.isSpecified = true)
    (member : cur ∈ n.links)
    (fresh : cur ∉ rest) :
    ⦃fun s => ⌜n.RoutedExcept (cur :: rest) s.network⌝⦄
    Op.routeLink cur.id
    ⦃post⟨fun _ s => ⌜n.RoutedExcept rest s.network⌝,
      fun _ _ => ⌜∃ l ∈ n.links, ¬ n.Routable l⌝⟩⦄ := by
  apply Op.triple_of_run
  intro s progress
  have sameRegions := progress.regions
  have found := progress.waiting cur member List.mem_cons_self
  have resolvedHere : ∀ r ∈ s.network.regions.items, r.dims.isSpecified = true :=
    sameRegions ▸ resolved
  have step := Op.run_of_triple (routeLink_spec (table.made cur member).untold found resolvedHere) rfl
  cases ran : EStateM.run (Op.routeLink cur.id) s with
  | ok _ s' =>
      rw [ran] at step
      obtain ⟨routable, r, routed, stored⟩ := step
      show n.RoutedExcept rest s'.network
      rw [stored]
      exact progress.advance table member fresh
        ((Network.routable_of_regions sameRegions).mp routable)
        ((Network.routed_of_regions sameRegions).mp routed)
  | error _ s' =>
      rw [ran] at step
      exact ⟨cur, member, fun routable => step ((Network.routable_of_regions sameRegions).mpr routable)⟩

namespace Op

/-- The first half of propagation: order the regions and let links induce dimensions. -/
def induceDimensions : Op Unit := do
  resetTopology
  let order ← lift (← network).sortedOrder
  modifyNetwork fun n => { n with order }
  induceAll ((← network).regions.count + 1)

/-- The second half: refuse unresolved regions, route every link and mark the network. -/
def routeLinks : Op Unit := do
  let unresolved := ((← network).regions.items.filter fun r => !r.dims.isSpecified).map (·.name)
  if !unresolved.isEmpty then
    throw (.dimensionsUnresolvable ("no dimensions for region(s) " ++ ", ".intercalate unresolved))
  for l in (← network).links do
    routeLink l.id
  setState .dimensionsPropagated

/-- Propagation is its two halves in turn. -/
theorem propagate_eq : propagate = (do induceDimensions; routeLinks) := by
  simp only [propagate, induceDimensions, routeLinks, bind_assoc]

/-- Propagation runs its second half from where the first leaves the session. -/
theorem run_propagate_of_induced
    {s s₂ : Session}
    (induced : EStateM.run induceDimensions s = .ok () s₂) :
    EStateM.run propagate s = EStateM.run routeLinks s₂ := by
  rw [propagate_eq]
  unfold EStateM.run at induced ⊢
  simp only [bind, EStateM.bind, induced]

@[spec] theorem induceDimensions_keeps :
    ⦃fun s => ⌜s.network.LinkTable⌝⦄ induceDimensions ⦃always (·.network.LinkTable)⦄ := by
  mvcgen [induceDimensions, lift] with
    exact Network.LinkTable.of_links_eq (by assumption) (by rfl) (by simp +zetaDelta)

/--
From a network with a link table whose regions all have dimensions, routing succeeds exactly
when every link routes; it then marks the network propagated, keeps the regions and holds the
routed form of each link.
-/
theorem routeLinks_spec
    {n : Network}
    (table : n.LinkTable)
    (resolved : ∀ r ∈ n.regions.items, r.dims.isSpecified = true) :
    ⦃fun s => ⌜s.network = n⌝⦄
    routeLinks
    ⦃post⟨fun _ s => ⌜(∀ l ∈ n.links, n.Routable l) ∧
        s.network.state = .dimensionsPropagated ∧ s.network.regions = n.regions ∧
        ∀ l ∈ s.network.links, ∃ x ∈ n.links, n.Routed x l⌝,
      fun _ _ => ⌜∃ l ∈ n.links, ¬ n.Routable l⌝⟩⦄ := by
  mvcgen [routeLinks, -routeLink_keeps, setState] invariants
  · post⟨fun cursor s => ⌜n.RoutedExcept cursor.1.suffix s.network⌝,
      fun _ _ => ⌜∃ l ∈ n.links, ¬ n.Routable l⌝⟩
  case vc1.isTrue s atN _ _ refused =>
    -- every region has dimensions, so none is refused
    subst atN
    simp +zetaDelta [List.filter_eq_nil_iff] at refused
    obtain ⟨r, member, unspecified⟩ := refused
    simp [resolved r member] at unspecified
  case vc2.step s atN _ _ _ pref cur rest split _ s' progress =>
    subst atN
    obtain ⟨member, fresh⟩ := Network.current_of_links_eq table.distinct split
    exact routeLink_advances table resolved member fresh s' progress
  case vc3.isFalse.pre s atN _ _ _ =>
    subst atN
    exact Network.RoutedExcept.start table
  case vc4.isFalse.post.success s atN _ _ _ _ s' done =>
    subst atN
    obtain ⟨routable, routed⟩ := done.finish table
    exact ⟨routable, trivial, done.regions, routed⟩

end Op

/--
After an induction pass that succeeds and leaves every region with dimensions, propagating a
reachable session succeeds exactly when every link routes. A successful propagation marks the
network propagated and leaves every link initialized, with one splitter map entry per node of
its destination port.
-/
theorem propagate_ok_iff_routable
    {s s₂ : Session}
    (reachable : Reachable s)
    (induced : EStateM.run Op.induceDimensions s = .ok () s₂)
    (resolved : ∀ r ∈ s₂.network.regions.items, r.dims.isSpecified = true) :
    ((∃ s', EStateM.run Op.propagate s = .ok () s') ↔
        ∀ l ∈ s₂.network.links, s₂.network.Routable l) ∧
      ∀ s', EStateM.run Op.propagate s = .ok () s' →
        s'.network.state = .dimensionsPropagated ∧
        ∀ l ∈ s'.network.links, l.isInitialized = true ∧
          ∃ dest i, s'.network.region l.endpoints.destRegion = .ok dest ∧
            dest.input l.endpoints.destInput = .ok i ∧
            l.routes.length = if i.regionLevel then 1 else dest.nodeCount := by
  have table : s₂.network.LinkTable := by
    have kept := Op.run_of_triple Op.induceDimensions_keeps reachable.linkTable
    rw [induced] at kept
    exact kept
  have routing := Op.run_of_triple (Op.routeLinks_spec table resolved)
    (show s₂.network = s₂.network from rfl)
  rw [Op.run_propagate_of_induced induced]
  cases ran : EStateM.run Op.routeLinks s₂ with
  | ok _ s' =>
      rw [ran] at routing
      obtain ⟨routable, state, sameRegions, routed⟩ := routing
      refine ⟨⟨fun _ => routable, fun _ => ⟨s', rfl⟩⟩, ?_⟩
      rintro s'' ⟨⟩
      refine ⟨state, fun l member => ?_⟩
      obtain ⟨x, -, routedX⟩ := routed l member
      exact routedX.initialized resolved sameRegions
  | error _ s' =>
      rw [ran] at routing
      obtain ⟨l, member, notRoutable⟩ := routing
      refine ⟨⟨fun ⟨_, ok⟩ => ?_, fun all => absurd (all l member) notRoutable⟩, fun _ ok => ?_⟩
      · cases ok
      · cases ok

/-- The rule applies to a linked pair of test regions, the source given two nodes: the induction
pass gives every region dimensions, and propagating succeeds exactly when the one link routes. -/
theorem linked_pair_propagates_iff_routable :
    let s := Command.leavesAll [.addRegion "A" "TestNode" "", .addRegion "B" "TestNode" "",
      .setRegionDimensions "A" ⟨[2]⟩, .connect "A" "" "B" "" "UniformLink" ""]
      { host := Host.new {}, files := {}, network := { id := 0 } }
    let s₂ := Op.induceDimensions.leaves s
    Reachable s ∧ EStateM.run Op.induceDimensions s = .ok () s₂ ∧
      (∀ r ∈ s₂.network.regions.items, r.dims.isSpecified = true) ∧ s₂.network.links.length = 1 ∧
      ((∃ s', EStateM.run Op.propagate s = .ok () s') ↔
        ∀ l ∈ s₂.network.links, s₂.network.Routable l) := by
  intro s s₂
  have reachable : Reachable s := (Reachable.fresh rfl).leavesAll _
  -- the kernel evaluates the session once the region names are validated
  have evaluated : Op.induceDimensions.succeeds s = true ∧ s₂.network.links.length = 1 ∧
      s₂.network.regions.items.all (·.dims.isSpecified) = true := by
    simp only [s₂, s, Command.leavesAll, List.foldl, Command.op, Op.addRegion, Op.checkNewRegion,
      @Op.validateRegionName_of_plain "A" (by simp), @Op.validateRegionName_of_plain "B" (by simp)]
    decide +kernel
  have induced := Op.run_eq_ok_of_succeeds evaluated.1
  have resolved : ∀ r ∈ s₂.network.regions.items, r.dims.isSpecified = true :=
    List.all_eq_true.mp evaluated.2.2
  exact ⟨reachable, induced, resolved, evaluated.2.1,
    (propagate_ok_iff_routable reachable induced resolved).1⟩

/--
Accepting the two ends is not enough to route. A uniform policy mapping outward with receptive
fields of 2 in spans of 4, not strict, accepts a source of 3 nodes with a destination of 5, yet
works no destination out from the source alone, so a link with it between such regions does not
route.
-/
theorem outward_spans_accept_without_inducing :
    let p : Link.UniformParams :=
      { mapping := .outward, rfSize := some [2], span := some [4], strict := false }
    (Link.PolicyKind.uniform p).Accepts ⟨[3]⟩ ⟨[5]⟩ ∧
      ¬ (Link.PolicyKind.uniform p).InducesFrom ⟨[3]⟩ := by
  intro p
  constructor
  · intro axis below
    obtain rfl : axis = 0 := by
      simp only [Dimensions.rank, List.length_singleton, max_self] at below
      omega
    exact (Link.UniformParams.axisRatio_some_iff p 1 0 3 5).mp ⟨_, by simp only [p]; rfl⟩
  · rintro ⟨dest, induced⟩
    have refused : (p.induce ⟨[3]⟩ true).isOk = false := by decide
    simp [induced, Except.isOk, Except.toBool] at refused

end RegionNet
