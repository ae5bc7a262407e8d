import RegionNet.Proofs.Integrity

set_option mvcgen.warning false

namespace RegionNet

open Std.Do

/-!
# Link order and propagation

Links are numbered in the order they are made, and propagation walks them in that order, both
when links induce the dimensions of regions that have none and when every link is routed. The
induction pass stops at the first link whose policy cannot work out the far end, even where a
later link would have given that region its dimensions first: whether propagation succeeds can
depend on the order the links were made in (`induced_link_order_matters`).

Where every region's dimensions are given explicitly nothing is induced, and the order goes
away. Propagation then succeeds exactly when the regions can be ordered producers first and
every link routes (`propagate_ok_iff_explicit`), and both read the network only through what
propagation sees of its regions (`Network.layoutView`) and the links as a collection of ends and
policies (`Link.design`), not through their numbers.
-/

namespace Region

/--
What propagation reads of a region: its dimensions and where they came from, whether each input
is region-level, and whether each output is region-level and how many elements a node of it
holds.
-/
def layoutView (r : Region) :
    Dimensions × DimensionSource × List (String × Bool) × List (String × Bool × Option Nat) :=
  (r.dims, r.source, r.inputs.entries.map (fun e => (e.1, e.2.regionLevel)),
    r.outputs.entries.map fun e => (e.1, e.2.regionLevel, (r.elementCount e.1).toOption))

variable {r r' : Region} {k : String}

/-- Releasing a region's data leaves what propagation reads of it. -/
@[simp] theorem layoutView_teardown (r : Region) : r.teardown.layoutView = r.layoutView := by
  simp [layoutView, teardown, elementCount, Input.teardown, Output.teardown, Function.comp_def]

/-- Regions that look alike to propagation find an output under the same names, on as many
nodes and with as many elements per node. -/
theorem output_of_layoutView
    (same : r'.layoutView = r.layoutView)
    {o : Output}
    (found : r.output k = .ok o) :
    ∃ o', r'.output k = .ok o' ∧ o'.regionLevel = o.regionLevel ∧
      (r'.elementCount k).toOption = (r.elementCount k).toOption := by
  unfold output at found
  split at found
  · rename_i located
    cases found
    have outputs := (Prod.mk.inj (Prod.mk.inj (Prod.mk.inj same).2).2).2
    obtain ⟨o', located', agree⟩ := Collection.find?_of_map_eq_map
      (f := fun k (o : Output) => (o.regionLevel, (r.elementCount k).toOption))
      (g := fun k (o : Output) => (o.regionLevel, (r'.elementCount k).toOption)) outputs.symm located
    obtain ⟨level, count⟩ := Prod.mk.inj agree
    exact ⟨o', by simp [output, located'], level, count⟩
  · cases found

/-- Regions that look alike to propagation find an input under the same names, on as many
nodes. -/
theorem input_of_layoutView
    (same : r'.layoutView = r.layoutView)
    {i : Input}
    (found : r.input k = .ok i) :
    ∃ i', r'.input k = .ok i' ∧ i'.regionLevel = i.regionLevel := by
  unfold input at found
  split at found
  · rename_i located
    cases found
    have inputs := (Prod.mk.inj (Prod.mk.inj (Prod.mk.inj same).2).2).1
    obtain ⟨i', located', level⟩ := Collection.find?_of_map_eq_map
      (f := fun _ (i : Input) => i.regionLevel) (g := fun _ (i : Input) => i.regionLevel)
      inputs.symm located
    exact ⟨i', by simp [input, located'], level⟩
  · cases found

theorem sourceDimensions_of_layoutView
    (same : r'.layoutView = r.layoutView)
    {sd : Dimensions}
    (seen : sourceDimensions r k = .ok sd) :
    sourceDimensions r' k = .ok sd := by
  simp only [sourceDimensions, bind, Except.bind] at seen ⊢
  split at seen
  · cases seen
  · rename_i o found
    obtain ⟨o', found', level, -⟩ := output_of_layoutView same found
    have dims : r'.dims = r.dims := (Prod.mk.inj same).1
    simp only [found', level, dims]
    exact seen

theorem destinationDimensions_of_layoutView
    (same : r'.layoutView = r.layoutView)
    {dd : Dimensions}
    (shown : destinationDimensions r k = .ok dd) :
    destinationDimensions r' k = .ok dd := by
  simp only [destinationDimensions, bind, Except.bind] at shown ⊢
  split at shown
  · cases shown
  · rename_i i found
    obtain ⟨i', found', level⟩ := input_of_layoutView same found
    have dims : r'.dims = r.dims := (Prod.mk.inj same).1
    simp only [found', level, dims]
    exact shown

/-- The elements per node of an output the region has are part of what propagation reads. -/
theorem elementCount_of_layoutView
    (same : r'.layoutView = r.layoutView)
    {o : Output}
    (present : r.output k = .ok o)
    {count : Nat}
    (counted : r.elementCount k = .ok count) :
    r'.elementCount k = .ok count := by
  obtain ⟨-, -, -, agree⟩ := output_of_layoutView same present
  rw [counted] at agree
  cases counted' : r'.elementCount k with
  | error e => simp [counted', Except.toOption] at agree
  | ok c => simpa [counted', Except.toOption] using agree

end Region

/-- What a link is made of apart from its number: the ports it joins and the policy made from
its text. -/
def Link.design (l : Link) : Endpoints × Link.LinkPolicy := (l.endpoints, l.fresh)

namespace Network

/-- What propagation reads of a network's regions: each region's view under its name, in
order. -/
def layoutView (n : Network) :
    List (String × Dimensions × DimensionSource × List (String × Bool) ×
      List (String × Bool × Option Nat)) :=
  n.regions.entries.map fun e => (e.1, e.2.layoutView)

variable {m n : Network}

theorem region_of_layoutView
    (same : m.layoutView = n.layoutView)
    {k : String}
    {r : Region}
    (found : n.region k = .ok r) :
    ∃ r', m.region k = .ok r' ∧ r'.layoutView = r.layoutView := by
  unfold region at found
  split at found
  · rename_i located
    cases found
    obtain ⟨r', located', agree⟩ := Collection.find?_of_map_eq same.symm located
    exact ⟨r', by simp [region, located'], agree⟩
  · cases found

/-- Networks that look alike to propagation find the same ends for links joining the same
ports. -/
theorem linkEnds_of_layoutView
    (same : m.layoutView = n.layoutView)
    {l l' : Link}
    (sameEnds : l'.endpoints = l.endpoints)
    {count : Nat}
    {sd dd : Dimensions}
    (ends : n.linkEnds l = .ok (count, sd, dd)) :
    m.linkEnds l' = .ok (count, sd, dd) := by
  obtain ⟨src, dest, srcFound, destFound, counted, seen, shown⟩ := linkEnds_eq_ok_iff.mp ends
  obtain ⟨src', srcFound', srcAlike⟩ := region_of_layoutView same srcFound
  obtain ⟨dest', destFound', destAlike⟩ := region_of_layoutView same destFound
  have present : ∃ o, src.output l.endpoints.srcOutput = .ok o := by
    simp only [sourceDimensions, bind, Except.bind] at seen
    split at seen
    · cases seen
    · exact ⟨_, ‹_›⟩
  obtain ⟨o, present⟩ := present
  rw [linkEnds_eq_ok_iff, sameEnds]
  exact ⟨src', dest', srcFound', destFound', Region.elementCount_of_layoutView srcAlike present counted,
    Region.sourceDimensions_of_layoutView srcAlike seen,
    Region.destinationDimensions_of_layoutView destAlike shown⟩

/-- Whether a link routes reads the network only through its view, and the link only through
its design. -/
theorem routable_of_layoutView
    (same : m.layoutView = n.layoutView)
    {l l' : Link}
    (design : l'.design = l.design) :
    m.Routable l' ↔ n.Routable l := by
  obtain ⟨sameEnds, sameFresh⟩ := Prod.mk.inj design
  constructor
  · rintro ⟨count, sd, dd, ends, induces, accepts⟩
    refine ⟨count, sd, dd, linkEnds_of_layoutView same.symm sameEnds.symm ends, ?_, ?_⟩
    · rwa [← sameFresh]
    · rwa [← sameFresh]
  · rintro ⟨count, sd, dd, ends, induces, accepts⟩
    refine ⟨count, sd, dd, linkEnds_of_layoutView same sameEnds ends, ?_, ?_⟩
    · rwa [sameFresh]
    · rwa [sameFresh]

/-- Over networks that look alike, links of the same designs route all together or not. -/
theorem forall_routable_of_perm
    (same : m.layoutView = n.layoutView)
    (designs : (m.links.map Link.design).Perm (n.links.map Link.design)) :
    (∀ l ∈ m.links, m.Routable l) ↔ ∀ l ∈ n.links, n.Routable l := by
  constructor
  · intro routable l member
    obtain ⟨l', member', design⟩ :=
      List.mem_map.mp (designs.symm.mem_iff.mp (List.mem_map_of_mem member))
    exact (routable_of_layoutView same design).mp (routable l' member')
  · intro routable l member
    obtain ⟨l', member', design⟩ :=
      List.mem_map.mp (designs.mem_iff.mp (List.mem_map_of_mem member))
    exact (routable_of_layoutView same design.symm).mpr (routable l' member')

/-- The regions a region feeds, one entry per link, read off the links' ends. -/
theorem fed_eq_ends (links : List Link) (next : String) :
    (links.filter (·.endpoints.srcRegion == next)).map (·.endpoints.destRegion) =
      ((links.map (·.endpoints)).filter (·.srcRegion == next)).map (·.destRegion) := by
  simp [List.filter_map, Function.comp_def]

/-- Placing regions reads the region names, and the links only as a collection of ends. -/
theorem placeRegions_of_perm
    (names : m.regions.names = n.regions.names)
    (ends : (m.links.map (·.endpoints)).Perm (n.links.map (·.endpoints)))
    (fuel : Nat)
    (placed : List String)
    (degree : List (String × Nat)) :
    m.placeRegions fuel placed degree = n.placeRegions fuel placed degree := by
  induction fuel generalizing placed degree with
  | zero => rfl
  | succ fuel inductionHypothesis =>
      -- how many links leave the region placed next for each region is a count over the ends
      have fed : ∀ next nm,
          ((m.links.filter (·.endpoints.srcRegion == next)).map (·.endpoints.destRegion)).count nm =
            ((n.links.filter (·.endpoints.srcRegion == next)).map (·.endpoints.destRegion)).count nm := by
        intro next nm
        rw [fed_eq_ends, fed_eq_ends]
        exact ((ends.filter _).map _).count_eq nm
      simp only [placeRegions, names, fed, inductionHypothesis]

/-- Whether the regions can be ordered, and the order, read the region names and the links only
as a collection of ends. -/
theorem sortedOrder_of_perm
    (names : m.regions.names = n.regions.names)
    (ends : (m.links.map (·.endpoints)).Perm (n.links.map (·.endpoints))) :
    m.sortedOrder = n.sortedOrder := by
  have count : m.regions.count = n.regions.count := by
    simpa [Collection.count, Collection.names] using congrArg List.length names
  have entering : ∀ nm, (m.links.filter (·.endpoints.destRegion == nm)).length =
      (n.links.filter (·.endpoints.destRegion == nm)).length := by
    intro nm
    have filtered := ends.filter (·.destRegion == nm)
    simpa [List.filter_map, Function.comp_def] using filtered.length_eq
  simp only [sortedOrder, names, count, entering]
  exact placeRegions_of_perm names ends _ _ _

/-- Every region's dimensions are given explicitly: propagation has nothing to induce, and
forgetting the topology forgets none of them. -/
def Explicit (n : Network) : Prop :=
  ∀ r ∈ n.regions.items, r.source = .explicit ∧ r.dims.isSpecified = true

theorem Explicit.resolved (explicit : n.Explicit) :
    ∀ r ∈ n.regions.items, r.dims.isSpecified = true :=
  fun r member => (explicit r member).2

/-- A network that looks alike to propagation has explicit dimensions when the other has. -/
theorem Explicit.of_layoutView (same : m.layoutView = n.layoutView) (explicit : n.Explicit) :
    m.Explicit := by
  intro r member
  obtain ⟨e, entry, rfl⟩ := List.mem_map.mp member
  obtain ⟨e', entry', -, alike⟩ := Collection.mem_of_map_eq same entry
  have dims : e'.2.dims = e.2.dims := (Prod.mk.inj alike).1
  have source : e'.2.source = e.2.source := (Prod.mk.inj (Prod.mk.inj alike).2).1
  rw [← dims, ← source]
  exact explicit e'.2 (List.mem_map_of_mem entry')

/-- With every dimension explicit, forgetting the topology leaves what propagation reads. -/
theorem layoutView_resetTopology (explicit : n.Explicit) :
    n.resetTopology.layoutView = n.layoutView := by
  simp only [layoutView, resetTopology, List.map_map]
  refine List.map_congr_left fun e entry => ?_
  obtain ⟨k, r⟩ := e
  have source : r.teardown.source = .explicit := (explicit r (List.mem_map_of_mem entry)).1
  simp [source]

/-- Forgetting the topology keeps the order the regions can be placed in. -/
theorem sortedOrder_resetTopology (n : Network) : n.resetTopology.sortedOrder = n.sortedOrder :=
  sortedOrder_of_perm (by simp [resetTopology, Collection.names, Function.comp_def])
    (.of_eq (by simp [resetTopology, Link.reset, Function.comp_def]))

/-- Forgetting the topology keeps the links' designs. -/
@[simp] theorem designs_resetTopology (n : Network) :
    n.resetTopology.links.map Link.design = n.links.map Link.design := by
  simp [resetTopology, Link.design, Link.reset, Function.comp_def]

/-- In a wired network whose regions all have dimensions, both ports of a link are found and
show dimensions. -/
theorem Wired.ports_specified
    (wired : n.Wired)
    (resolved : ∀ r ∈ n.regions.items, r.dims.isSpecified = true)
    {l : Link}
    (member : l ∈ n.links) :
    ∃ src dest sd dd, n.region l.endpoints.srcRegion = .ok src ∧
      n.region l.endpoints.destRegion = .ok dest ∧
      sourceDimensions src l.endpoints.srcOutput = .ok sd ∧
      destinationDimensions dest l.endpoints.destInput = .ok dd ∧
      sd.isSpecified = true ∧ dd.isSpecified = true := by
  obtain ⟨⟨src, o, srcFound, outputFound⟩, ⟨dest, i, destFound, inputFound⟩⟩ := wired.ends l member
  refine ⟨src, dest, _, _, srcFound, destFound, by simp [sourceDimensions, outputFound]; rfl,
    by simp [destinationDimensions, inputFound]; rfl,
    portDimensions_isSpecified (resolved src (mem_items_of_region srcFound)) _,
    portDimensions_isSpecified (resolved dest (mem_items_of_region destFound)) _⟩

end Network

namespace Op

variable {n : Network}

/-- In a wired network whose regions all have dimensions, a link finds both its ports with
dimensions already, induces nothing and changes nothing. -/
theorem induceThrough_resolved
    (wired : n.Wired)
    (resolved : ∀ r ∈ n.regions.items, r.dims.isSpecified = true)
    {l : Link}
    (member : l ∈ n.links) :
    ⦃fun s => ⌜s.network = n⌝⦄
    induceThrough l.id
    ⦃post⟨fun changed s => ⌜changed = false ∧ s.network = n⌝, fun _ _ => ⌜False⌝⟩⦄ := by
  have found : n.link l.id = .ok l := Network.link_of_mem wired.integrity.numbersApart member
  obtain ⟨src, dest, sd, dd, srcFound, destFound, seen, shown, srcSpecified, destSpecified⟩ :=
    wired.ports_specified resolved member
  -- every lookup succeeds and both ends have dimensions, so only the first return is reached
  mvcgen [induceThrough, link, region, lift, -induceThrough_keeps]
  all_goals subst n
  all_goals simp_all

/-- In such a network a pass of induction changes nothing, and so ends after one pass. -/
theorem induceAll_resolved
    (wired : n.Wired)
    (resolved : ∀ r ∈ n.regions.items, r.dims.isSpecified = true)
    (fuel : Nat) :
    ⦃fun s => ⌜s.network = n⌝⦄
    induceAll fuel
    ⦃post⟨fun _ s => ⌜s.network = n⌝, fun _ _ => ⌜False⌝⟩⦄ := by
  cases fuel with
  | zero => mvcgen [induceAll, -induceAll_keeps]
  | succ fuel =>
      mvcgen [induceAll, -induceAll_keeps, -induceThrough_keeps] invariants
      · post⟨fun cursor s => ⌜cursor.2 = false ∧ s.network = n⌝, fun _ _ => ⌜False⌝⟩
      all_goals subst n
      case vc1.step s₀ ids pref cur suff split changed s unchanged =>
        obtain ⟨rfl, atN⟩ := unchanged
        have numbered : cur ∈ ids := by simp [split]
        obtain ⟨l, member, rfl⟩ := List.mem_map.mp numbered
        exact wp_of_triple (induceThrough_resolved wired resolved member)
          (fun _ _ unchanged => by simp [unchanged.1, unchanged.2]) (fun _ _ => False.elim) atN
      case vc3.succ.post.success.isTrue changed again =>
        rintro _ unchanged -
        simp [unchanged] at again
      case vc4.succ.post.success.isFalse unchanged =>
        exact unchanged.2

/-- With every dimension explicit, the first half of propagation only forgets the topology and
orders the regions, and fails only when they cannot be ordered. -/
theorem induceDimensions_explicit
    (wired : n.Wired)
    (explicit : n.Explicit) :
    ⦃fun s => ⌜s.network = n⌝⦄
    induceDimensions
    ⦃post⟨fun _ s => ⌜∃ order, n.sortedOrder = .ok order ∧
        s.network = { n.resetTopology with order }⌝,
      fun _ _ => ⌜∀ order, n.sortedOrder ≠ .ok order⌝⟩⦄ := by
  mvcgen [induceDimensions, -induceDimensions_keeps, lift, -resetTopology_keeps, resetTopology_spec,
    -induceAll_keeps]
  all_goals subst n
  case vc1.h_1 s order sorted =>
    rw [Network.sortedOrder_resetTopology] at sorted
    -- the ordered network is the reset one, still wired and with every dimension explicit
    have ordered : ({ s.network.resetTopology with order } : Network).Wired :=
      wired.resetTopology.of_topology_eq rfl rfl le_rfl
    have kept : ({ s.network.resetTopology with order } : Network).Explicit :=
      explicit.of_layoutView (Network.layoutView_resetTopology explicit)
    exact wp_of_triple (induceAll_resolved ordered kept.resolved _)
      (fun _ _ induced => by exact ⟨order, sorted, induced⟩) (fun _ _ => False.elim) rfl
  case vc2.h_2 s e refused =>
    intro order sorted
    rw [Network.sortedOrder_resetTopology, sorted] at refused
    cases refused

end Op

/--
When every region's dimensions are given explicitly, propagating a reachable session succeeds
exactly when its regions can be ordered producers first and every link routes.
-/
theorem propagate_ok_iff_explicit
    {s : Session}
    (reachable : Reachable s)
    (explicit : s.network.Explicit) :
    (∃ s', EStateM.run Op.propagate s = .ok () s') ↔
      (∃ order, s.network.sortedOrder = .ok order) ∧ ∀ l ∈ s.network.links, s.network.Routable l := by
  have induced := Op.run_of_triple (Op.induceDimensions_explicit reachable.wired explicit)
    (show s.network = s.network from rfl)
  cases ran : EStateM.run Op.induceDimensions s with
  | error e s₂ =>
      rw [ran] at induced
      -- the first half fails only when the regions cannot be ordered, and propagation with it
      have refused : EStateM.run Op.propagate s = .error e s₂ := by
        rw [Op.propagate_eq]
        unfold EStateM.run at ran ⊢
        simp only [bind, EStateM.bind, ran]
      rw [refused]
      refine ⟨fun ⟨_, ok⟩ => ?_, fun ⟨⟨order, sorted⟩, _⟩ => absurd sorted (induced order)⟩
      cases ok
  | ok u s₂ =>
      rw [ran] at induced
      obtain ⟨order, sorted, ordered⟩ := induced
      -- routing runs on the reset network, which propagation cannot tell from the one before
      have alike : s₂.network.layoutView = s.network.layoutView := by
        rw [ordered]
        exact Network.layoutView_resetTopology explicit
      have designs : (s₂.network.links.map Link.design).Perm (s.network.links.map Link.design) := by
        rw [ordered]
        exact .of_eq (Network.designs_resetTopology s.network)
      have table : s₂.network.LinkTable := by
        rw [ordered]
        exact reachable.linkTable.of_map_reset rfl le_rfl
      have routing := Op.run_of_triple
        (Op.routeLinks_spec table (explicit.of_layoutView alike).resolved)
        (show s₂.network = s₂.network from rfl)
      rw [Op.run_propagate_of_induced ran, ← Network.forall_routable_of_perm alike designs]
      cases routed : EStateM.run Op.routeLinks s₂ with
      | ok _ s' =>
          rw [routed] at routing
          exact ⟨fun _ => ⟨⟨order, sorted⟩, routing.1⟩, fun _ => ⟨s', rfl⟩⟩
      | error _ s' =>
          rw [routed] at routing
          obtain ⟨l, member, stuck⟩ := routing
          refine ⟨fun ⟨_, ok⟩ => ?_, fun ⟨_, all⟩ => absurd (all l member) stuck⟩
          cases ok

/--
Two reachable sessions whose regions look alike to propagation and have explicit dimensions, and
whose links are the same links made in any order, propagate alike: either both succeed or both
fail.
-/
theorem propagate_ok_independent_of_link_order
    {s t : Session}
    (reachable : Reachable s)
    (reachable' : Reachable t)
    (regions : t.network.layoutView = s.network.layoutView)
    (links : (t.network.links.map Link.design).Perm (s.network.links.map Link.design))
    (explicit : s.network.Explicit) :
    (∃ t', EStateM.run Op.propagate t = .ok () t') ↔ ∃ s', EStateM.run Op.propagate s = .ok () s' := by
  have names : t.network.regions.names = s.network.regions.names := by
    simpa [Network.layoutView, Collection.names, Function.comp_def] using
      congrArg (List.map (·.1)) regions
  have ends : (t.network.links.map (·.endpoints)).Perm (s.network.links.map (·.endpoints)) := by
    simpa [Link.design, Function.comp_def] using links.map Prod.fst
  rw [propagate_ok_iff_explicit reachable' (explicit.of_layoutView regions),
    propagate_ok_iff_explicit reachable explicit, Network.sortedOrder_of_perm names ends,
    Network.forall_routable_of_perm regions links]

/-- The rule applies to three test regions with explicit dimensions of four, two and one nodes,
and plain uniform links `W → X` and `X → Y` made in either order. -/
theorem chained_links_propagate_alike :
    let regions := [Command.addRegion "W" "TestNode" "", .addRegion "X" "TestNode" "",
      .addRegion "Y" "TestNode" "", .setRegionDimensions "W" ⟨[4]⟩,
      .setRegionDimensions "X" ⟨[2]⟩, .setRegionDimensions "Y" ⟨[1]⟩]
    let first := Command.connect "W" "" "X" "" "UniformLink" ""
    let second := Command.connect "X" "" "Y" "" "UniformLink" ""
    let fresh : Session := { host := Host.new {}, files := {}, network := { id := 0 } }
    let s := Command.leavesAll (regions ++ [first, second]) fresh
    let t := Command.leavesAll (regions ++ [second, first]) fresh
    Reachable s ∧ Reachable t ∧ t.network.layoutView = s.network.layoutView ∧
      (t.network.links.map Link.design).Perm (s.network.links.map Link.design) ∧
      s.network.Explicit ∧ s.network.links.length = 2 ∧
      ((∃ t', EStateM.run Op.propagate t = .ok () t') ↔
        ∃ s', EStateM.run Op.propagate s = .ok () s') := by
  intro regions first second fresh s t
  have reachable : Reachable s := (Reachable.fresh rfl).leavesAll _
  have reachable' : Reachable t := (Reachable.fresh rfl).leavesAll _
  -- the kernel evaluates both sessions once the region names are validated
  have evaluated : t.network.layoutView = s.network.layoutView ∧
      (t.network.links.map Link.design).Perm (s.network.links.map Link.design) ∧
      s.network.Explicit ∧ s.network.links.length = 2 := by
    simp only [s, t, regions, first, second, fresh, Command.leavesAll, List.cons_append,
      List.nil_append, List.foldl, Command.op, Op.addRegion, Op.checkNewRegion, Network.Explicit,
      @Op.validateRegionName_of_plain "W" (by simp), @Op.validateRegionName_of_plain "X" (by simp),
      @Op.validateRegionName_of_plain "Y" (by simp)]
    -- the views are tuples of five parts, past the default size of instance search
    set_option synthInstance.maxSize 1024 in decide +kernel
  obtain ⟨regionsAlike, linksAlike, explicit, two⟩ := evaluated
  exact ⟨reachable, reachable', regionsAlike, linksAlike, explicit, two,
    propagate_ok_independent_of_link_order reachable reachable' regionsAlike linksAlike explicit⟩

/--
Without explicit dimensions the order of the links matters. Take regions `W` of 5 nodes, `X`
without dimensions and `Y` of 3 nodes, a plain uniform link `W → X` and a uniform link `X → Y`
with receptive fields of 2 in spans of 4, not strict. Made first, `W → X` gives `X` the 5 nodes
of `W`, and from 5 source nodes `X → Y` works out the 3 of `Y`. Made first, `X → Y` is told the 3
nodes of `Y` and must work out a source for them, which these fields do not have, and induction
stops there.
-/
theorem induced_link_order_matters :
    let plain : Link.UniformParams := {}
    let spans : Link.UniformParams := { rfSize := some [2], span := some [4], strict := false }
    plain.induce ⟨[5]⟩ true = .ok ⟨[5]⟩ ∧ spans.induce ⟨[5]⟩ true = .ok ⟨[3]⟩ ∧
      (spans.induce ⟨[3]⟩ false).isOk = false := by
  decide

end RegionNet
