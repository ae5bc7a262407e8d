import RegionNet.Proofs.Blocks
import RegionNet.Proofs.Integrity

set_option mvcgen.warning false

namespace RegionNet

open Std.Do

/-!
# Routes stay inside their sources

A splitter map names, for each destination node, positions in the data of the source output:
`elementCount` elements per source node, the source nodes numbered below the product of the
source axes. Every position a prepared policy's map names lies below that product times the
element count (`LinkPolicy.splitterMap_lt_of_prepare`), whatever the ratios, because every ratio
a policy accepts keeps its source ranges inside the source axes.

Propagation routes every link from the ends it finds in the network; a propagated network's
links therefore route one entry per destination-side node, each entry inside the source output
the link reads (`Network.RoutesInside`, established by `routeLinks_inside`). Propagation also
orders the regions: the order holds every region once (`Network.sortedOrder_perm`).
-/

/-- An element of a list mapped through a fallible function is the image of one of the list. -/
theorem mem_of_mapM_except_eq_ok
    {ε α β : Type}
    {f : α → Except ε β}
    {xs : List α}
    {ys : List β}
    (mapped : xs.mapM f = .ok ys)
    {y : β}
    (member : y ∈ ys) :
    ∃ x ∈ xs, f x = .ok y := by
  have paired := (mapM_except_eq_ok_iff f xs ys).mp mapped
  clear mapped
  induction paired with
  | nil => simp at member
  | @cons a b rest restYs headOk _ inductionHypothesis =>
      rcases List.mem_cons.mp member with rfl | inRest
      · exact ⟨a, List.mem_cons_self, headOk⟩
      · obtain ⟨x, present, image⟩ := inductionHypothesis inRest
        exact ⟨x, List.mem_cons_of_mem _ present, image⟩

namespace Link

section Inside

variable
    {src dest : Dimensions}
    {ratios : List AxisRatio}
    {elementCount : Nat}

/-- A visit that succeeds appends the elements of one node of the source. -/
theorem appendBlock_lt
    {entry cursor out : List Nat}
    (appended : appendBlock src elementCount entry cursor = .ok out) :
    ∀ x ∈ out, x ∈ entry ∨ x < src.product * elementCount := by
  simp only [appendBlock, except_bind_eq_ok, mulOrPanic_eq_ok, addOrPanic_eq_ok, pure, Except.pure,
    Except.ok.injEq, and_assoc, exists_eq_left] at appended
  obtain ⟨node, found, -, -, -, -, -, rfl⟩ := appended
  -- the node visited is numbered below the product of the source axes
  obtain ⟨inside, -, rfl⟩ := Dimensions.index_eq_ok found
  have below := Dimensions.place_lt_product inside
  have room := Nat.mul_le_mul_right elementCount (Nat.succ_le_of_lt below)
  intro x member
  rcases List.mem_append.mp member with old | new
  · exact .inl old
  · right
    rw [List.mem_range'_1, Nat.add_one_mul, Nat.add_sub_cancel_left] at new
    rw [Nat.succ_mul] at room
    simp only [Dimensions.product]
    omega

/-- The visits of a block loop append elements of the source's nodes only. -/
theorem foldlM_appendBlock_lt
    {cursors : List (List Nat)} :
    ∀ {entry out : List Nat}, cursors.foldlM (appendBlock src elementCount) entry = .ok out →
      ∀ x ∈ out, x ∈ entry ∨ x < src.product * elementCount := by
  induction cursors with
  | nil =>
      intro entry out folded x member
      cases folded
      exact .inl member
  | cons cursor rest inductionHypothesis =>
      intro entry out folded x member
      rw [List.foldlM_cons, except_bind_eq_ok] at folded
      obtain ⟨grown, appended, later⟩ := folded
      rcases inductionHypothesis later x member with earlier | below
      · exact appendBlock_lt appended x earlier
      · exact .inr below

/-- Every offset a destination node receives lies among the elements of the source's nodes. -/
theorem blockOffsets_lt
    {coordinate offsets : List Nat}
    (built : blockOffsets src ratios elementCount coordinate = .ok offsets) :
    ∀ x ∈ offsets, x < src.product * elementCount := by
  simp only [blockOffsets, except_bind_eq_ok] at built
  obtain ⟨ranges, -, built⟩ := built
  intro x member
  split at built
  · -- a block with an empty range reads nothing
    cases built
    simp at member
  · rw [liftData_eq_ok, blockLoop_eq_foldlM] at built
    rcases foldlM_appendBlock_lt built x member with none | below
    · simp at none
    · exact below

/-- Every position a splitter map names lies among the elements of the source's nodes. -/
theorem splitterMap_lt
    {map : List (List Nat)}
    (built : splitterMap src dest ratios elementCount = .ok map) :
    ∀ entry ∈ map, ∀ x ∈ entry, x < src.product * elementCount := by
  intro entry present
  simp only [splitterMap] at built
  split at built
  · simp [throw, throwThe, MonadExceptOf.throw, bind, Except.bind] at built
  · -- the entry is the offsets of one destination node
    obtain ⟨-, -, mapped⟩ := except_bind_eq_ok.mp built
    obtain ⟨node, -, entryBuilt⟩ := mem_of_mapM_except_eq_ok mapped present
    obtain ⟨coordinate, -, offsets⟩ := except_bind_eq_ok.mp entryBuilt
    exact blockOffsets_lt offsets

end Inside

/-- Every position the map of a prepared policy names lies among the elements of the source. -/
theorem LinkPolicy.splitterMap_lt_of_prepare
    {p q : LinkPolicy}
    (prepared : p.prepare = .ok q)
    {map : List (List Nat)}
    (built : q.splitterMap = .ok map) :
    ∀ entry ∈ map, ∀ x ∈ entry, x < p.src.product * p.elementCount := by
  obtain ⟨ratios, usesRatios, -⟩ := LinkPolicy.ratios_of_prepare prepared
  -- the map is built between the ends padded to their common rank, which keeps the product
  rw [usesRatios] at built
  simpa only [commonRank, Dimensions.product_promote] using splitterMap_lt built

/-- Every position a link prepared from its policy routes lies among the policy's source
elements. -/
theorem prepare_routes_lt
    {l : Link}
    {q : LinkPolicy}
    (prepared : l.policy.prepare = .ok q)
    {m : List (List Nat)}
    (built : q.splitterMap = .ok m) :
    ∀ entry ∈ l.prepare.1.routes, ∀ x ∈ entry, x < l.policy.src.product * l.policy.elementCount := by
  rw [(prepare_of_ok prepared built).1]
  exact LinkPolicy.splitterMap_lt_of_prepare prepared built

end Link

namespace Network

/-!
## Order
-/

/--
Placing regions adds each region at most once and stops once as many are placed as there are
regions; what it gives is then a permutation of the region names. The fuel leaves room for every
region: it runs out only after more regions were placed than there are.
-/
theorem placeRegions_perm
    {n : Network}
    {fuel : Nat}
    {placed order : List String}
    {degree : List (String × Nat)}
    (apart : placed.Nodup)
    (known : ∀ x ∈ placed, x ∈ n.regions.names)
    (room : n.regions.names.length < placed.length + fuel)
    (ordered : n.placeRegions fuel placed degree = .ok order) :
    order.Perm n.regions.names := by
  induction fuel generalizing placed degree with
  | zero =>
      have fits := (List.subperm_of_subset apart known).length_le
      omega
  | succ fuel inductionHypothesis =>
      unfold placeRegions at ordered
      simp only at ordered
      split at ordered
      · cases ordered
        exact (List.subperm_of_subset apart known).perm_of_length_le (by omega)
      · split at ordered
        · cases ordered
        · rename_i next chosen
          -- the next region is one not placed yet
          have picked := List.find?_some chosen
          have member := List.mem_of_find?_eq_some chosen
          simp only [Bool.and_eq_true, Bool.not_eq_true', List.contains_eq_mem,
            decide_eq_false_iff_not] at picked
          refine inductionHypothesis (List.nodup_append.mpr ⟨apart, List.nodup_singleton _, ?_⟩)
            ?_ (by simp; omega) ordered
          · intro x present y inNext
            rw [List.mem_singleton] at inNext
            subst inNext
            rintro rfl
            exact picked.1 present
          · simpa [or_imp, forall_and] using ⟨known, member⟩

/-- A sorted order holds every region once. -/
theorem sortedOrder_perm
    {n : Network}
    {order : List String}
    (sorted : n.sortedOrder = .ok order) :
    order.Perm n.regions.names :=
  placeRegions_perm List.nodup_nil (by simp) (by simp [Collection.names, Collection.count]) sorted

/-!
## Routes inside their sources
-/


/--
A link routes inside its source in `n`: its ends are found, it routes one splitter map entry per
node at its destination port, and every entry names elements of the source output, `count` on
each node the link sees at its source port.
-/
def RoutesInside (n : Network) (l : Link) : Prop :=
  ∃ count sd dd, n.linkEnds l = .ok (count, sd, dd) ∧ l.routes.length = dd.count ∧
    ∀ entry ∈ l.routes, ∀ x ∈ entry, x < sd.product * count

/-- A propagated network: its order holds every region once, and every link routes inside its
source. -/
structure Propagated (n : Network) : Prop where
  ordered : n.order.Perm n.regions.names
  routes : ∀ l ∈ n.links, n.RoutesInside l

variable {m n : Network} {l l' : Link}

/-- The ends of a link are read off its endpoints. -/
theorem linkEnds_of_endpoints (same : l'.endpoints = l.endpoints) : n.linkEnds l' = n.linkEnds l := by
  simp [linkEnds, same]

/-- Whether a link routes inside its source reads only the regions. -/
theorem routesInside_of_regions (sameRegions : m.regions = n.regions) :
    m.RoutesInside l ↔ n.RoutesInside l := by
  simp [RoutesInside, linkEnds, region, sameRegions]

/--
Routing of `n` has left only the links `rest` (`Network.RoutedExcept`), and every link already
routed routes inside its source.
-/
structure InsideExcept (n : Network) (rest : List Link) (m : Network) : Prop
    extends n.RoutedExcept rest m where
  order : m.order = n.order
  inside : ∀ l ∈ n.links, l ∉ rest → ∀ r, m.link l.id = .ok r → n.RoutesInside r

namespace InsideExcept

variable {rest : List Link}

/-- Before routing every link waits. -/
theorem start (table : n.LinkTable) : n.InsideExcept n.links n where
  toRoutedExcept := RoutedExcept.start table
  order := rfl
  inside := fun _ member missing => absurd member missing

/-- Storing the next waiting link routed inside its source leaves the links after it. -/
theorem advance
    (table : n.LinkTable)
    {cur r : Link}
    (progress : n.InsideExcept (cur :: rest) m)
    (member : cur ∈ n.links)
    (fresh : cur ∉ rest)
    (routable : n.Routable cur)
    (routed : n.Routed cur r)
    (inside : n.RoutesInside r) :
    n.InsideExcept rest (m.replaceLink r) where
  toRoutedExcept := progress.toRoutedExcept.advance table member fresh routable routed
  order := progress.order
  inside := by
    intro l present done r' found
    by_cases current : l = cur
    · -- the link just routed is the one found under its number
      subst current
      have numbered : r.id ∈ m.linkIds := by
        rw [routed.1, progress.linkIds]
        exact List.mem_map_of_mem present
      rw [← routed.1, link_replaceLink_self numbered] at found
      cases found
      exact inside
    · have other : l.id ≠ r.id := by
        rw [routed.1]
        exact fun same => current (eq_of_id_eq table.distinct present member same)
      rw [link_replaceLink_of_ne other] at found
      exact progress.inside l present (by simp [current, done]) r' found

/-- With no link left, every link held routes inside its source. -/
theorem finish
    (table : n.LinkTable)
    (done : n.InsideExcept [] m) :
    ∀ l ∈ m.links, n.RoutesInside l := by
  intro l present
  obtain ⟨x, member, routedX⟩ := (done.toRoutedExcept.finish table).2 l present
  have distinct : m.linkIds.Nodup := done.linkIds ▸ table.distinct
  have found : m.link x.id = .ok l := by
    rw [← routedX.1]
    exact link_of_mem distinct present
  exact done.inside x member List.not_mem_nil l found

end InsideExcept

end Network

/--
Routing one link stores it in a form that routes inside its source: told the element count and
both ends the network shows, the prepared policy names only elements of the source output.
-/
theorem routeLink_inside
    {n : Network}
    {l : Link}
    {kind : Link.PolicyKind}
    (untold : l.fresh = { kind })
    (found : n.link l.id = .ok l)
    (resolved : ∀ r ∈ n.regions.items, r.dims.isSpecified = true) :
    ⦃fun s => ⌜s.network = n⌝⦄
    Op.routeLink l.id
    ⦃post⟨fun _ s => ⌜∃ routed, routed.id = l.id ∧ n.RoutesInside routed ∧
        s.network = n.replaceLink routed⌝,
      fun _ _ => ⌜True⌝⟩⦄ := by
  mvcgen [Op.routeLink, -Op.routeLink_keeps, Op.region, Op.link, Op.stepLink, Op.lift]
  case vc1 s atN link foundLink src srcFound dest destFound count counted sd seen dd shown l₀ p
      u₁ told l₁ u₂ destTold u₃ prepared =>
    subst atN
    obtain rfl : link = l := Except.ok.inj (foundLink.symm.trans found)
    have ends :=
      Network.linkEnds_eq_ok_iff.mpr ⟨src, dest, srcFound, destFound, counted, seen, shown⟩
    obtain ⟨-, srcSpecified, -⟩ := Network.linkEnds_specified resolved ends
    -- before preparing, the link holds a fresh policy told the count and both ends
    have held : l₁.policy = { kind, elementCount := count, src := sd, dest := dd } := by
      simp [l₁, p, l₀, Link.reset, untold, Link.LinkPolicy.setElementCount,
        Link.LinkPolicy.setDestination_setSource _ srcSpecified]
    obtain ⟨q, preparedPolicy, m, built⟩ := (Link.prepare_snd_eq_ok_iff l₁).mp prepared
    obtain ⟨routedIs, length⟩ := Link.prepare_of_ok preparedPolicy built
    have inside := Link.prepare_routes_lt preparedPolicy built
    rw [held] at inside
    refine ⟨l₁.prepare.1, by rw [routedIs]; rfl, ⟨count, sd, dd, ?_, ?_, inside⟩, ?_⟩
    · rw [Network.linkEnds_of_endpoints (by rw [routedIs])]
      exact ends
    · rw [routedIs]
      simpa [held] using length
    · -- the three stores under the same number leave only the last
      rw [routedIs, Network.replaceLink_replaceLink, Network.replaceLink_replaceLink]
      all_goals rfl

/-- Routing the next waiting link keeps every routed link inside its source. -/
theorem routeLink_advances_inside
    {n : Network}
    {cur : Link}
    {rest : List Link}
    (table : n.LinkTable)
    (resolved : ∀ r ∈ n.regions.items, r.dims.isSpecified = true)
    (member : cur ∈ n.links)
    (fresh : cur ∉ rest) :
    ⦃fun s => ⌜n.InsideExcept (cur :: rest) s.network⌝⦄
    Op.routeLink cur.id
    ⦃post⟨fun _ s => ⌜n.InsideExcept rest s.network⌝, fun _ _ => ⌜True⌝⟩⦄ := by
  apply Op.triple_of_run
  intro s progress
  have sameRegions := progress.regions
  have found := progress.waiting cur member List.mem_cons_self
  have resolvedHere : ∀ r ∈ s.network.regions.items, r.dims.isSpecified = true :=
    sameRegions ▸ resolved
  have untold := (table.made cur member).untold
  have step := Op.run_of_triple (routeLink_spec untold found resolvedHere) rfl
  have stepInside := Op.run_of_triple (routeLink_inside untold found resolvedHere) rfl
  cases ran : EStateM.run (Op.routeLink cur.id) s with
  | ok _ s' =>
      rw [ran] at step stepInside
      obtain ⟨routable, r, routed, stored⟩ := step
      obtain ⟨r', numbered, inside, stored'⟩ := stepInside
      -- both rules store a link under the number of `cur`, so they store the same one
      have present : cur.id ∈ s.network.linkIds := by
        rw [progress.linkIds]
        exact List.mem_map_of_mem member
      have same : r' = r := by
        have atR := Network.link_replaceLink_self (n := s.network) (l := r) (routed.1 ▸ present)
        rw [routed.1, ← stored, stored', ← numbered,
          Network.link_replaceLink_self (numbered ▸ present)] at atR
        exact Except.ok.inj atR
      subst same
      show n.InsideExcept rest s'.network
      rw [stored]
      exact progress.advance table member fresh
        ((Network.routable_of_regions sameRegions).mp routable)
        ((Network.routed_of_regions sameRegions).mp routed)
        ((Network.routesInside_of_regions sameRegions).mp inside)
  | error _ s' => trivial

namespace Op

/--
Routing every link from a network with a link table leaves, when it succeeds, every link routing
inside its source; every region then has dimensions, as routing checks first.
-/
theorem routeLinks_inside
    {n : Network}
    (table : n.LinkTable) :
    ⦃fun s => ⌜s.network = n⌝⦄
    routeLinks
    ⦃post⟨fun _ s => ⌜(∀ r ∈ s.network.regions.items, r.dims.isSpecified = true) ∧
        s.network.regions = n.regions ∧ s.network.order = n.order ∧
        s.network.state = .dimensionsPropagated ∧ ∀ l ∈ s.network.links, s.network.RoutesInside l⌝,
      fun _ _ => ⌜True⌝⟩⦄ := by
  mvcgen [routeLinks, -routeLink_keeps, setState] invariants
  · post⟨fun cursor s => ⌜(∀ r ∈ n.regions.items, r.dims.isSpecified = true) ∧
      n.InsideExcept cursor.1.suffix s.network⌝, fun _ _ => ⌜True⌝⟩
  case vc1.step s atN _ _ _ pref cur rest split _ s' progress =>
    subst atN
    obtain ⟨member, fresh⟩ := Network.current_of_links_eq table.distinct split
    refine Op.wp_of_triple (routeLink_advances_inside table progress.1 member fresh) ?_ ?_ progress.2
    · intro _ _ advanced
      exact ⟨progress.1, advanced⟩
    · intro _ _ _
      trivial
  case vc2.isFalse.pre s atN _ _ checked =>
    subst atN
    -- routing refuses a region without dimensions before it starts
    simp +zetaDelta [List.filter_eq_nil_iff] at checked
    exact ⟨fun r member => by simpa using checked r member, Network.InsideExcept.start table⟩
  case vc3.isFalse.post.success s atN _ _ _ _ s' done =>
    subst atN
    obtain ⟨resolved, done⟩ := done
    have sameRegions := done.regions
    refine ⟨sameRegions ▸ resolved, sameRegions, done.order, trivial, fun l present => ?_⟩
    exact (Network.routesInside_of_regions sameRegions).mpr (done.finish table l present)

/-- Inducing dimensions through a link keeps the order and the names of the regions. -/
theorem induceThrough_keeps_order (order names : List String) (id : Nat) :
    ⦃fun s => ⌜s.network.order = order ∧ s.network.regions.names = names⌝⦄
    induceThrough id
    ⦃always fun s => s.network.order = order ∧ s.network.regions.names = names⦄ := by
  mvcgen [induceThrough, -induceThrough_keeps, stepLink, -stepLink_keeps, link, region, lift,
    putRegion_spec]
  all_goals simp_all [Network.replaceLink, Network.replaceRegion_regions]

/-- Every number of induction passes keeps the order and the names of the regions. -/
theorem induceAll_keeps_order (order names : List String) (fuel : Nat) :
    ⦃fun s => ⌜s.network.order = order ∧ s.network.regions.names = names⌝⦄
    induceAll fuel
    ⦃always fun s => s.network.order = order ∧ s.network.regions.names = names⦄ := by
  induction fuel with
  | zero => mvcgen [induceAll, -induceAll_keeps]
  | succ fuel inductionHypothesis =>
      have step := induceThrough_keeps_order order names
      mvcgen [induceAll, -induceAll_keeps, -induceThrough_keeps, step] invariants
      · always fun s => s.network.order = order ∧ s.network.regions.names = names

/-- The first half of propagation leaves an order that holds every region once. -/
theorem induceDimensions_ordered :
    ⦃fun _ => ⌜True⌝⦄
    induceDimensions
    ⦃post⟨fun _ s => ⌜s.network.order.Perm s.network.regions.names⌝, fun _ _ => ⌜True⌝⟩⦄ := by
  mvcgen [induceDimensions, -induceDimensions_keeps, lift, -resetTopology_keeps, resetTopology_spec,
    -induceAll_keeps]
  case vc1.h_1 s order sorted =>
    refine wp_of_triple (induceAll_keeps_order order s.network.resetTopology.regions.names _) ?_ ?_
      ⟨rfl, rfl⟩
    · rintro _ s' ⟨ordered, named⟩
      show s'.network.order.Perm s'.network.regions.names
      rw [ordered, named]
      exact Network.sortedOrder_perm sorted
    · intro _ _ _
      trivial

/--
Propagating from a network with a link table leaves, when it succeeds, a propagated network: its
order holds every region once and every link routes inside its source.
-/
theorem propagate_propagated :
    ⦃fun s => ⌜s.network.LinkTable⌝⦄
    propagate
    ⦃post⟨fun _ s => ⌜s.network.Propagated ∧ s.network.state = .dimensionsPropagated⌝,
      fun _ _ => ⌜True⌝⟩⦄ := by
  apply triple_of_run
  intro s table
  cases induced : EStateM.run induceDimensions s with
  | error e s₂ =>
      -- propagation fails where its first half does
      have failed : EStateM.run propagate s = .error e s₂ := by
        rw [propagate_eq]
        unfold EStateM.run at induced ⊢
        simp only [bind, EStateM.bind, induced]
      rw [failed]
      trivial
  | ok _ s₂ =>
      have table₂ := run_of_triple induceDimensions_keeps table
      have ordered := run_of_triple (s := s) induceDimensions_ordered trivial
      rw [induced] at table₂ ordered
      have routing := run_of_triple (routeLinks_inside table₂) rfl
      rw [run_propagate_of_induced induced]
      cases ran : EStateM.run routeLinks s₂ with
      | ok _ s' =>
          rw [ran] at routing
          obtain ⟨-, sameRegions, sameOrder, state, routes⟩ := routing
          refine ⟨⟨?_, routes⟩, state⟩
          rw [sameOrder, sameRegions]
          exact ordered
      | error _ s' => trivial

end Op

end RegionNet
