import RegionNet.Proofs.InputLayout

namespace RegionNet

/-!
# Initializing lays out the network

Initializing makes three passes over the regions in order (`Network.setUpPasses`): it sizes every
output, lays out every input over the links feeding it, and marks every region initialized. From
a wired network propagation left (`Network.Propagated`), the passes leave a laid-out network
(`Network.setUpPasses_laidOut`): every input's splitter map has an entry per node, its buffer holds
the counts of the outputs feeding it, each link at the sum of the counts before it, and every
position the map names lies inside the buffer.
-/

namespace Region

/-- A region but for whether it is initialized: all the last pass changes. -/
def uninitialized (r : Region) : Region := { r with initialized := false }

@[simp] theorem uninitialized_init (r : Region) : r.init.uninitialized = r.uninitialized := rfl

variable {r r' : Region}

/-- Regions alike to sizing report the same elements per node on the same nodes, so size their
outputs alike. -/
theorem sized_of_sizedView (same : r'.sizedView = r.sizedView) {k : String} {o : Output} :
    r'.Sized k o ↔ r.Sized k o := by
  obtain ⟨name, dims, spec, impl, -⟩ : r'.name = r.name ∧ r'.dims = r.dims ∧ r'.spec = r.spec ∧
      r'.impl = r.impl ∧ r'.outputs = r.outputs := by
    simpa [sizedView] using same
  refine sized_iff_of_counts ?_ ?_
  · funext k
    simp [elementCount, spec, impl, name]
  · funext level
    simp [portNodes, nodeCount, dims]

end Region

namespace Network

/-- Initializing a region, when it succeeds, stores the region found under its name initialized. -/
theorem initRegion_eq_some {n m : Network} {name : String} (inited : n.initRegion name = some m) :
    ∃ r, n.region name = .ok r ∧ m = n.replaceRegion r.init := by
  simp only [initRegion, Option.map_eq_some_iff] at inited
  obtain ⟨r, found, rfl⟩ := inited
  exact ⟨r, by cases h : n.region name <;> simp_all [Except.toOption], rfl⟩

/--
Initializing the regions of the laid-out network `laid`, so far, in `m`: the network keeps the
links and the order, every region is the one of its name in `laid` but for being initialized,
and the regions of `done` are initialized.
-/
structure Initializing (laid m : Network) (done : Set String) : Prop where
  links : m.links = laid.links
  order : m.order = laid.order
  regions : m.regions.entries.map (fun e => (e.1, e.2.uninitialized)) =
    laid.regions.entries.map (fun e => (e.1, e.2.uninitialized))
  initialized : ∀ name ∈ done, ∀ r, m.region name = .ok r → r.initialized = true

namespace Initializing

variable {laid m m' : Network} {done : Set String}

/-- Nothing is initialized before the first region. -/
theorem start (laid : Network) : Initializing laid laid ∅ :=
  ⟨rfl, rfl, rfl, fun _ absent => absent.elim⟩

/-- What is initialized of more regions is initialized of fewer. -/
theorem mono (initializing : Initializing laid m done) {done' : Set String} (fewer : done' ⊆ done) :
    Initializing laid m done' :=
  { initializing with initialized := fun name member => initializing.initialized name (fewer member) }

/-- The regions keep their names. -/
theorem names (initializing : Initializing laid m done) : m.regions.names = laid.regions.names := by
  simpa [Collection.names, Function.comp_def] using
    congrArg (List.map (·.1)) initializing.regions

/-- Initializing one region more, of a wired laid-out network. -/
theorem step (initializing : Initializing laid m done) (wired : laid.Wired)
    {name : String} (inited : m.initRegion name = some m') :
    Initializing laid m' (insert name done) := by
  obtain ⟨r, found, rfl⟩ := initRegion_eq_some inited
  have apart : m.regions.names.Nodup := initializing.names ▸ wired.distinct
  obtain ⟨r₀, located₀, same⟩ := Collection.find?_of_map_eq initializing.regions
    (region_eq_ok_iff.mp found)
  have named : r.name = name := by
    have storedName : r₀.name = name := wired.named _ (Collection.mem_of_find? located₀)
    rw [← storedName]
    simpa [Region.uninitialized] using (congrArg Region.name same).symm
  have stored : m.region r.init.name = .ok r := by
    rw [Region.init, named]
    exact found
  refine ⟨initializing.links, initializing.order, ?_, ?_⟩
  · exact (map_replaceRegion Region.uninitialized apart stored (Region.uninitialized_init r)).trans
      initializing.regions
  · intro name' member r' found'
    rw [region_replaceRegion] at found'
    cases before : m.region name' with
    | error e => simp [before] at found'
    | ok x =>
        simp only [before, Except.ok.injEq] at found'
        split at found'
        · rw [← found']
          rfl
        · rename_i other
          rw [← found']
          refine initializing.initialized name' ((Set.mem_insert_iff.mp member).resolve_left ?_) x
            before
          rwa [Region.init, named] at other

/-- Initializing the regions of a list one after the other initializes each. -/
theorem foldlM_initRegion (wired : laid.Wired) {names : List String}
    (initializing : Initializing laid m done) (ran : names.foldlM Network.initRegion m = some m') :
    Initializing laid m' (done ∪ {x | x ∈ names}) := by
  induction names generalizing m done with
  | nil =>
      simp only [List.foldlM_nil, pure, Option.some.injEq] at ran
      subst ran
      exact initializing.mono fun x member => by simpa using member
  | cons name rest inductionHypothesis =>
      rw [List.foldlM_cons] at ran
      obtain ⟨next, inited, ran⟩ := Option.bind_eq_some_iff.mp ran
      refine (inductionHypothesis (initializing.step wired inited) ran).mono ?_
      rintro x (earlier | listed)
      · exact .inl (Set.mem_insert_of_mem _ earlier)
      · rcases List.mem_cons.mp listed with first | later
        · exact .inl (by rw [first]; exact Set.mem_insert _ _)
        · exact .inr later

end Initializing

/-- Regions alike but for initialization hold the same outputs. -/
theorem outputsView_of_uninitialized {m n : Network}
    (same : m.regions.entries.map (fun e => (e.1, e.2.uninitialized)) =
      n.regions.entries.map (fun e => (e.1, e.2.uninitialized))) :
    m.outputsView = n.outputsView := by
  simpa [outputsView, Region.uninitialized, Function.comp_def] using
    congrArg (List.map fun e => (e.1, e.2.outputs)) same

/--
Initializing a wired network propagation left lays it out: when the three passes succeed, the
network they leave has its order holding every region once, and every region initialized, with
its outputs sized and its inputs laid out over the links feeding them.
-/
theorem setUpPasses_laidOut {n n' : Network} (wired : n.Wired) (propagated : n.Propagated)
    (passes : n.setUpPasses = some n') : n'.LaidOut := by
  simp only [setUpPasses, bind, Option.bind_eq_some_iff, pure, Option.some.injEq] at passes
  obtain ⟨sized, sizedRan, laid, laidRan, ready, readyRan, rfl⟩ := passes
  have listed : ∀ name ∈ n.regions.names, name ∈ n.order := fun name member =>
    propagated.ordered.mem_iff.mpr member
  -- the three passes, each an invariant carried over the order
  have sizing := (Sizing.start wired).foldlM_sizeRegion sizedRan
  have inside : sized.FeedsInside := sizing.feedsInside
    (fun name member => .inr (listed name (sizing.names ▸ member))) propagated.routes
  have laying := (Laying.start sizing.wired).foldlM_layRegion inside laidRan
  have initializing := (Initializing.start laid).foldlM_initRegion laying.wired readyRan
  have namesLaid : laid.regions.names = sized.regions.names := by
    simpa [Collection.names, Function.comp_def] using congrArg (List.map (·.1)) laying.regions
  have names : ready.regions.names = n.regions.names := by
    rw [initializing.names, namesLaid, sizing.names]
  have feeds : ({ ready with state := .initialized } : Network).feed = laid.feed := by
    funext id
    exact feed_eq_of_find?_eq (outputsView_of_uninitialized initializing.regions)
      (by rw [initializing.links])
  refine ⟨?_, ?_⟩
  · show ready.order.Perm ready.regions.names
    rw [initializing.order, laying.order, sizing.order, names]
    exact propagated.ordered
  · intro r member
    obtain ⟨e, stored, rfl⟩ := List.mem_map.mp member
    have found : ready.region e.1 = .ok e.2 :=
      region_of_mem (names ▸ wired.distinct) stored
    have inOrder : e.1 ∈ n.order := listed e.1 (names ▸ List.mem_map_of_mem stored)
    -- the region as the last two passes found it
    obtain ⟨r₁, located₁, sameInit⟩ := Collection.find?_of_map_eq initializing.regions
      (region_eq_ok_iff.mp found)
    obtain ⟨r₂, located₂, sameSized⟩ := Collection.find?_of_map_eq laying.regions located₁
    have outputsSized := sizing.sized e.1 (.inr inOrder) r₂ (region_eq_ok_iff.mpr located₂)
    obtain ⟨name, -, spec, impl, inputs, outputs, dims, -⟩ : r₁.name = e.2.name ∧
        r₁.typeName = e.2.typeName ∧ r₁.spec = e.2.spec ∧ r₁.impl = e.2.impl ∧
        r₁.inputs = e.2.inputs ∧ r₁.outputs = e.2.outputs ∧ r₁.dims = e.2.dims ∧ _ := by
      simpa [Region.uninitialized] using sameInit
    have view : e.2.sizedView = r₂.sizedView := by
      rw [sameSized]
      simp [Region.sizedView, name, dims, spec, impl, outputs]
    have nodes : e.2.portNodes = r₁.portNodes := by
      funext level
      simp [Region.portNodes, Region.nodeCount, dims]
    obtain ⟨-, sizedDims, -, -, sizedOutputs⟩ : e.2.name = r₂.name ∧ e.2.dims = r₂.dims ∧
        e.2.spec = r₂.spec ∧ e.2.impl = r₂.impl ∧ e.2.outputs = r₂.outputs := by
      simpa [Region.sizedView] using view
    refine ⟨initializing.initialized e.1 (.inr inOrder) e.2 found, sizedDims ▸ outputsSized.specified,
      sizedDims ▸ outputsSized.counted, ?_, ?_, ?_, ?_⟩
    · intro p member
      exact (Region.sized_of_sizedView view).mpr (outputsSized.outputs p (sizedOutputs ▸ member))
    · intro p member
      obtain ⟨-, fs, fed, layout⟩ := laying.laid (e.1, p.1) (.inr inOrder) r₁
        (region_eq_ok_iff.mpr located₁) p (inputs ▸ member) rfl
      exact ⟨fs, by rw [feeds]; exact fed, by rw [nodes]; exact layout⟩
    · intro p member q present key
      obtain ⟨alike, -⟩ := laying.laid (e.1, q.1) (.inr inOrder) r₁
        (region_eq_ok_iff.mpr located₁) q (inputs ▸ present) rfl
      rw [alike p (inputs ▸ member) key]
    · intro p member q present key
      rw [outputsSized.alike p (sizedOutputs ▸ member) q (sizedOutputs ▸ present) key.symm]

end Network

end RegionNet
