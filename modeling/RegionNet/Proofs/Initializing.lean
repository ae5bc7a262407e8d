import RegionNet.Proofs.LaidOut

set_option mvcgen.warning false

namespace RegionNet

open Std.Do

/-!
# What initializing computes

Initializing goes over the regions in order three times: it sizes every region's outputs, then
lays out every region's inputs, then marks every region initialized. Each pass changes the
network by one function of the network per region, which this module writes down
(`Network.sizeRegion`, `Network.layRegion`, `Network.initRegion`), together with what laying out
one input does (`Network.layInput`, over the steps `Network.layoutStep` of its loop). The specs
`layoutInput_spec`, `layoutInputs_spec` and `setUpPasses_spec` say that when the operations
succeed they leave exactly what these functions give, so that what initializing establishes can
be proved of the functions, with no state in sight.
-/

namespace Network

/--
One step of laying out an input of `nodes` nodes, from the links as they stand, the splitter map
so far and the offset reached: the link of the number is found and must route `nodes` entries;
it is stored at the offset, its entries are merged in shifted by the offset, and the offset moves
past the count of its source.
-/
def layoutStep (nodes : Nat) (acc : List Link × List (List Nat) × Nat) (p : Nat × Nat) :
    Option (List Link × List (List Nat) × Nat) := do
  let l ← acc.1.find? (·.id == p.1)
  if l.routes.length ≠ nodes then none
  else pure (acc.1.map (fun x => if x.id == l.id then { l with offset := acc.2.2 } else x),
    mergeRoutes acc.2.1 l.routes acc.2.2, acc.2.2 + p.2)

/-- Laying out input `k` of region `name` over its links, given its sources' counts. -/
def layInput (n : Network) (name k : String) (counts : List Nat) : Option Network := do
  let r ← (n.region name).toOption
  let i ← (r.input k).toOption
  let nodes := r.portNodes i.regionLevel
  let acc ← (i.links.zip counts).foldlM (layoutStep nodes) (n.links, List.replicate nodes [], 0)
  let data ← (i.data.release.allocate acc.2.2).toOption
  pure (({ n with links := acc.1 } : Network).replaceRegion
    (r.setInput { i with data, splitterMap := acc.2.1, initialized := true }))

/-- The counts of the outputs feeding an input, link by link. -/
def sourceCounts (n : Network) (i : Input) : Option (List Nat) :=
  i.links.mapM fun id => (n.feed id).map (·.2)

/-- Laying out every input of a region, each with its sources' counts as they stood before. -/
def layRegion (n : Network) (name : String) : Option Network := do
  let r ← (n.region name).toOption
  let layouts ← r.inputs.items.mapM fun i => (n.sourceCounts i).map (i.name, ·)
  layouts.foldlM (fun m p => m.layInput name p.1 p.2) n

/-- Sizing the outputs of a region, which must succeed. -/
def sizeRegion (n : Network) (name : String) : Option Network := do
  let r ← (n.region name).toOption
  match r.sizeOutputs.2 with
  | .ok () => some (n.replaceRegion r.sizeOutputs.1)
  | .error _ => none

/-- Marking a region initialized. -/
def initRegion (n : Network) (name : String) : Option Network :=
  (n.region name).toOption.map fun r => n.replaceRegion r.init

/-- The network initializing leaves, from one whose dimensions are propagated: every region in
order sized, then laid out, then initialized. -/
def setUpPasses (n : Network) : Option Network := do
  let sized ← n.order.foldlM sizeRegion n
  let laid ← n.order.foldlM layRegion sized
  let ready ← n.order.foldlM initRegion laid
  pure { ready with state := .initialized }

/-- A link found by number, with its source region and output, is fed by that output. -/
theorem feed_of_found
    {n : Network}
    {id : Nat}
    {l : Link}
    {src : Region}
    {o : Output}
    (found : n.link id = .ok l)
    (srcFound : n.region l.endpoints.srcRegion = .ok src)
    (outputFound : src.output l.endpoints.srcOutput = .ok o) :
    n.feed id = some (l, o.data.count) := by
  rw [feed_eq_some_iff]
  refine ⟨src, o, ?_, region_eq_ok_iff.mp srcFound, ?_, rfl⟩
  · unfold link at found
    split at found <;> simp_all
  · unfold Region.output at outputFound
    split at outputFound <;> simp_all

end Network

/-!
## The operations compute these functions
-/

namespace Op

/-- Laying out an input leaves the network `Network.layInput` gives. -/
theorem layoutInput_spec {n : Network} {name k : String} {counts : List Nat} :
    ⦃fun s => ⌜s.network = n⌝⦄ layoutInput name k counts
    ⦃post⟨fun _ s => ⌜n.layInput name k counts = some s.network⌝, fun _ _ => ⌜True⌝⟩⦄ := by
  mvcgen [layoutInput, -layoutInput_keeps, region, lift, putRegion_spec] invariants
  · post⟨fun c s => ⌜∃ r i, n.region name = .ok r ∧ r.input k = .ok i ∧
      ( List.Cursor.prefix c.1).foldlM (Network.layoutStep (r.portNodes i.regionLevel))
        (n.links, List.replicate (r.portNodes i.regionLevel) [], 0) =
        some (s.network.links, c.2.1, c.2.2) ∧ s.network = { n with links := s.network.links }⌝,
      fun _ _ => ⌜True⌝⟩
  all_goals subst n
  case vc4.h_1.h_1.pre => exact ⟨_, _, ‹_›, ‹_›, rfl, rfl⟩
  case vc2.step.h_1.isFalse s₀ r₀ found₀ i₀ inputFound₀ nodes routes₀ pref cur suff split acc
      routesSoFar offsetSoFar s l foundLink jp fits routes' offset' progress =>
    obtain ⟨r, i, found, inputFound, folded, rest⟩ := progress
    obtain rfl : r = r₀ := Except.ok.inj (found.symm.trans found₀)
    obtain rfl : i = i₀ := Except.ok.inj (inputFound.symm.trans inputFound₀)
    refine ⟨r, i, found, inputFound, ?_, ?_⟩
    · rw [List.foldlM_append, folded]
      simp [Network.layoutStep, foundLink, fits, Network.replaceLink, Region.portNodes, nodes,
        routes', offset', routesSoFar, offsetSoFar]
    · rw [rest]
      rfl
  case vc5.h_1.h_1.post.success.h_2 s₀ r₀ found₀ i₀ inputFound₀ nodes routes₀ acc routes offset
      released data allocated s progress =>
    obtain ⟨r, i, found, inputFound, folded, rest⟩ := progress
    obtain rfl : r = r₀ := Except.ok.inj (found.symm.trans found₀)
    obtain rfl : i = i₀ := Except.ok.inj (inputFound.symm.trans inputFound₀)
    have allocated' : i.data.release.allocate acc.2 = .ok data := allocated
    rw [rest]
    simp only [Network.layInput, found, inputFound, Except.toOption, bind, Option.bind, folded,
      allocated', pure]
    rfl


/-- Mapping a reading operation over a list reads as mapping its reading function. -/
theorem mapM_reads
    {α β : Type}
    {n : Network}
    {f : α → Op β}
    {g : α → Option β}
    (xs : List α)
    (reads : ∀ x ∈ xs, ⦃fun s => ⌜s.network = n⌝⦄ f x
      ⦃post⟨fun b s => ⌜s.network = n ∧ g x = some b⌝, fun _ _ => ⌜True⌝⟩⦄) :
    ⦃fun s => ⌜s.network = n⌝⦄ xs.mapM f
    ⦃post⟨fun bs s => ⌜s.network = n ∧ xs.mapM g = some bs⌝, fun _ _ => ⌜True⌝⟩⦄ := by
  induction xs with
  | nil =>
      mvcgen [List.mapM_nil]
  | cons x rest inductionHypothesis =>
      have first := reads x List.mem_cons_self
      have later := inductionHypothesis fun y member => reads y (List.mem_cons_of_mem _ member)
      rw [List.mapM_cons]
      mvcgen [first, later]
      all_goals simp_all

theorem sourceCounts_spec {n : Network} (i : Input) :
    ⦃fun s => ⌜s.network = n⌝⦄ sourceCounts i
    ⦃post⟨fun counts s => ⌜s.network = n ∧ n.sourceCounts i = some counts⌝, fun _ _ => ⌜True⌝⟩⦄ := by
  apply mapM_reads
  intro id _
  mvcgen [link, region, lift]
  subst n
  exact ⟨rfl, by rw [Network.feed_of_found ‹_› ‹_› ‹_›]; rfl⟩

/-- Gathering the inputs' names with their sources' counts reads the network. -/
theorem inputCounts_spec {n : Network} (inputs : List Input) :
    ⦃fun s => ⌜s.network = n⌝⦄ inputs.mapM (fun i => do pure (i.name, ← sourceCounts i))
    ⦃post⟨fun layouts s => ⌜s.network = n ∧
      inputs.mapM (fun i => (n.sourceCounts i).map (i.name, ·)) = some layouts⌝,
      fun _ _ => ⌜True⌝⟩⦄ := by
  apply mapM_reads
  intro i _
  have counted := sourceCounts_spec (n := n) i
  mvcgen [counted]
  simp_all

theorem layoutInputs_spec {n : Network} (name : String) :
    ⦃fun s => ⌜s.network = n⌝⦄ layoutInputs name
    ⦃post⟨fun _ s => ⌜n.layRegion name = some s.network⌝, fun _ _ => ⌜True⌝⟩⦄ := by
  have gathered := inputCounts_spec (n := n)
  mvcgen [layoutInputs, -layoutInputs_keeps, -layoutInput_keeps, region, lift, gathered] invariants
  · post⟨fun c s => ⌜( List.Cursor.prefix c.1).foldlM (fun m p => m.layInput name p.1 p.2) n = some s.network⌝,
      fun _ _ => ⌜True⌝⟩
  case vc2.step s atN r found layouts s' gathered pref cur rest split _ s'' progress =>
    refine Op.wp_of_triple (layoutInput_spec (n := s''.network)) ?_ ?_ rfl
    · intro _ s''' laid
      rw [List.foldlM_append, progress]
      simpa using laid
    · intro _ _ _
      trivial
  case vc3.h_1.post.success.pre s atN r found layouts s' gathered =>
    rw [List.foldlM_nil, gathered.1]
    rfl
  case vc4.h_1.post.success.post.success s atN r found layouts s' gathered _ s'' laid =>
    subst atN
    obtain ⟨-, gathered⟩ := gathered
    simp only [Network.layRegion, Except.toOption, found, bind, Option.bind, gathered]
    exact laid

/-- What initializing does once dimensions are propagated. -/
def setUpPasses : Op Unit := do
  checkRequiredInputs
  let order := (← network).order
  for name in order do
    stepRegion (← region name).sizeOutputs
  for name in order do
    layoutInputs name
  for name in order do
    putRegion (← region name).init
  setState .initialized

/-- Initializing propagates first when needed, then makes its passes; an initialized network
stays as it is. -/
theorem setUp_eq : setUp = (do
    match (← network).state with
    | .unconfigured => propagate; setUpPasses
    | .dimensionsPropagated => setUpPasses
    | _ => pure ()) := by
  rfl

/-- Checking the required inputs only reads the network. -/
theorem checkRequiredInputs_reads {n : Network} :
    ⦃fun s => ⌜s.network = n⌝⦄ checkRequiredInputs
    ⦃post⟨fun _ s => ⌜s.network = n⌝, fun _ _ => ⌜True⌝⟩⦄ := by
  mvcgen [checkRequiredInputs, -checkRequiredInputs_keeps] invariants
  · post⟨fun _ s => ⌜s.network = n⌝, fun _ _ => ⌜True⌝⟩
  · post⟨fun _ s => ⌜s.network = n⌝, fun _ _ => ⌜True⌝⟩

theorem setUpPasses_spec {n : Network} :
    ⦃fun s => ⌜s.network = n⌝⦄ setUpPasses
    ⦃post⟨fun _ s => ⌜n.setUpPasses = some s.network⌝, fun _ _ => ⌜True⌝⟩⦄ := by
  have checked := checkRequiredInputs_reads (n := n)
  mvcgen [setUpPasses, -checkRequiredInputs_keeps, -layoutInputs_keeps, checked, region, lift,
    stepRegion, putRegion_spec, setState] invariants
  · post⟨fun c s => ⌜( List.Cursor.prefix c.1).foldlM Network.sizeRegion n = some s.network⌝, fun _ _ => ⌜True⌝⟩
  · post⟨fun c s => ⌜∃ sized, n.order.foldlM Network.sizeRegion n = some sized ∧
      ( List.Cursor.prefix c.1).foldlM Network.layRegion sized = some s.network⌝, fun _ _ => ⌜True⌝⟩
  · post⟨fun c s => ⌜∃ sized laid, n.order.foldlM Network.sizeRegion n = some sized ∧
      n.order.foldlM Network.layRegion sized = some laid ∧
      ( List.Cursor.prefix c.1).foldlM Network.initRegion laid = some s.network⌝, fun _ _ => ⌜True⌝⟩
  case vc2.step.h_1.h_1 s₀ atN _ s₁ atN₁ order pref cur rest split _ s progress r found _ sized =>
    rw [List.foldlM_append, progress]
    simp [Network.sizeRegion, Except.toOption, found, sized]
  case vc5.post.success.pre s₀ atN _ s₁ atN₁ order =>
    rw [atN₁]
    rfl
  case vc6.step s₀ atN _ s₁ atN₁ order _ s₂ sized pref cur rest split _ s progress =>
    obtain ⟨sized', sizedAll, laid⟩ := progress
    refine Op.wp_of_triple (layoutInputs_spec (n := s.network) cur) ?_ ?_ rfl
    · intro _ s' laidOut
      exact ⟨sized', sizedAll, by rw [List.foldlM_append, laid]; simpa using laidOut⟩
    · intro _ _ _
      trivial
  case vc7.post.success.post.success.pre s₀ atN _ s₁ atN₁ order _ s₂ sized =>
    simp only [order, atN₁] at sized
    exact ⟨s₂.network, sized, rfl⟩
  case vc8.step.h_1 s₀ atN _ s₁ atN₁ order _ s₂ sized _ s₃ laid pref cur rest split _ s progress r
      found =>
    obtain ⟨sized', laid', sizedAll, laidAll, inited⟩ := progress
    refine ⟨sized', laid', sizedAll, laidAll, ?_⟩
    rw [List.foldlM_append, inited]
    simp [Network.initRegion, Except.toOption, found]
  case vc10.post.success.post.success.post.success.pre s₀ atN _ s₁ atN₁ order _ s₂ sized _ s₃
      progress =>
    obtain ⟨sized', sizedAll, laid⟩ := progress
    simp only [order, atN₁] at laid
    exact ⟨sized', s₃.network, sizedAll, laid, rfl⟩
  case vc11.post.success.post.success.post.success.post.success s₀ atN _ s₁ atN₁ order _ s₂ sized _
      s₃ laid _ s progress =>
    obtain ⟨sized', laid', sizedAll, laidAll, inited⟩ := progress
    simp only [order, atN₁] at inited
    simp only [Network.setUpPasses, sizedAll, laidAll, inited, bind, Option.bind, pure]

end Op

end RegionNet
