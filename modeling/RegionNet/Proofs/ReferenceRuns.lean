import RegionNet.Proofs.Declared
import RegionNet.Proofs.Merging

set_option mvcgen.warning false

namespace RegionNet

open Std.Do

/-!
# Runs of networks of reference regions

A reference region has one input and one output, both of doubles on every node; its step reads
the input on each node, writes the elements per node its state asks for, and fails when the
output does not hold exactly that many. In a network set up from a reachable session, every input
is laid out over the links it lists and every output is sized to its elements per node, in bytes
of its own (`Network.Running`). When every region is of the reference type with its declared
ports (`Network.ReferenceRunning`), a step of any region merges its input from the outputs
feeding it, which then reads on every node (`Op.computeRegion_reads_sources`), so the region
computes; storing back what it computed keeps the network so. Every iteration, every run and
every sequence of runs then succeeds (`Op.runs_succeed`), and the theorem
`setUp_lays_out_and_runs` puts the layout and the runs together.
-/

namespace Collection

/-- A collection whose names are one name holds one entry, under it. -/
theorem eq_singleton_of_names {α : Type} {c : Collection α} {k : String} (named : c.names = [k]) :
    ∃ x, c.entries = [(k, x)] := by
  unfold names at named
  obtain ⟨⟨k', x⟩, entry, rfl⟩ := List.map_eq_singleton_iff.mp named
  exact ⟨x, entry⟩

end Collection

namespace Region

variable {r : Region}

/-- A region of the reference type: declared as that type and running its implementation. -/
structure IsReference (r : Region) : Prop where
  spec : r.spec = Reference.spec
  impl : ∃ st, r.impl = .reference st

/-- Whether a region is of the reference type, as a check that evaluates. -/
def isReference (r : Region) : Bool :=
  r.spec == Reference.spec && r.impl matches .reference _

/-- The check finds exactly the regions of the reference type. -/
theorem isReference_iff : r.isReference = true ↔ r.IsReference := by
  unfold isReference
  constructor
  · intro checked
    simp only [Bool.and_eq_true, beq_iff_eq] at checked
    obtain ⟨spec, running⟩ := checked
    split at running
    · rename_i st runs
      exact ⟨spec, st, runs⟩
    · cases running
  · rintro ⟨spec, st, runs⟩
    simp [spec, runs]

/-- A reference region with its declared ports has one input, `bottomUpIn`, and one output,
`bottomUpOut`, both of doubles on every node. -/
theorem IsReference.ports (reference : r.IsReference) (declared : r.Declared) :
    ∃ i o, r.inputs.entries = [(Reference.inputName, i)] ∧
      r.outputs.entries = [(Reference.outputName, o)] ∧
      i.name = Reference.inputName ∧ i.data.elementType = .real64 ∧ i.regionLevel = false ∧
      o.name = Reference.outputName ∧ o.data.elementType = .real64 ∧ o.regionLevel = false := by
  have inputNames : r.inputs.names = [Reference.inputName] := by
    rw [declared.inputNames, reference.spec]
    decide
  have outputNames : r.outputs.names = [Reference.outputName] := by
    rw [declared.outputNames, reference.spec]
    decide
  obtain ⟨i, inputs⟩ := Collection.eq_singleton_of_names inputNames
  obtain ⟨o, outputs⟩ := Collection.eq_singleton_of_names outputNames
  have inputShape := declared.inputShapes Reference.inputName
  have outputShape := declared.outputShapes Reference.outputName
  rw [reference.spec] at inputShape outputShape
  simp only [Collection.find?, inputs, outputs, List.find?_cons, beq_self_eq_true,
    Option.map_some] at inputShape outputShape
  have iShape : i.shape = (.real64, false) := Option.some.inj (inputShape.trans (by decide))
  have oShape : o.shape = (.real64, false) := Option.some.inj (outputShape.trans (by decide))
  have iNamed := declared.inputs _ (by rw [inputs]; exact .head _)
  have oNamed := declared.outputs _ (by rw [outputs]; exact .head _)
  simp only [Input.shape, Output.shape, Prod.mk.injEq] at iShape oShape
  exact ⟨i, o, inputs, outputs, iNamed, iShape.1, iShape.2, oNamed, oShape.1, oShape.2⟩


/-- Replacing an input keeps a region of the reference type. -/
theorem IsReference.setInput (reference : r.IsReference) (i : Input) :
    (r.setInput i).IsReference :=
  ⟨reference.spec, reference.impl⟩

/-- Computing keeps a region of the reference type. -/
theorem IsReference.compute (reference : r.IsReference) {r' : Region}
    (computed : r.compute = .ok r') : r'.IsReference := by
  obtain ⟨st, impl⟩ := reference.impl
  simp only [Region.compute, Implementation.compute, impl, bind, Except.bind, pure, Except.pure,
    Functor.map, Except.map] at computed
  split at computed
  · cases computed
  · split at computed
    · cases computed
    · rename_i stepped
      split at stepped
      · cases stepped
      · cases stepped
        cases computed
        exact ⟨reference.spec, _, rfl⟩

/-- A reference region reports, for its output, the elements per node its state asks for. -/
theorem IsReference.elementCount_eq {st : Reference.State} {perNode : Nat}
    (reference : r.IsReference) (impl : r.impl = .reference st)
    (counted : r.elementCount Reference.outputName = .ok perNode) : perNode = st.perNode := by
  -- the declaration leaves the count open, so the state's count is asked for
  obtain ⟨d, declaredCount, unsized⟩ : ∃ d, r.spec.outputs.find? Reference.outputName = some d ∧
      d.count = 0 := by
    rw [reference.spec]
    exact ⟨_, rfl, rfl⟩
  simp only [Region.elementCount, declaredCount, unsized, Implementation.elementCount, impl,
    Reference.elementCount, bind, Except.bind, pure, Except.pure, gt_iff_lt, Nat.lt_irrefl,
    ↓reduceIte] at counted
  split at counted
  · cases counted
  · exact (Except.ok.inj counted).symm

end Region

namespace Buffer

/-- An owned buffer of a type can be written as that type, all its elements. -/
theorem writableCount_of_owned {b : Buffer} (owned : b.ownership = .owned) :
    b.writableCount b.elementType = .ok b.count := by
  have writable : b.writable = .ok () := writable_eq_ok.mpr owned
  simp [writableCount, checkType, writable, bind, Except.bind, pure, Except.pure]

end Buffer

namespace Reference

/-- Every node writes `perNode` elements. -/
theorem length_nodeOutput (st : State) (node : Nat) (xs : List Binary64) :
    (nodeOutput st node xs).length = st.perNode := by
  unfold nodeOutput
  split
  · simp [*]
  · simp only [List.length_cons, List.length_map, List.length_range]
    omega

/-- A step succeeds when its input reads at every node and its output owns bytes of doubles, one
for each element the nodes write. -/
theorem compute_succeeds {st : State} {io : RegionIo} {i : Input} {o : Output}
    (input : io.input inputName = .ok i)
    (reads : ∀ node < io.nodeCount, ∃ xs, i.nodeInput node .real64 = .ok xs)
    (output : io.output outputName = .ok o) (typed : o.data.elementType = .real64)
    (owned : o.data.ownership = .owned) (held : o.data.count = io.nodeCount * st.perNode) :
    ∃ st' io', compute st io = .ok (st', io') := by
  let row := fun node => do
    let xs ← i.nodeInput node .real64
    pure (nodeOutput st node (xs.map Element.double?))
  obtain ⟨rows, mapped, counted⟩ := mapM_except_ok_of_forall row (List.range io.nodeCount)
    fun node member => by
      obtain ⟨xs, read⟩ := reads node (List.mem_range.mp member)
      exact ⟨nodeOutput st node (xs.map Element.double?),
        by simp [row, read, bind, Except.bind, pure, Except.pure]⟩
  -- every node writes `perNode` elements, so the output holds exactly what they write
  have each : ∀ written ∈ rows, written.length = st.perNode := by
    have paired := (mapM_except_eq_ok_iff row _ rows).mp mapped
    clear mapped counted
    generalize List.range io.nodeCount = nodes at paired
    induction paired with
    | nil => intro _ member; cases member
    | @cons node written nodes rows' wrote _ inductionHypothesis =>
        intro written' member
        rcases List.mem_cons.mp member with rfl | later
        · simp only [row, bind, Except.bind] at wrote
          split at wrote
          · cases wrote
          · cases wrote
            exact length_nodeOutput st node _
        · exact inductionHypothesis written' later
  have written : rows.flatten.length = o.data.count := by
    rw [List.length_flatten, List.map_congr_left each, List.map_const', List.sum_replicate,
      counted, List.length_range, held, smul_eq_mul]
  have writableOwn := Buffer.writableCount_of_owned owned
  have writable : o.data.writableCount .real64 = .ok o.data.count := typed ▸ writableOwn
  have writeOk : ∃ io', io.writeOutput outputName ((rows.flatten).map .double) = .ok io' := by
    simp [RegionIo.writeOutput, output, writableOwn, bind, Except.bind, liftData, pure, Except.pure]
  obtain ⟨io', wrote⟩ := writeOk
  refine ⟨{ st with iteration := wrap (st.iteration + 1) }, io', ?_⟩
  simp only [row, bind, Except.bind, pure, Except.pure] at mapped
  simp only [compute, input, output, writable, liftData, bind, Except.bind, pure, Except.pure,
    mapped, written, ne_eq, not_true_eq_false, ↓reduceIte, wrote]

end Reference

namespace Region

variable {r : Region}

/-- A reference region with its declared ports, initialized, with its output sized and owning its
bytes, computes when its input reads at every node. -/
theorem IsReference.compute_ok (reference : r.IsReference) (declared : r.Declared)
    (initialized : r.initialized = true) (sized : ∀ p ∈ r.outputs.entries, r.Sized p.1 p.2)
    (reads : ∀ p ∈ r.inputs.entries, ∀ node < r.nodeCount,
      ∃ xs, p.2.nodeInput node .real64 = .ok xs) :
    ∃ r', r.compute = .ok r' := by
  obtain ⟨st, impl⟩ := reference.impl
  obtain ⟨i, o, inputs, outputs, -, -, -, -, typed, level⟩ := reference.ports declared
  have outputSized := sized _ (by rw [outputs]; exact .head _)
  obtain ⟨perNode, counted, held⟩ := outputSized.count
  obtain ⟨bytes, owned, -⟩ := outputSized.owned
  obtain rfl := reference.elementCount_eq impl counted
  let io : RegionIo := ⟨r.name, r.dims, r.inputs, r.outputs⟩
  have input : io.input Reference.inputName = .ok i := by
    simp [io, RegionIo.input, Collection.find?, inputs]
  have output : io.output Reference.outputName = .ok o := by
    simp [io, RegionIo.output, Collection.find?, outputs]
  have ownedO : o.data.ownership = .owned := by
    simp only at owned
    simp [Buffer.ownership, owned]
  have heldO : o.data.count = io.nodeCount * st.perNode := by
    simpa [portNodes, level, io, RegionIo.nodeCount, nodeCount] using held
  obtain ⟨st', io', stepped⟩ := Reference.compute_succeeds input
    (fun node below => reads _ (by rw [inputs]; exact .head _) node below) output typed ownedO heldO
  simp only [Region.compute, initialized, Implementation.compute, impl, stepped, io,
    bind, Except.bind, pure, Except.pure, Functor.map, Except.map, Bool.not_true,
    Bool.false_eq_true, ↓reduceIte]
  exact ⟨_, rfl⟩

end Region


namespace Network

variable {n : Network} {name : String} {r : Region}

/-- A running network of reference regions, each with the ports its type declares. -/
structure ReferenceRunning (n : Network) : Prop where
  running : n.Running
  declared : n.Declared
  references : ∀ r ∈ n.regions.items, r.IsReference

/-- The same regions, links and order, with the next link number no lower, in a state set up when
the first one's is, keep a network of reference regions running. -/
theorem ReferenceRunning.of_same {m : Network} (running : n.ReferenceRunning)
    (regions : m.regions = n.regions) (links : m.links = n.links) (order : m.order = n.order)
    (next : n.nextLink ≤ m.nextLink) (setUp : n.state.isSetUp = true → m.state.isSetUp = true) :
    m.ReferenceRunning :=
  ⟨running.running.of_same regions links order next setUp, running.declared.of_regions regions,
    fun r member => running.references r (regions ▸ member)⟩

/-- Every region the order lists is found. -/
theorem ReferenceRunning.region_of_order (running : n.ReferenceRunning) (listed : name ∈ n.order) :
    ∃ r, n.region name = .ok r := by
  exact region_isOk_iff.mpr (running.running.laidOut.ordered.subset listed)

/-- An output feeding a link of a running network of reference regions holds its bytes, of
doubles. -/
theorem ReferenceRunning.source (running : n.ReferenceRunning) {l : Link} {o : Output}
    (sourced : n.source l = some o) : o.data.elementType = .real64 ∧ o.Holds := by
  simp only [Network.source, Option.bind_eq_some_iff] at sourced
  obtain ⟨src, srcFound, outputFound⟩ := sourced
  have member : src ∈ n.regions.items := List.mem_map_of_mem (Collection.mem_of_find? srcFound)
  obtain ⟨-, o', -, outputs, -, -, -, -, typed, -⟩ :=
    (running.references src member).ports (running.declared.find srcFound)
  have present := Collection.mem_of_find? outputFound
  rw [outputs, List.mem_singleton, Prod.mk.injEq] at present
  obtain ⟨-, rfl⟩ := present
  exact ⟨typed, running.running.laidOut.holds src member _ (by rw [outputs]; exact .head _)⟩

/-- The input of a region of a running network of reference regions is fed by the links it lists,
laid out over its nodes. -/
theorem ReferenceRunning.fedBy (running : n.ReferenceRunning) (found : n.region name = .ok r) :
    ∃ i feeds, r.inputs.entries = [(Reference.inputName, i)] ∧ i.name = Reference.inputName ∧
      i.data.elementType = .real64 ∧ i.FedBy n r.nodeCount feeds := by
  have member : r ∈ n.regions.items := List.mem_map_of_mem (mem_of_region found)
  obtain ⟨i, -, inputs, -, named, typed, level, -⟩ :=
    (running.references r member).ports (running.declared.region found)
  obtain ⟨feeds, fed, laid⟩ :=
    (running.running.laidOut.regions r member).inputs _ (by rw [inputs]; exact .head _)
  simp only [Region.portNodes, level, Bool.false_eq_true, ↓reduceIte] at laid
  refine ⟨i, feeds, inputs, named, typed, fed, laid, fun f fed' => ?_⟩
  obtain ⟨id, -, feedOf⟩ := feed_of_mem_mapM fed fed'
  obtain ⟨-, o, sourced, -⟩ := feed_eq_some_iff_source.mp feedOf
  obtain ⟨sourceTyped, holds⟩ := running.source sourced
  exact ⟨o, sourced, sourceTyped.trans typed.symm, holds⟩

/-- Storing back a found region with merged data in its input, then what it computed from it,
keeps a network of reference regions running. -/
theorem ReferenceRunning.computed (running : n.ReferenceRunning) {k : String} {i i' : Input}
    {b : Buffer} {r' : Region} (found : n.region name = .ok r) (inputFound : r.input k = .ok i)
    (set : i.setData b = .ok i') (computed : (r.setInput i').compute = .ok r') :
    ((n.replaceRegion (r.setInput i')).replaceRegion r').ReferenceRunning := by
  have member : r ∈ n.regions.items := List.mem_map_of_mem (mem_of_region found)
  have named : r.name = name := running.running.wired.named _ (mem_of_region found)
  have stored : (n.replaceRegion (r.setInput i')).region name = .ok (r.setInput i') := by
    rw [← named]
    exact region_replaceRegion_self (named ▸ found)
  have reference := (running.references r member).setInput i'
  have declared := (running.declared.region found).setInput inputFound
    (Input.setData_shape set).1 (Input.setData_shape set).2
  refine ⟨(running.running.storeInput found inputFound set).storeComputed stored computed,
    (running.declared.replaceRegion declared).replaceRegion (declared.compute computed), ?_⟩
  exact forall_replaceRegion (forall_replaceRegion running.references reference)
    (reference.compute computed)

end Network

namespace Op

/-- A region with one input, merged without changing the session, stored back with the merged data
and computed: the session after the step stores the region with its input, then what it
computed. -/
theorem computeRegion_run {t : Session} {name : String} {r r' : Region} {i i' : Input}
    {b : Buffer} (found : t.network.region name = .ok r) (single : r.inputs.items = [i])
    (merged : EStateM.run (consolidate i) t = .ok b t) (inputFound : r.input i.name = .ok i)
    (set : i.setData b = .ok i') (named : r.name = name)
    (computed : (r.setInput i').compute = .ok r') :
    EStateM.run (computeRegion name) t =
      .ok () { t with network := (t.network.replaceRegion (r.setInput i')).replaceRegion r' } := by
  have stored : (t.network.replaceRegion (r.setInput i')).region name = .ok (r.setInput i') := by
    rw [← named]
    exact Network.region_replaceRegion_self (named ▸ found)
  have mergedRun : consolidate i t = .ok b t := merged
  simp only [computeRegion, region, network, lift, EStateM.run, bind, EStateM.bind, get, getThe,
    MonadStateOf.get, EStateM.get, pure, EStateM.pure, found, single, List.mapM_cons,
    List.mapM_nil, mergedRun, forIn, List.forIn'_cons, List.forIn'_nil, EStateM.modifyGet,
    inputFound, set, putRegion_eq, modifyNetwork, modify, modifyGet, MonadStateOf.modifyGet,
    stored, computed]

/-- A step of a region of a running network of reference regions succeeds, and reads, on each
node, the elements the maps of its input's links name for the node, the links in the input's
order, from the outputs feeding them as they stand when the step begins. -/
theorem computeRegion_reads_sources {t : Session} {name : String} {r : Region}
    (running : t.network.ReferenceRunning) (found : t.network.region name = .ok r) :
    ∃ i feeds i' r', r.inputs.items = [i] ∧ i.links.mapM t.network.feed = some feeds ∧
      (∀ node < r.nodeCount, ∃ ys, i'.nodeInput node .real64 = .ok ys ∧
        ys.map some = feeds.flatMap fun f => (f.1.routes.getD node []).map fun x =>
          (t.network.sourceValues .real64 f.1).bind (·[x]?)) ∧
      (r.setInput i').compute = .ok r' ∧
      EStateM.run (computeRegion name) t =
        .ok () { t with network := (t.network.replaceRegion (r.setInput i')).replaceRegion r' } ∧
      ((t.network.replaceRegion (r.setInput i')).replaceRegion r').ReferenceRunning := by
  have member : r ∈ t.network.regions.items := List.mem_map_of_mem (Network.mem_of_region found)
  have named : r.name = name := running.running.wired.named _ (Network.mem_of_region found)
  obtain ⟨i, feeds, inputs, inputNamed, typed, fedBy⟩ := running.fedBy found
  obtain ⟨b, i', merged, set, reads⟩ := consolidate_reads_sources fedBy
  rw [typed] at reads
  have single : r.inputs.items = [i] := by simp [Collection.items, inputs]
  have inputFound : r.input i.name = .ok i := by
    simp [Region.input, Collection.find?, inputs, inputNamed]
  -- the merged data is stored in the one input, which then reads at every node
  have stored : (r.setInput i').inputs.entries = [(Reference.inputName, i')] := by
    simp [Region.setInput, inputs, (Input.setData_shape set).1, inputNamed]
  have laid := running.running.laidOut.regions r member
  obtain ⟨r', computed⟩ := ((running.references r member).setInput i').compute_ok
    ((running.declared.region found).setInput inputFound (Input.setData_shape set).1
      (Input.setData_shape set).2)
    laid.initialized (fun p present => ⟨(laid.outputs p present).count, (laid.outputs p present).owned⟩)
    (fun p present node below => by
      rw [stored, List.mem_singleton] at present
      subst present
      obtain ⟨ys, read, -⟩ := reads node below
      exact ⟨ys, read⟩)
  exact ⟨i, feeds, i', r', single, fedBy.fed, reads, computed,
    computeRegion_run found single merged inputFound set named computed,
    running.computed found inputFound set computed⟩

/-- A step of a region the order lists never fails in a running network of reference regions,
and keeps it running and its order. -/
theorem computeRegion_succeeds (name : String) (order : List String) :
    ⦃fun s => ⌜s.network.ReferenceRunning ∧ s.network.order = order ∧ name ∈ order⌝⦄
    computeRegion name
    ⦃post⟨fun _ s => ⌜s.network.ReferenceRunning ∧ s.network.order = order⌝,
      fun _ _ => ⌜False⌝⟩⦄ := by
  apply triple_of_run
  rintro t ⟨running, rfl, listed⟩
  obtain ⟨r, found⟩ := running.region_of_order listed
  obtain ⟨_, _, _, _, _, _, _, _, ran, kept⟩ := computeRegion_reads_sources running found
  rw [ran]
  exact ⟨kept, rfl⟩

/-- An iteration over the order of a running network of reference regions never fails, and keeps
it running and its order. -/
theorem iterate_succeeds (order : List String) :
    ⦃fun s => ⌜s.network.ReferenceRunning ∧ s.network.order = order⌝⦄ iterate order
    ⦃post⟨fun _ s => ⌜s.network.ReferenceRunning ∧ s.network.order = order⌝,
      fun _ _ => ⌜False⌝⟩⦄ := by
  have step := fun name => computeRegion_succeeds name order
  mvcgen [iterate, -iterate_keeps, -computeRegion_keeps, step, region, lift, setState] invariants
  · post⟨fun _ s => ⌜s.network.ReferenceRunning ∧ s.network.order = order⌝, fun _ _ => ⌜False⌝⟩
  · post⟨fun _ s => ⌜s.network.ReferenceRunning ∧ s.network.order = order⌝, fun _ _ => ⌜False⌝⟩
  -- counting the iteration and setting the state leave regions, links and order alone
  case vc8.pre s held _ =>
    exact ⟨held.1.of_same rfl rfl rfl le_rfl id, held.2⟩
  case vc9.post.success _ _ _ _ s held _ _ =>
    exact ⟨held.1.of_same rfl rfl rfl le_rfl fun _ => rfl, held.2⟩
  -- every region the order lists is found, and computes
  case vc1.step.h_1.isTrue.pre =>
    rename_i split _ s held _ _ _
    refine ⟨held.1, held.2, ?_⟩
    rw [split]
    exact List.mem_append_right _ (.head _)
  case vc4.step.h_2 =>
    rename_i split _ s held _ failed
    obtain ⟨r, found⟩ := held.1.region_of_order (by rw [held.2, split]; exact List.mem_append_right _ (.head _))
    rw [found] at failed
    cases failed

/-- A run of a running network of reference regions never fails, and keeps it running. -/
theorem run_succeeds (count : Nat) (s₀ : Session) (running : s₀.network.ReferenceRunning) :
    ⦃fun s => ⌜s = s₀⌝⦄ run count
    ⦃post⟨fun _ s => ⌜s.network.ReferenceRunning⌝, fun _ _ => ⌜False⌝⟩⦄ := by
  mvcgen [run, -run_keeps, -setUp_keeps, -iterate_keeps, iterate_succeeds] invariants
  · post⟨fun _ s => ⌜s.network.ReferenceRunning ∧ s.network.order = s₀.network.order⌝,
      fun _ _ => ⌜False⌝⟩
  -- a running network is set up already, so it is not set up again
  case vc1.h_1 s atStart _ state =>
    subst atStart
    have setUp := running.running.setUp
    rw [state] at setUp
    cases setUp
  case vc2.h_2 s atStart _ state =>
    subst atStart
    have setUp := running.running.setUp
    rw [state] at setUp
    cases setUp
  case vc5.h_3.pre s atStart _ _ _ _ _ _ =>
    subst atStart
    exact ⟨running, rfl⟩
  -- every iteration runs over the order read before the first
  case vc3.step.pre s' atStart _ _ _ _ _ _ _ _ _ _ _ s held =>
    subst atStart
    exact held
  case vc4.step.post.success s' atStart _ _ _ _ _ _ _ _ _ _ _ _ _ _ s held =>
    subst atStart
    exact held
  case vc6.h_3.post.success _ _ _ _ _ _ _ _ _ s held =>
    exact held.1

/-- Runs of any numbers of iterations, one after another, of a running network of reference regions
all succeed, and leave it running. -/
theorem runs_succeed (counts : List Nat) {s : Session} (running : s.network.ReferenceRunning) :
    ∃ s', EStateM.run (counts.forM run) s = .ok () s' ∧ s'.network.ReferenceRunning := by
  induction counts generalizing s with
  | nil => exact ⟨s, rfl, running⟩
  | cons count rest inductionHypothesis =>
      have ran := run_of_triple (run_succeeds count s running) (s := s) rfl
      split at ran
      · rename_i s₁ first
        obtain ⟨s', later, kept⟩ := inductionHypothesis ran
        refine ⟨s', ?_, kept⟩
        have first' : run count s = .ok _ s₁ := first
        have later' : rest.forM run s₁ = .ok () s' := later
        show (do run count; rest.forM run) s = _
        simp only [bind, EStateM.bind, first', later']
      · exact ran.elim

end Op

/--
Setting up a network from any reachable session lays out every input of every region over the
links it lists, for the port's nodes: one splitter map entry per node, the buffer holding the
elements of the outputs feeding the links, each link at the sum of the counts before it, and the
map of each node the links' entries for it shifted by their offsets, each inside the buffer. When
every region is of the reference type, the network is then running, any sequence of runs
succeeds and keeps it running, and every step, from any state a run passes through, reads on
each node the elements of the outputs feeding the input, as they stand then, that the links' maps
name for the node.
-/
theorem setUp_lays_out_and_runs {s s' : Session} (reachable : Reachable s)
    (initialized : EStateM.run Op.setUp s = .ok () s') :
    (∀ r ∈ s'.network.regions.items, ∀ p ∈ r.inputs.entries,
      ∃ feeds, p.2.links.mapM s'.network.feed = some feeds ∧
        p.2.Layout (r.portNodes p.2.regionLevel) feeds ∧
        p.2.splitterMap.length = r.portNodes p.2.regionLevel ∧
        ∀ entry ∈ p.2.splitterMap, ∀ x ∈ entry, x < p.2.data.count) ∧
    ((∀ r ∈ s'.network.regions.items, r.IsReference) →
      s'.network.ReferenceRunning ∧
      ∀ counts : List Nat, ∃ s'', EStateM.run (counts.forM Op.run) s' = .ok () s'' ∧
        s''.network.ReferenceRunning) ∧
    ∀ (t : Session) (name : String) (r : Region), t.network.ReferenceRunning →
      t.network.region name = .ok r →
      ∃ i feeds i' r', r.inputs.items = [i] ∧ i.links.mapM t.network.feed = some feeds ∧
        (∀ node < r.nodeCount, ∃ ys, i'.nodeInput node .real64 = .ok ys ∧
          ys.map some = feeds.flatMap fun f => (f.1.routes.getD node []).map fun x =>
            (t.network.sourceValues .real64 f.1).bind (·[x]?)) ∧
        (r.setInput i').compute = .ok r' ∧
        EStateM.run (Op.computeRegion name) t =
          .ok () { t with network := (t.network.replaceRegion (r.setInput i')).replaceRegion r' } ∧
        ((t.network.replaceRegion (r.setInput i')).replaceRegion r').ReferenceRunning := by
  have settingUp := Op.run_of_triple Op.setUp_running
    ⟨reachable.wired, reachable.linkTable, reachable.settled⟩ (s := s)
  rw [initialized] at settingUp
  have declared := Op.run_of_triple Op.setUp_declared reachable.declared (s := s)
  rw [initialized] at declared
  refine ⟨fun r member p present => ?_, fun references => ?_, fun t name r running found =>
    Op.computeRegion_reads_sources running found⟩
  · obtain ⟨feeds, fed, laid⟩ := (settingUp.laidOut.regions r member).inputs p present
    exact ⟨feeds, fed, laid, laid.length_splitterMap, laid.splitterMap_lt⟩
  · have running : s'.network.ReferenceRunning := ⟨settingUp, declared, references⟩
    exact ⟨running, fun counts => Op.runs_succeed counts running⟩

/-- A pair of test regions, the source given two nodes and linked to the destination, sets up:
its inputs are laid out over the link, and every sequence of runs then succeeds. -/
theorem linked_pair_sets_up_and_runs :
    let s := Command.leavesAll [.addRegion "A" "TestNode" "", .addRegion "B" "TestNode" "",
      .setRegionDimensions "A" ⟨[2]⟩, .connect "A" "" "B" "" "UniformLink" ""]
      { host := Host.new {}, files := {}, network := { id := 0 } }
    let s' := Op.setUp.leaves s
    Reachable s ∧ EStateM.run Op.setUp s = .ok () s' ∧ s'.network.regions.items.length = 2 ∧
      s'.network.links.length = 1 ∧
      (∀ r ∈ s'.network.regions.items, ∀ p ∈ r.inputs.entries,
        ∃ feeds, p.2.links.mapM s'.network.feed = some feeds ∧
          p.2.Layout (r.portNodes p.2.regionLevel) feeds ∧
          p.2.splitterMap.length = r.portNodes p.2.regionLevel ∧
          ∀ entry ∈ p.2.splitterMap, ∀ x ∈ entry, x < p.2.data.count) ∧
      s'.network.ReferenceRunning ∧
      ∀ counts : List Nat, ∃ s'', EStateM.run (counts.forM Op.run) s' = .ok () s'' ∧
        s''.network.ReferenceRunning := by
  intro s s'
  have reachable : Reachable s := (Reachable.fresh rfl).leavesAll _
  -- the kernel evaluates the session once the region names are validated
  have evaluated : Op.setUp.succeeds s = true ∧ s'.network.regions.items.length = 2 ∧
      s'.network.links.length = 1 ∧ s'.network.regions.items.all Region.isReference = true := by
    simp only [s', s, Command.leavesAll, List.foldl, Command.op, Op.addRegion, Op.checkNewRegion,
      @Op.validateRegionName_of_plain "A" (by simp), @Op.validateRegionName_of_plain "B" (by simp)]
    decide +kernel
  have ran := Op.run_eq_ok_of_succeeds evaluated.1
  have references : ∀ r ∈ s'.network.regions.items, r.IsReference := fun r member =>
    Region.isReference_iff.mp (List.all_eq_true.mp evaluated.2.2.2 r member)
  have outcome := setUp_lays_out_and_runs reachable ran
  exact ⟨reachable, ran, evaluated.2.1, evaluated.2.2.1, outcome.1, outcome.2.1 references⟩

end RegionNet
