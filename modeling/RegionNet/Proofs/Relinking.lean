import RegionNet.Proofs.Reloading
import RegionNet.Proofs.Declared

set_option mvcgen.warning false

namespace RegionNet

open Std.Do

/-!
# Making a saved network's links again

Loading a bundle restores its regions first, with the ports their type declares and no links,
and then makes the saved links again with `connect`, one after the other, in the order they were
saved. On regions of the reference type this goes through: every saved link joins the reference
output of a restored region to the reference input of another, no two join the same ports, and
the host makes the policy of each, so every `connect` succeeds and adds its link last. Making a
link stores the two regions back with new ports but the same outline (what a region is apart
from its ports), and the outlines of restored regions have no induced dimensions, so forgetting
the topology keeps them too (`relinkAll_run`).
-/

section Outlines

variable {n : Network}

/-- What a region is apart from its ports: its name and type, its declaration and state, its
dimensions and where they came from, and its phases. -/
structure Region.Outline where
  name : String
  typeName : String
  spec : RegionSpec
  impl : Implementation
  dims : Dimensions
  source : DimensionSource
  phases : List Nat

/-- A region's outline. -/
def Region.outline (r : Region) : Region.Outline :=
  ⟨r.name, r.typeName, r.spec, r.impl, r.dims, r.source, r.phases⟩

@[simp] theorem Region.outline_setOutput (r : Region) (o : Output) :
    (r.setOutput o).outline = r.outline := rfl

@[simp] theorem Region.outline_setInput (r : Region) (i : Input) :
    (r.setInput i).outline = r.outline := rfl

/-- An outline whose dimensions were not induced over a link. -/
def Region.Outline.Uninduced (f : Region.Outline) : Prop := ∀ via, f.source ≠ .induced via

/-- The regions' outlines under their names, in order. -/
def Network.outlines (n : Network) : List (String × Region.Outline) :=
  n.regions.entries.map fun e => (e.1, e.2.outline)

theorem Network.names_of_outlines : n.outlines.map (·.1) = n.regions.names := by
  simp [outlines, Collection.names, Function.comp_def]

theorem Network.outline_mem {k : String} {r : Region} (member : (k, r) ∈ n.regions.entries) :
    (k, r.outline) ∈ n.outlines :=
  List.mem_map_of_mem (f := fun e => (e.1, e.2.outline)) member

/-- A region found under a name, among regions stored under their own names, has that name. -/
theorem Network.region_named {name : String} {x : Region} (stored : Stored n.regions)
    (found : n.region name = .ok x) : x.name = name :=
  stored.named _ (mem_of_region found)

/-- Storing back a region with the outline of the one found under its name keeps the outlines. -/
theorem Network.outlines_replaceRegion {name : String} {x r : Region} (stored : Stored n.regions)
    (found : n.region name = .ok x) (same : r.outline = x.outline) :
    (n.replaceRegion r).outlines = n.outlines := by
  have renamed : r.name = name := by
    have names := congrArg Region.Outline.name same
    simp only [Region.outline] at names
    rw [names, region_named stored found]
  exact map_replaceRegion Region.outline stored.distinct (renamed ▸ found) same

/-- Forgetting the topology keeps outlines without induced dimensions. -/
theorem Network.outlines_resetTopology (uninduced : ∀ p ∈ n.outlines, p.2.Uninduced) :
    n.resetTopology.outlines = n.outlines := by
  simp only [outlines, resetTopology, List.map_map]
  refine List.map_congr_left fun e member => ?_
  have kept : ∀ via, e.2.source ≠ .induced via := uninduced _ (outline_mem member)
  simp only [Function.comp_apply, Prod.mk.injEq, true_and]
  -- releasing the data keeps the outline; only induced dimensions would be dropped
  split
  · rename_i via induced
    exact absurd induced (kept via)
  · rfl

end Outlines

section Records

/-- What the structure file keeps of a link: its policy type and parameters, and its ends. -/
def Link.record (l : Link) : LinkRecord where
  policyType := l.policyType
  params := l.params
  srcRegion := l.endpoints.srcRegion
  srcOutput := l.endpoints.srcOutput
  destRegion := l.endpoints.destRegion
  destInput := l.endpoints.destInput

/-- The ends a saved link names. -/
def LinkRecord.endpoints (saved : LinkRecord) : Endpoints :=
  ⟨saved.srcRegion, saved.srcOutput, saved.destRegion, saved.destInput⟩

@[simp] theorem Link.endpoints_record (l : Link) : l.record.endpoints = l.endpoints := rfl

@[simp] theorem Link.record_reset (l : Link) : l.reset.record = l.record := rfl

/-- The structure file lists the records of the links, in order. -/
theorem Op.describe_links (n : Network) (label : String) :
    (Op.describe n label).links = n.links.map Link.record := rfl

end Records

section ReferencePorts

variable {r : Region}

/-- A region with the ports of the reference type has one output, the reference output, and it
holds 64-bit reals. -/
theorem Region.Declared.referenceOutputs (declared : r.Declared)
    (reference : r.spec = Reference.spec) (k : String) :
    (r.outputs.find? k).map (·.data.elementType) =
      if k = Reference.outputName then some .real64 else none := by
  have shapes := congrArg (Option.map Prod.fst) (declared.outputShapes k)
  simp only [Option.map_map, reference] at shapes
  rw [show (Prod.fst ∘ Output.shape) = (·.data.elementType) from rfl] at shapes
  rw [shapes]
  by_cases named : k = Reference.outputName
  · subst named
    rfl
  · simp [named, Reference.spec, Collection.find?, List.find?, Ne.symm named]

/-- A region with the ports of the reference type has one input, the reference input, and it
holds 64-bit reals. -/
theorem Region.Declared.referenceInputs (declared : r.Declared)
    (reference : r.spec = Reference.spec) (k : String) :
    (r.inputs.find? k).map (·.data.elementType) =
      if k = Reference.inputName then some .real64 else none := by
  have shapes := congrArg (Option.map Prod.fst) (declared.inputShapes k)
  simp only [Option.map_map, reference] at shapes
  rw [show (Prod.fst ∘ Input.shape) = (·.data.elementType) from rfl] at shapes
  rw [shapes]
  by_cases named : k = Reference.inputName
  · subst named
    rfl
  · simp [named, Reference.spec, Collection.find?, List.find?, Ne.symm named]

theorem Region.input_eq_ok_iff {k : String} {i : Input} :
    r.input k = .ok i ↔ r.inputs.find? k = some i := by
  unfold Region.input
  cases r.inputs.find? k <;> simp

/-- The one output a region with the ports of the reference type has is the reference output. -/
theorem Region.Declared.referenceOutput_name (declared : r.Declared)
    (reference : r.spec = Reference.spec) {k : String} {o : Output} (found : r.output k = .ok o) :
    k = Reference.outputName := by
  have outputs := declared.referenceOutputs reference k
  rw [Region.output_eq_ok_iff.mp found] at outputs
  by_contra other
  rw [if_neg other] at outputs
  cases outputs

/-- The one input a region with the ports of the reference type has is the reference input. -/
theorem Region.Declared.referenceInput_name (declared : r.Declared)
    (reference : r.spec = Reference.spec) {k : String} {i : Input} (found : r.input k = .ok i) :
    k = Reference.inputName := by
  have inputs := declared.referenceInputs reference k
  rw [Region.input_eq_ok_iff.mp found] at inputs
  by_contra other
  rw [if_neg other] at inputs
  cases inputs

variable {n : Network}

/-- A link of a wired network of reference regions joins the reference output of a region there
to the reference input of a region there. -/
theorem Network.Wired.referenceEnds (wired : n.Wired) (declared : n.Declared)
    (reference : ∀ r ∈ n.regions.items, r.spec = Reference.spec) {l : Link}
    (member : l ∈ n.links) :
    l.endpoints.srcRegion ∈ n.regions.names ∧ l.endpoints.srcOutput = Reference.outputName ∧
      l.endpoints.destRegion ∈ n.regions.names ∧
      l.endpoints.destInput = Reference.inputName := by
  obtain ⟨⟨src, o, srcFound, outputFound⟩, ⟨dest, i, destFound, inputFound⟩⟩ :=
    wired.ends l member
  have srcStored := mem_of_region srcFound
  have destStored := mem_of_region destFound
  have srcItem : src ∈ n.regions.items := List.mem_map_of_mem (f := (·.2)) srcStored
  have destItem : dest ∈ n.regions.items := List.mem_map_of_mem (f := (·.2)) destStored
  exact ⟨List.mem_map_of_mem (f := (·.1)) srcStored,
    (declared src srcItem).referenceOutput_name (reference src srcItem) outputFound,
    List.mem_map_of_mem (f := (·.1)) destStored,
    (declared dest destItem).referenceInput_name (reference dest destItem) inputFound⟩

/-- In a network with declared ports whose outlines are all of the reference type, the region
under a name there has the reference output and the reference input, both of 64-bit reals. -/
theorem Network.referencePorts (declared : n.Declared)
    (reference : ∀ p ∈ n.outlines, p.2.spec = Reference.spec) {k : String}
    (named : k ∈ n.regions.names) :
    ∃ x o i, n.regions.find? k = some x ∧ x.outputs.find? Reference.outputName = some o ∧
      x.inputs.find? Reference.inputName = some i ∧ o.data.elementType = .real64 ∧
      i.data.elementType = .real64 := by
  obtain ⟨x, found⟩ := Option.isSome_iff_exists.mp (Collection.isSome_find?_iff.mpr named)
  have stored := Collection.mem_of_find? found
  have item : x ∈ n.regions.items := List.mem_map_of_mem (f := (·.2)) stored
  have typed : x.spec = Reference.spec := reference _ (outline_mem stored)
  have outputs := (declared x item).referenceOutputs typed Reference.outputName
  have inputs := (declared x item).referenceInputs typed Reference.inputName
  rw [if_pos rfl] at outputs inputs
  obtain ⟨o, outputFound, outType⟩ := Option.map_eq_some_iff.mp outputs
  obtain ⟨i, inputFound, inType⟩ := Option.map_eq_some_iff.mp inputs
  exact ⟨x, o, i, found, outputFound, inputFound, outType, inType⟩

end ReferencePorts

namespace Op

/-- Discarding an operation's answer keeps its outcome. -/
theorem run_discard_ok {α : Type} {x : Op α} {a : α} {s s' : Session}
    (ran : EStateM.run x s = .ok a s') : EStateM.run (discard x) s = .ok () s' := by
  simp only [discard, Functor.mapConst, Function.comp_apply]
  change EStateM.map _ x s = _
  unfold EStateM.map
  rw [show x s = _ from ran]

/-- Joining an output to an input that exist, are named, hold the same type and are not joined
yet, with a policy the host makes, succeeds: it adds the link last, and changes neither the host,
nor the files, nor any region's outline, when no dimensions are induced. -/
theorem connect_relinks {u₀ : Session} {e : Endpoints} {S D : Region} {o : Output} {i : Input}
    {kind : Link.BuiltinPolicy} {pt params : String} {l : Link}
    (stored : Network.Stored u₀.network.regions)
    (uninduced : ∀ p ∈ u₀.network.outlines, p.2.Uninduced)
    (srcFound : u₀.network.regions.find? e.srcRegion = some S)
    (outputFound : S.outputs.find? e.srcOutput = some o)
    (destFound : u₀.network.regions.find? e.destRegion = some D)
    (inputFound : D.inputs.find? e.destInput = some i)
    (outNamed : e.srcOutput ≠ "") (inNamed : e.destInput ≠ "")
    (typed : o.data.elementType = i.data.elementType)
    (fresh : e ∉ u₀.network.links.map (·.endpoints))
    (policy : u₀.host.policies.constructor pt = .ok kind)
    (made : Link.new u₀.network.nextLink pt params kind e = .ok l) :
    ⦃fun u => ⌜u = u₀⌝⦄ connect e.srcRegion e.srcOutput e.destRegion e.destInput pt params
    ⦃post⟨fun _ u => ⌜u.host = u₀.host ∧ u.files = u₀.files ∧
        u.network.outlines = u₀.network.outlines ∧
        u.network.links = (u₀.network.links ++ [l]).map Link.reset⌝,
      fun _ _ => ⌜False⌝⟩⦄ := by
  mvcgen [connect, -connect_keeps, -resetTopology_keeps, resetTopology_spec, putRegion_spec,
    region, lift]
  all_goals subst u₀
  -- every check passes on the network as it was; the lookups after the first change succeed
  all_goals try (exfalso; exact outNamed (String.isEmpty_iff.mp ‹e.srcOutput.isEmpty = true›))
  all_goals try (exfalso; exact inNamed (String.isEmpty_iff.mp ‹e.destInput.isEmpty = true›))
  all_goals try (exfalso; simp_all; done)
  all_goals try (rename_i missing found
                 exfalso
                 first
                   | exact missing _ (found.symm.trans srcFound)
                   | exact missing _ (found.symm.trans destFound))
  all_goals try (exfalso; simp_all +zetaDelta [Link.connects]; done)
  all_goals try (exfalso
                 simp_all [Network.region, Network.replaceRegion_regions, Collection.find?_store,
                   Region.output, Region.input]
                 done)
  all_goals try (exfalso; apply stored.input_after_setOutput <;> first | assumption | rfl)
  -- the run that succeeds makes the given link and stores back two regions with new ports
  rename_i kind' chosen _ link' linked src srcAt o' _ dest destAt i' _
  obtain rfl : kind' = kind := Except.ok.inj (chosen.symm.trans policy)
  obtain rfl : link' = l := Except.ok.inj (linked.symm.trans made)
  have kept₁ := Network.outlines_replaceRegion stored srcAt
    (r := src.setOutput (o'.addLink ‹Session›.network.nextLink)) rfl
  have stored₁ := stored.store (x := src.setOutput (o'.addLink ‹Session›.network.nextLink))
    (stored.portsNamed _ (Network.mem_of_region srcAt)).setOutput
  have kept₂ := Network.outlines_replaceRegion stored₁ destAt
    (r := dest.setInput (i'.addLink ‹Session›.network.nextLink)) rfl
  have kept := kept₂.trans kept₁
  refine ⟨rfl, rfl, ?_, rfl⟩
  calc _ = _ := Network.outlines_resetTopology fun p member => uninduced p (kept ▸ member)
    _ = _ := kept

end Op

section Relinking

/-- A session `u₀` with the regions of a saved network `n` restored, ready for `n`'s links: `n`
is a wired network of reference regions with declared ports, `u₀` has regions under the same
names, all with outlines of the reference type and without induced dimensions, and the host
makes the policy of every link of `n` from its parameters. -/
structure ReadyToRelink (n : Network) (u₀ : Session) : Prop where
  wired : n.Wired
  declared : n.Declared
  reference : ∀ r ∈ n.regions.items, r.spec = Reference.spec
  names : u₀.network.regions.names = n.regions.names
  outlined : ∀ p ∈ u₀.network.outlines, p.2.spec = Reference.spec ∧ p.2.Uninduced
  accepted : ∀ l ∈ n.links, ∃ p, u₀.host.policies.create l.policyType l.params = .ok p

/-- A session reached from `u₀` by making the links `done` again, in order: the host, the files
and the outlines are those of `u₀`, the network is wired with declared ports, and its links are
those of `done`. -/
structure Relinked (u₀ : Session) (done : List Link) (u : Session) : Prop where
  host : u.host = u₀.host
  files : u.files = u₀.files
  wired : u.network.Wired
  declared : u.network.Declared
  outlines : u.network.outlines = u₀.network.outlines
  links : u.network.links.map Link.record = done.map Link.record

variable {n : Network} {u₀ u : Session} {done rest : List Link} {l : Link}

/-- The policy registry makes a policy from parameters through the constructor it names. -/
theorem Link.PolicyRegistry.create_eq_ok {registry : Link.PolicyRegistry} {name params : String}
    {p : Link.LinkPolicy} (created : registry.create name params = .ok p) :
    ∃ kind, registry.constructor name = .ok kind ∧ kind.create params = .ok p := by
  unfold Link.PolicyRegistry.create at created
  cases chosen : registry.constructor name with
  | error e =>
    rw [chosen] at created
    cases created
  | ok kind => exact ⟨kind, rfl, by rwa [chosen] at created⟩

/-- The next saved link is made again: its ends are reference ports of restored regions, it is
not made yet, and the host makes its policy. -/
theorem relink_step (ready : ReadyToRelink n u₀) (relinked : Relinked u₀ done u)
    (split : n.links = done ++ l :: rest) :
    ∃ id u', EStateM.run (Op.connect l.endpoints.srcRegion l.endpoints.srcOutput
        l.endpoints.destRegion l.endpoints.destInput l.policyType l.params) u = .ok id u' ∧
      Relinked u₀ (done ++ [l]) u' := by
  have member : l ∈ n.links := by
    rw [split]
    exact List.mem_append_right _ List.mem_cons_self
  obtain ⟨srcNamed, outName, destNamed, inName⟩ :=
    ready.wired.referenceEnds ready.declared ready.reference member
  -- the restored regions are under the saved names, with the reference ports
  have names : u.network.regions.names = n.regions.names := by
    rw [← Network.names_of_outlines, relinked.outlines, Network.names_of_outlines, ready.names]
  have outlined : ∀ p ∈ u.network.outlines, p.2.spec = Reference.spec ∧ p.2.Uninduced :=
    fun p present => ready.outlined p (relinked.outlines ▸ present)
  obtain ⟨S, o, -, srcFound, outputFound, -, outType, -⟩ :=
    Network.referencePorts relinked.declared (fun p present => (outlined p present).1)
      (names ▸ srcNamed)
  obtain ⟨D, -, i, destFound, -, inputFound, -, inType⟩ :=
    Network.referencePorts relinked.declared (fun p present => (outlined p present).1)
      (names ▸ destNamed)
  -- the links made so far are the saved links before this one, whose ends are apart from its
  have fresh : l.endpoints ∉ u.network.links.map (·.endpoints) := by
    have ends : u.network.links.map (·.endpoints) = done.map (·.endpoints) := by
      simpa [List.map_map, Function.comp_def] using
        congrArg (List.map LinkRecord.endpoints) relinked.links
    have apart := ready.wired.endpointsApart
    rw [split, List.map_append, List.map_cons] at apart
    rw [ends]
    exact fun earlier => List.disjoint_of_nodup_append apart earlier List.mem_cons_self
  obtain ⟨p, created⟩ := ready.accepted l member
  obtain ⟨kind, policy, made⟩ := Link.PolicyRegistry.create_eq_ok created
  have made' : Link.new u.network.nextLink l.policyType l.params kind l.endpoints =
      .ok { id := u.network.nextLink, policyType := l.policyType, params := l.params,
            endpoints := l.endpoints, fresh := p, policy := p } := by
    simp [Link.new, made]
  have relinks := Op.run_of_triple (Op.connect_relinks relinked.wired.toStored
    (fun p present => (outlined p present).2) srcFound (outName ▸ outputFound) destFound
    (inName ▸ inputFound) (by rw [outName]; decide) (by rw [inName]; decide)
    (outType.trans inType.symm) fresh (relinked.host ▸ policy) made') (rfl : u = u)
  have atomic := Op.run_of_triple (Op.connect_atomic relinked.wired l.endpoints.srcRegion
    l.endpoints.srcOutput l.endpoints.destRegion l.endpoints.destInput l.policyType l.params)
    (rfl : u.network = u.network)
  have declared := Op.run_of_triple (Op.connect_declared l.endpoints.srcRegion
    l.endpoints.srcOutput l.endpoints.destRegion l.endpoints.destInput l.policyType l.params)
    relinked.declared
  cases ran : EStateM.run (Op.connect l.endpoints.srcRegion l.endpoints.srcOutput
      l.endpoints.destRegion l.endpoints.destInput l.policyType l.params) u with
  | error e u' =>
    rw [ran] at relinks
    exact relinks.elim
  | ok id u' =>
    rw [ran] at relinks atomic declared
    obtain ⟨host, files, outlines, links⟩ := relinks
    refine ⟨id, u', rfl, host.trans relinked.host, files.trans relinked.files, atomic, declared,
      outlines.trans relinked.outlines, ?_⟩
    rw [links, List.map_map, List.map_append, List.map_append]
    simp only [Function.comp_def, Link.record_reset]
    rw [← relinked.links]
    rfl

/-- Making the saved links after `done` again, in order, from a session with `done` made:
every `connect` succeeds, and the session reached has all the links of `n` made. -/
theorem relinkAll_run (ready : ReadyToRelink n u₀) :
    ∀ {done : List Link} {u : Session}, n.links = done ++ rest → Relinked u₀ done u →
      ∃ u', EStateM.run (forIn (rest.map Link.record) PUnit.unit fun saved _ => do
          discard (Op.connect saved.srcRegion saved.srcOutput saved.destRegion saved.destInput
            saved.policyType saved.params)
          pure (ForInStep.yield PUnit.unit)) u = .ok () u' ∧ Relinked u₀ n.links u' := by
  induction rest with
  | nil =>
    intro done u split relinked
    rw [split, List.append_nil]
    exact ⟨u, rfl, relinked⟩
  | cons l rest inductionHypothesis =>
    intro done u split relinked
    obtain ⟨id, u₁, ran, relinked₁⟩ := relink_step ready relinked split
    obtain ⟨u', ran', relinked'⟩ :=
      @inductionHypothesis (done ++ [l]) u₁ (by rw [split, List.append_assoc]; rfl) relinked₁
    -- the saved record names the link's own ends, policy type and parameters
    have made : EStateM.run (discard (Op.connect l.record.srcRegion l.record.srcOutput
        l.record.destRegion l.record.destInput l.record.policyType l.record.params)) u =
        .ok () u₁ :=
      Op.run_discard_ok ran
    refine ⟨u', ?_, relinked'⟩
    rw [List.map_cons, List.forIn_cons, EStateM.run_bind, EStateM.run_bind, made]
    exact ran'

/-- Forgetting the topology once the links are made keeps what making them gave. -/
theorem Relinked.resetTopology (relinked : Relinked u₀ done u)
    (uninduced : ∀ p ∈ u₀.network.outlines, p.2.Uninduced) :
    Relinked u₀ done { u with network := u.network.resetTopology } where
  host := relinked.host
  files := relinked.files
  wired := relinked.wired.resetTopology
  declared := relinked.declared.resetTopology
  outlines := by
    rw [Network.outlines_resetTopology (relinked.outlines ▸ uninduced)]
    exact relinked.outlines
  links := by
    simp only [Network.resetTopology, List.map_map, Function.comp_def, Link.record_reset]
    exact relinked.links

end Relinking

end RegionNet
