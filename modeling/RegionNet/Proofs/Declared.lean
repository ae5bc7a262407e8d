import RegionNet.Proofs.SettledCommands

set_option mvcgen.warning false

namespace RegionNet

open Std.Do

/-!
# Regions have the ports their type declares

A region is made with one input and one output for each port its type declares, stored under the
declared names, in the declared order, of the declared type and level. No operation adds or drops
a port, and every operation that stores one back stores it with the type and level of the port it
replaces: links come and go, data is allocated, merged, written and released, but under each name
the port keeps its type and level. So every reachable network has regions with their declared
ports (`Reachable.declared`).
-/

/-- What a declaration fixes of an input: its type and whether it is region-level. -/
def Input.shape (i : Input) : ElementType × Bool := (i.data.elementType, i.regionLevel)

/-- What a declaration fixes of an output: its type and whether it is region-level. -/
def Output.shape (o : Output) : ElementType × Bool := (o.data.elementType, o.regionLevel)

/-- The type and level an input declaration fixes. -/
def InputSpec.shape (d : InputSpec) : ElementType × Bool := (d.dataType, d.regionLevel)

/-- The type and level an output declaration fixes. -/
def OutputSpec.shape (d : OutputSpec) : ElementType × Bool := (d.dataType, d.regionLevel)

/-- Changing every item, knowing its key, changes what is found under each key alike. -/
theorem Collection.find?_mapValues {α β : Type} (c : Collection α) (g : String → α → β)
    (k : String) :
    (⟨c.entries.map fun e => (e.1, g e.1 e.2)⟩ : Collection β).find? k = (c.find? k).map (g k) := by
  simp only [Collection.find?, List.find?_map, Function.comp_def]
  cases first : c.entries.find? (·.1 == k) with
  | none => simp
  | some e =>
      have key : e.1 = k := by simpa using List.find?_some first
      simp [key]

/-- Allocating keeps an output's name and shape. -/
theorem Output.allocate_shape {o o' : Output} {count : Nat} (made : o.allocate count = .ok o') :
    o'.name = o.name ∧ o'.shape = o.shape := by
  simp only [Output.allocate, bind, Except.bind] at made
  split at made
  · cases made
  · rename_i d allocated
    cases made
    obtain ⟨rfl, -⟩ := Buffer.allocate_eq_ok allocated
    exact ⟨rfl, rfl⟩

/-- Storing merged data in an input keeps its name and shape. -/
theorem Input.setData_shape {i i' : Input} {b : Buffer} (set : i.setData b = .ok i') :
    i'.name = i.name ∧ i'.shape = i.shape := by
  have same := Input.setData_frame set
  exact ⟨by simpa [Input.frame] using congrArg Input.name same,
    by simpa [Input.frame, Input.shape] using congrArg Input.shape same⟩

/-- Changing every item, knowing its key, by a change that keeps a view keeps the view of what is
found under each key. -/
theorem Collection.view_mapValues {α β γ : Type} (c : Collection α) {g : String → α → β}
    {view : β → γ} {view' : α → γ} (keeps : ∀ k x, view (g k x) = view' x) (k : String) :
    ((⟨c.entries.map fun e => (e.1, g e.1 e.2)⟩ : Collection β).find? k).map view =
      (c.find? k).map view' := by
  rw [Collection.find?_mapValues, Option.map_map]
  exact congrArg (Option.map · (c.find? k)) (funext (keeps k))

/-- An entry written with the elements `xs` as the type of output `o`: its bytes replaced by theirs. -/
def Output.written (o : Output) (xs : List Element) (v : Output) : Output :=
  { v with data := { o.data with backing := .owned (Element.writeAll o.data.elementType xs) } }

namespace RegionIo

variable {io io' : RegionIo}

/-- The outputs of `io'` keep what a declaration fixes of those of `io`: the same names in order,
the same type and level under each name, and each stored under its own name when those of `io`
are. -/
structure KeepsOutputs (io' io : RegionIo) : Prop where
  names : io'.outputs.names = io.outputs.names
  shapes : ∀ k, (io'.outputs.find? k).map Output.shape = (io.outputs.find? k).map Output.shape
  named : (∀ p ∈ io.outputs.entries, p.2.name = p.1) → ∀ p ∈ io'.outputs.entries, p.2.name = p.1

/-- A write that succeeds found an output under the name and gave every entry under the name the
bytes written, as the type of the one found. -/
theorem writeOutput_eq_ok {name : String} {xs : List Element}
    (written : io.writeOutput name xs = .ok io') :
    ∃ o, io.outputs.find? name = some o ∧
      io' = { io with outputs := ⟨io.outputs.entries.map fun e =>
        (e.1, if e.1 = name then o.written xs e.2 else e.2)⟩ } := by
  simp only [writeOutput, bind, Except.bind] at written
  split at written
  · cases written
  · rename_i o found
    split at written
    · cases written
    · cases written
      refine ⟨o, ?_, ?_⟩
      · unfold output at found
        split at found <;> simp_all
      · congr 2
        refine List.map_congr_left fun e _ => ?_
        obtain ⟨k, v⟩ := e
        by_cases atName : k = name <;> simp [atName, Output.written]

/-- Writing an output changes the bytes of the entries under its name only, as the type of the one
found there. -/
theorem writeOutput_keepsOutputs {name : String} {xs : List Element}
    (written : io.writeOutput name xs = .ok io') : io'.KeepsOutputs io := by
  obtain ⟨o, located, rfl⟩ := writeOutput_eq_ok written
  refine ⟨by simp [Collection.names, Function.comp_def], fun k => ?_, fun named p member => ?_⟩
  · dsimp only
    rw [Collection.find?_mapValues (g := fun k v => if k = name then o.written xs v else v),
      Option.map_map]
    by_cases atName : k = name
    · subst atName
      simp [located, Output.shape, Output.written]
    · simp [atName, Function.comp_def]
  · obtain ⟨e, present, rfl⟩ := List.mem_map.mp member
    by_cases atName : e.1 = name
    · simpa [atName, Output.written] using named e present
    · simpa [atName] using named e present

/-- Keeping what a declaration fixes of the outputs is closed under writes. -/
theorem keepsOutputs_closed : WriteClosed KeepsOutputs where
  refl _ := ⟨rfl, fun _ => rfl, id⟩
  trans later earlier := ⟨later.names.trans earlier.names,
    fun k => (later.shapes k).trans (earlier.shapes k), later.named ∘ earlier.named⟩
  write written _ := writeOutput_keepsOutputs written

end RegionIo

namespace Region

/-- A region whose ports are the ones its declaration lists: each stored under its own name, the
names those declared in the declared order, and the port found under each name of the declared
type and level. -/
structure Declared (r : Region) : Prop extends r.PortsNamed where
  inputNames : r.inputs.names = r.spec.inputs.names
  outputNames : r.outputs.names = r.spec.outputs.names
  inputShapes : ∀ k, (r.inputs.find? k).map Input.shape =
    (r.spec.inputs.find? k).map InputSpec.shape
  outputShapes : ∀ k, (r.outputs.find? k).map Output.shape =
    (r.spec.outputs.find? k).map OutputSpec.shape

variable {r r' : Region}

/-- A new region has the ports its declaration lists. -/
theorem declared_new (name typeName : String) (spec : RegionSpec) (impl : Implementation)
    (module : Option String) : (Region.new name typeName spec impl module).Declared where
  toPortsNamed := (blank_new name typeName spec impl module).toPortsNamed
  inputNames := by simp [Region.new, Collection.names, Function.comp_def]
  outputNames := by simp [Region.new, Collection.names, Function.comp_def]
  inputShapes k := by
    delta InputSpec.shape
    simpa [Region.new, Option.map_map, Function.comp_def, Input.shape, Input.new, InputSpec.shape,
      Buffer.new] using congrArg (Option.map Input.shape)
        (Collection.find?_mapValues spec.inputs
          (fun n i => Input.new n i.dataType i.regionLevel i.required) k)
  outputShapes k := by
    delta OutputSpec.shape
    simpa [Region.new, Option.map_map, Function.comp_def, Output.shape, Output.new,
      OutputSpec.shape, Buffer.new] using congrArg (Option.map Output.shape)
        (Collection.find?_mapValues spec.outputs (fun n o => Output.new n o.dataType o.regionLevel) k)

/-- Declared ports read only the declaration and the ports. -/
theorem Declared.of_ports (declared : r.Declared) (spec : r'.spec = r.spec)
    (inputs : r'.inputs = r.inputs) (outputs : r'.outputs = r.outputs) : r'.Declared where
  inputs := inputs ▸ declared.inputs
  outputs := outputs ▸ declared.outputs
  inputNames := by rw [inputs, spec]; exact declared.inputNames
  outputNames := by rw [outputs, spec]; exact declared.outputNames
  inputShapes k := by rw [inputs, spec]; exact declared.inputShapes k
  outputShapes k := by rw [outputs, spec]; exact declared.outputShapes k

/-- Storing back, over an input found under a key, one with its name and shape keeps the ports
declared. -/
theorem Declared.setInput (declared : r.Declared) {k : String} {i i' : Input}
    (found : r.input k = .ok i) (name : i'.name = i.name) (shape : i'.shape = i.shape) :
    (r.setInput i').Declared := by
  obtain ⟨-, iNamed⟩ := input_named declared.toPortsNamed found
  have located : r.inputs.find? i'.name = some i := by
    rw [name, iNamed]
    unfold Region.input at found
    split at found <;> simp_all
  exact { declared with
    toPortsNamed := declared.toPortsNamed.setInput
    inputNames := by rw [names_setInput]; exact declared.inputNames
    inputShapes := fun k' => (Collection.levels_store located shape k').trans (declared.inputShapes k') }

/-- Storing back, over an output found under a key, one with its name and shape keeps the ports
declared. -/
theorem Declared.setOutput (declared : r.Declared) {k : String} {o o' : Output}
    (found : r.output k = .ok o) (name : o'.name = o.name) (shape : o'.shape = o.shape) :
    (r.setOutput o').Declared := by
  obtain ⟨-, oNamed⟩ := output_named declared.toPortsNamed found
  have located : r.outputs.find? o'.name = some o := by
    rw [name, oNamed]
    unfold Region.output at found
    split at found <;> simp_all
  exact { declared with
    toPortsNamed := declared.toPortsNamed.setOutput
    outputNames := by rw [names_setOutput]; exact declared.outputNames
    outputShapes := fun k' =>
      (Collection.levels_store located shape k').trans (declared.outputShapes k') }

/-- Sizing one output, whether it succeeds or not, keeps the ports declared. -/
theorem Declared.sizeOutput (declared : r.Declared) (nodes : Nat) (name : String) :
    (r.sizeOutput nodes name).1.Declared := by
  unfold Region.sizeOutput
  split
  · exact declared
  · exact declared
  · rename_i found
    dsimp only
    -- the region comes back as it was, or with the found output stored back sized or released
    repeat' split
    all_goals first
      | exact declared
      | exact declared.setOutput found (Output.allocate_shape ‹_›).1 (Output.allocate_shape ‹_›).2
      | exact declared.setOutput found rfl rfl

/-- Sizing outputs one after the other keeps the ports declared, however far it gets. -/
theorem Declared.foldl_sizeOutput (nodes : Nat) (names : List String)
    {acc : Region × Except EngineError Unit} (declared : acc.1.Declared) :
    (names.foldl (fun (acc : Region × Except EngineError Unit) name =>
      match acc with
      | (r, .ok ()) => r.sizeOutput nodes name
      | failed => failed) acc).1.Declared := by
  induction names generalizing acc with
  | nil => exact declared
  | cons name rest inductionHypothesis =>
      obtain ⟨current, outcome⟩ := acc
      cases outcome with
      | ok => exact inductionHypothesis (declared.sizeOutput nodes name)
      | error => exact inductionHypothesis declared

/-- Sizing a region's outputs keeps its ports declared, whether it succeeds or not. -/
theorem Declared.sizeOutputs (declared : r.Declared) : r.sizeOutputs.1.Declared := by
  unfold Region.sizeOutputs
  split
  · exact declared
  · split
    · exact declared
    · exact Declared.foldl_sizeOutput _ _ declared

/-- Releasing a region's data keeps its ports declared. -/
theorem Declared.teardown (declared : r.Declared) : r.teardown.Declared where
  inputs := by
    intro p member
    obtain ⟨q, present, rfl⟩ := List.mem_map.mp member
    exact declared.inputs q present
  outputs := by
    intro p member
    obtain ⟨q, present, rfl⟩ := List.mem_map.mp member
    exact declared.outputs q present
  inputNames := by
    simpa [Region.teardown, Collection.names, Function.comp_def] using declared.inputNames
  outputNames := by
    simpa [Region.teardown, Collection.names, Function.comp_def] using declared.outputNames
  inputShapes k := by
    show (Collection.find? ⟨r.inputs.entries.map fun e => (e.1, e.2.teardown)⟩ k).map Input.shape =
      (r.spec.inputs.find? k).map InputSpec.shape
    rw [← declared.inputShapes k]
    exact Collection.view_mapValues r.inputs (g := fun _ i => i.teardown) (fun _ _ => rfl) k
  outputShapes k := by
    show (Collection.find? ⟨r.outputs.entries.map fun e => (e.1, e.2.teardown)⟩ k).map
      Output.shape = (r.spec.outputs.find? k).map OutputSpec.shape
    rw [← declared.outputShapes k]
    exact Collection.view_mapValues r.outputs (g := fun _ o => o.teardown) (fun _ _ => rfl) k

/-- Computing keeps the ports declared. -/
theorem Declared.compute (declared : r.Declared) (computed : r.compute = .ok r') : r'.Declared := by
  obtain ⟨impl, io, stepped, rfl⟩ := compute_eq_ok computed
  have kept := Implementation.compute_closed RegionIo.keepsOutputs_closed stepped
  exact { declared with
    outputs := kept.named declared.outputs
    outputNames := kept.names.trans declared.outputNames
    outputShapes := fun k => (kept.shapes k).trans (declared.outputShapes k) }

/-- Setting dimensions keeps the ports declared. -/
theorem Declared.setDimensions (declared : r.Declared) {dims : Dimensions}
    {source : DimensionSource} (set : r.setDimensions dims source = .ok r') : r'.Declared := by
  unfold Region.setDimensions at set
  split at set
  · cases set
  · cases set
    exact declared.of_ports rfl rfl rfl

/-- Setting a parameter keeps the ports declared. -/
theorem Declared.setParameter (declared : r.Declared) {name : String} {v : ParameterValue}
    (set : r.setParameter name v = .ok r') : r'.Declared := by
  obtain ⟨impl, rfl⟩ := setParameter_eq_ok set
  exact declared.of_ports rfl rfl rfl

/-- Running a command keeps the ports declared, whether it succeeds or not. -/
theorem Declared.executeCommand (declared : r.Declared) (args : List String) :
    (r.executeCommand args).1.Declared := by
  obtain ⟨impl, executeCalls, ran⟩ := executeCommand_fst (r := r) args
  rw [ran]
  exact declared.of_ports rfl rfl rfl

/-- A new region, in whatever phases, has the ports its declaration lists. -/
theorem declared_new_phases (name typeName : String) (spec : RegionSpec) (impl : Implementation)
    (module : Option String) (phases : List Nat) :
    ({ Region.new name typeName spec impl module with phases } : Region).Declared :=
  (declared_new name typeName spec impl module).of_ports rfl rfl rfl

/-- A new region, in whatever phases, with whatever dimensions set, has the ports its declaration
lists. -/
theorem declared_restored {name typeName : String} {spec : RegionSpec} {impl : Implementation}
    {module : Option String} {dims : Dimensions} {source : DimensionSource}
    (set : (Region.new name typeName spec impl module).setDimensions dims source = .ok r)
    (phases : List Nat) : ({ r with phases } : Region).Declared :=
  ((declared_new name typeName spec impl module).setDimensions set).of_ports rfl rfl rfl

/-- Forgetting a region's data and induced dimensions keeps its ports declared. -/
theorem Declared.forget (declared : r.Declared) :
    (match r.teardown.source with
      | .induced _ => { r.teardown with dims := .unspecified, source := .unset }
      | _ => r.teardown).Declared := by
  split
  · exact declared.teardown.of_ports rfl rfl rfl
  · exact declared.teardown

end Region

/-- Recording a link keeps an output's name and shape. -/
theorem Output.addLink_shape (o : Output) (id : Nat) :
    (o.addLink id).name = o.name ∧ (o.addLink id).shape = o.shape := by
  unfold Output.addLink
  split <;> exact ⟨rfl, rfl⟩

/-- Recording a link keeps an input's name and shape. -/
theorem Input.addLink_shape (i : Input) (id : Nat) :
    (i.addLink id).name = i.name ∧ (i.addLink id).shape = i.shape := by
  unfold Input.addLink
  split <;> exact ⟨rfl, rfl⟩

/-- An input laid out over a buffer allocated from its released data keeps its shape. -/
theorem Input.layout_shape {i : Input} {d : Buffer} {count : Nat}
    (made : i.data.release.allocate count = .ok d) (routes : List (List Nat)) (initialized : Bool) :
    ({ i with data := d, splitterMap := routes, initialized } : Input).shape = i.shape := by
  obtain ⟨rfl, -⟩ := Buffer.allocate_eq_ok made
  rfl
namespace Network

variable {m n : Network} {name : String} {r old : Region}

/-- Every region of a network has the ports its declaration lists. -/
def Declared (n : Network) : Prop := ∀ r ∈ n.regions.items, r.Declared

/-- Declared ports read only the regions. -/
theorem Declared.of_regions (declared : n.Declared) (regions : m.regions = n.regions) :
    m.Declared := fun r member => declared r (regions ▸ member)

/-! Properties of every region of a network, and the changes that keep them. -/

section EveryRegion

variable {P : Region → Prop}

/-- A region found by name has a property every region has. -/
theorem forall_region (every : ∀ x ∈ n.regions.items, P x) (found : n.region name = .ok r) : P r :=
  every r (List.mem_map_of_mem (mem_of_region found))

/-- A region found among the entries has a property every region has. -/
theorem forall_find (every : ∀ x ∈ n.regions.items, P x) (found : n.regions.find? name = some r) :
    P r :=
  every r (List.mem_map_of_mem (Collection.mem_of_find? found))

/-- A property of every region is kept by storing a region that has it. -/
theorem forall_replaceRegion (every : ∀ x ∈ n.regions.items, P x)
    (stored : P r) : ∀ x ∈ (n.replaceRegion r).regions.items, P x := by
  intro x member
  rw [replaceRegion_regions] at member
  obtain ⟨e, present, rfl⟩ := List.mem_map.mp member
  rcases Collection.mem_store present with ⟨-, same, -⟩ | ⟨-, kept⟩
  · exact same ▸ stored
  · exact every _ (List.mem_map_of_mem kept)

/-- A property of every region is kept by adding a region that has it. -/
theorem forall_appendRegion (every : ∀ x ∈ n.regions.items, P x) (added : P r) :
    ∀ x ∈ (n.appendRegion r).regions.items, P x := by
  intro x member
  have listed : x ∈ (n.regions.entries ++ [(r.name, r)]).map (·.2) := member
  rw [List.map_append, List.mem_append] at listed
  rcases listed with kept | isAdded
  · exact every x kept
  · rw [List.map_singleton, List.mem_singleton] at isAdded
    exact isAdded ▸ added

/-- A property of every region is kept by changing every region by a change that keeps it. -/
theorem forall_mapRegions (every : ∀ x ∈ n.regions.items, P x) {f : Region → Region}
    (keeps : ∀ r, P r → P (f r)) :
    ∀ x ∈ ({ n with regions := ⟨n.regions.entries.map fun (k, r) => (k, f r)⟩ } : Network).regions.items,
      P x := by
  intro x member
  simp only [Collection.items, List.map_map, List.mem_map, Function.comp_apply] at member
  obtain ⟨e, present, rfl⟩ := member
  exact keeps _ (every _ (List.mem_map_of_mem present))

/-- A property of every region is kept by dropping the regions of a name. -/
theorem forall_dropRegion (every : ∀ x ∈ n.regions.items, P x) (name : String) :
    ∀ x ∈ (n.dropRegion name).regions.items, P x := by
  intro x member
  obtain ⟨e, present, rfl⟩ := List.mem_map.mp member
  exact every _ (List.mem_map_of_mem (List.mem_of_mem_filter present))

/-- Every region of a network without regions has every property. -/
theorem forall_of_empty (noRegions : n.regions.entries = []) : ∀ x ∈ n.regions.items, P x := by
  intro x member
  simp [Collection.items, noRegions] at member

end EveryRegion

/-- A region found in a network with declared ports has them. -/
theorem Declared.region (declared : n.Declared) (found : n.region name = .ok r) : r.Declared :=
  forall_region declared found

/-- A region found among the regions of a network with declared ports has them. -/
theorem Declared.find (declared : n.Declared) (found : n.regions.find? name = some r) :
    r.Declared :=
  forall_find declared found

/-- Storing a region with declared ports keeps a network's ports declared. -/
theorem Declared.replaceRegion (declared : n.Declared) (stored : r.Declared) :
    (n.replaceRegion r).Declared :=
  forall_replaceRegion declared stored

/-- Storing back, over a region found, one made from it by a change that keeps ports declared
keeps a network's ports declared. -/
theorem Declared.storeBack (declared : n.Declared) (found : n.region name = .ok old)
    (keeps : old.Declared → r.Declared) : (n.replaceRegion r).Declared :=
  declared.replaceRegion (keeps (declared.region found))

/-- Adding a region with declared ports keeps a network's ports declared. -/
theorem Declared.appendRegion (declared : n.Declared) (added : r.Declared) :
    (n.appendRegion r).Declared :=
  forall_appendRegion declared added

/-- Changing every region by a change that keeps ports declared keeps a network's ports
declared. -/
theorem Declared.mapRegions (declared : n.Declared) {f : Region → Region}
    (keeps : ∀ r, r.Declared → (f r).Declared) :
    ({ n with regions := ⟨n.regions.entries.map fun (k, r) => (k, f r)⟩ } : Network).Declared :=
  forall_mapRegions declared keeps

/-- Forgetting the topology keeps a network's ports declared. -/
theorem Declared.resetTopology (declared : n.Declared) : n.resetTopology.Declared :=
  (declared.mapRegions fun _ kept => kept.forget).of_regions rfl

/-- Dropping the regions of a name keeps a network's ports declared. -/
theorem Declared.dropRegion (declared : n.Declared) (name : String) :
    (n.dropRegion name).Declared :=
  forall_dropRegion declared name

/-- A found region with an output replaced by one of its name and shape has declared ports, in a
network that has them. -/
theorem Declared.withOutput (declared : n.Declared) (found : n.regions.find? name = some r)
    {o o' : Output} (outputFound : r.output k = .ok o) (named : o'.name = o.name)
    (shape : o'.shape = o.shape) : n.Declared ∧ (r.setOutput o').Declared :=
  ⟨declared, (declared.find found).setOutput outputFound named shape⟩
/-- A found region with an input replaced by one of its name and shape has declared ports, in a
network that has them. -/
theorem Declared.withInput (declared : n.Declared) (found : n.regions.find? name = some r)
    {i i' : Input} (inputFound : r.input k = .ok i) (named : i'.name = i.name)
    (shape : i'.shape = i.shape) : n.Declared ∧ (r.setInput i').Declared :=
  ⟨declared, (declared.find found).setInput inputFound named shape⟩
/-- A network without regions has every region's ports declared. -/
theorem Declared.of_empty (noRegions : n.regions.entries = []) : n.Declared :=
  forall_of_empty noRegions

end Network

namespace Op

/-!
## Storing regions
-/

/-- Storing a region with declared ports keeps them declared; what the network was is forgotten, so
that a later lookup reads only that its ports are declared. -/
theorem putRegion_declared (r : Region) :
    ⦃fun s => ⌜s.network.Declared ∧ r.Declared⌝⦄ putRegion r ⦃always (·.network.Declared)⦄ := by
  mvcgen [putRegion_spec]
  obtain ⟨declared, stored⟩ := ‹_ ∧ _›
  exact declared.replaceRegion stored

theorem resetTopology_declared :
    ⦃fun s => ⌜s.network.Declared⌝⦄ resetTopology ⦃always (·.network.Declared)⦄ := by
  mvcgen [-resetTopology_keeps, resetTopology_spec]
  exact Network.Declared.resetTopology ‹_›

theorem eachRegion_declared (f : Region → Region) (keeps : ∀ r, r.Declared → (f r).Declared) :
    ⦃fun s => ⌜s.network.Declared⌝⦄ eachRegion f ⦃always (·.network.Declared)⦄ := by
  mvcgen [eachRegion, -eachRegion_keeps]
  exact Network.Declared.mapRegions ‹_› keeps

/-!
## Edits of the topology
-/

theorem addRegion_declared (name typeName params : String) :
    ⦃fun s => ⌜s.network.Declared⌝⦄ addRegion name typeName params
    ⦃always (·.network.Declared)⦄ := by
  mvcgen [addRegion, -addRegion_keeps, -resetTopology_keeps, checkNewRegion, validateRegionName,
    stepFactory, lift, addRegionValue_spec, resetTopology_spec]
  all_goals first
    | exact ‹_›
    | exact (Network.Declared.appendRegion ‹_›
        (Region.declared_new_phases _ _ _ _ _ _)).resetTopology

theorem addRegionFromBundle_declared (name typeName : String) (dims : Dimensions)
    (path label : String) :
    ⦃fun s => ⌜s.network.Declared⌝⦄ addRegionFromBundle name typeName dims path label
    ⦃always (·.network.Declared)⦄ := by
  mvcgen [addRegionFromBundle, -addRegionFromBundle_keeps, -resetTopology_keeps, checkNewRegion,
    validateRegionName, stepFactory, lift, addRegionValue_spec, resetTopology_spec, region]
  all_goals first
    | exact ‹_›
    | exact (Network.Declared.appendRegion ‹_› (Region.declared_restored ‹_› _)).resetTopology

theorem connect_declared (src out dest inp policyType params : String) :
    ⦃fun s => ⌜s.network.Declared⌝⦄ connect src out dest inp policyType params
    ⦃always (·.network.Declared)⦄ := by
  mvcgen [connect, -connect_keeps, -resetTopology_keeps, resetTopology_spec, putRegion_declared,
    region, lift]
  all_goals first
    | exact ‹_›
    | exact Network.Declared.withOutput ‹_› (Network.region_eq_ok_iff.mp ‹_›) ‹_›
        (Output.addLink_shape _ _).1 (Output.addLink_shape _ _).2
    | exact Network.Declared.withInput ‹_› (Network.region_eq_ok_iff.mp ‹_›) ‹_›
        (Input.addLink_shape _ _).1 (Input.addLink_shape _ _).2
    | exact Network.Declared.resetTopology ‹_›

theorem detachLink_declared (id : Nat) :
    ⦃fun s => ⌜s.network.Declared⌝⦄ detachLink id ⦃always (·.network.Declared)⦄ := by
  mvcgen [detachLink, -detachLink_keeps, putRegion_declared, link, lift]
  all_goals first
    | exact ‹_›
    | exact Network.Declared.withOutput ‹_› ‹_› ‹_› (by rfl) (by rfl)
    | exact Network.Declared.withInput ‹_› ‹_› ‹_› (by rfl) (by rfl)

theorem removeRegion_declared (name : String) :
    ⦃fun s => ⌜s.network.Declared⌝⦄ removeRegion name ⦃always (·.network.Declared)⦄ := by
  mvcgen [removeRegion, -removeRegion_keeps, -detachLink_keeps, -resetTopology_keeps,
    detachLink_declared, resetTopology_spec, region, lift] invariants
  · always (·.network.Declared)
  all_goals first
    | exact ‹_›
    | exact (Network.Declared.dropRegion ‹_› name).resetTopology

theorem disconnect_declared (src out dest inp : String) :
    ⦃fun s => ⌜s.network.Declared⌝⦄ disconnect src out dest inp ⦃always (·.network.Declared)⦄ := by
  mvcgen [disconnect, -disconnect_keeps, -detachLink_keeps, -resetTopology_keeps,
    detachLink_declared, resetTopology_declared, region, lift]

theorem setRegionDimensions_declared (name : String) (dims : Dimensions) :
    ⦃fun s => ⌜s.network.Declared⌝⦄ setRegionDimensions name dims
    ⦃always (·.network.Declared)⦄ := by
  mvcgen [setRegionDimensions, -setRegionDimensions_keeps, -resetTopology_keeps, region, lift,
    putRegion_spec, resetTopology_spec]
  all_goals first
    | exact ‹_›
    | exact (Network.Declared.storeBack ‹_› ‹_› fun kept => kept.setDimensions ‹_›).resetTopology

theorem setPhases_declared (name : String) (phases : List UInt32) :
    ⦃fun s => ⌜s.network.Declared⌝⦄ setPhases name phases ⦃always (·.network.Declared)⦄ := by
  mvcgen [setPhases, -setPhases_keeps, region, lift, putRegion_spec]
  all_goals first
    | exact ‹_›
    | exact Network.Declared.storeBack ‹_› ‹_› fun kept => kept.of_ports (by rfl) (by rfl) (by rfl)

/-!
## Operations on a region's data
-/

theorem setParameter_declared (name param : String) (v : ParameterValue) :
    ⦃fun s => ⌜s.network.Declared⌝⦄ setParameter name param v ⦃always (·.network.Declared)⦄ := by
  mvcgen [setParameter, -setParameter_keeps, region, lift, putRegion_spec]
  all_goals first
    | exact ‹_›
    | exact Network.Declared.storeBack ‹_› ‹_› fun kept => kept.setParameter ‹_›

theorem executeCommand_declared (name : String) (args : List String) :
    ⦃fun s => ⌜s.network.Declared⌝⦄ executeCommand name args ⦃always (·.network.Declared)⦄ := by
  mvcgen [executeCommand, -executeCommand_keeps, region, lift, stepRegion, putRegion_spec]
  all_goals first
    | exact ‹_›
    | exact Network.Declared.storeBack ‹_› ‹_› fun kept => kept.executeCommand _

theorem addCallback_declared (name : String) :
    ⦃fun s => ⌜s.network.Declared⌝⦄ addCallback name ⦃always (·.network.Declared)⦄ := by
  mvcgen [addCallback, -addCallback_keeps, lift]

theorem removeCallback_declared (name : String) :
    ⦃fun s => ⌜s.network.Declared⌝⦄ removeCallback name ⦃always (·.network.Declared)⦄ := by
  mvcgen [removeCallback, -removeCallback_keeps, lift]

/-!
## Propagating and setting up
-/

theorem induceThrough_declared (id : Nat) :
    ⦃fun s => ⌜s.network.Declared⌝⦄ induceThrough id ⦃always (·.network.Declared)⦄ := by
  mvcgen [induceThrough, -induceThrough_keeps, stepLink, -stepLink_keeps, link, region, lift,
    putRegion_declared]
  all_goals first
    | exact ‹_›
    | exact ⟨‹_›, (Network.Declared.region ‹_› ‹_›).setDimensions ‹_›⟩

theorem induceAll_declared (fuel : Nat) :
    ⦃fun s => ⌜s.network.Declared⌝⦄ induceAll fuel ⦃always (·.network.Declared)⦄ := by
  induction fuel with
  | zero => mvcgen [induceAll, -induceAll_keeps]
  | succ fuel inductionHypothesis =>
      mvcgen [induceAll, -induceAll_keeps, -induceThrough_keeps, induceThrough_declared] invariants
      · always (·.network.Declared)

theorem routeLink_declared (id : Nat) :
    ⦃fun s => ⌜s.network.Declared⌝⦄ routeLink id ⦃always (·.network.Declared)⦄ := by
  mvcgen [routeLink, -routeLink_keeps, stepLink, -stepLink_keeps, link, region, lift]

theorem propagate_declared :
    ⦃fun s => ⌜s.network.Declared⌝⦄ propagate ⦃always (·.network.Declared)⦄ := by
  mvcgen [propagate, -propagate_keeps, -resetTopology_keeps, -induceAll_keeps, -routeLink_keeps,
    resetTopology_declared, induceAll_declared, routeLink_declared, lift, setState] invariants
  · always (·.network.Declared)

theorem layoutInput_declared_from {n : Network} (declared : n.Declared)
    (regionName inputName : String) (counts : List Nat) :
    ⦃fun s => ⌜s.network = n⌝⦄ layoutInput regionName inputName counts
    ⦃always (·.network.Declared)⦄ := by
  mvcgen [layoutInput, -layoutInput_keeps, region, lift, putRegion_declared] invariants
  · post⟨fun _ s => ⌜s.network.regions = n.regions⌝, fun _ s => ⌜s.network.Declared⌝⟩
  all_goals subst n
  all_goals first
    | exact declared
    | rfl
    | exact declared.of_regions ‹_›
    | exact ‹_›
    | exact ⟨declared.of_regions ‹_›, (declared.region ‹_›).setInput ‹_› (by rfl) (by rfl)⟩
    | exact ⟨declared.of_regions ‹_›, (declared.region ‹_›).setInput ‹_› (by rfl)
        (Input.layout_shape ‹_› _ _)⟩

theorem layoutInputs_declared (name : String) :
    ⦃fun s => ⌜s.network.Declared⌝⦄ layoutInputs name ⦃always (·.network.Declared)⦄ := by
  have laid := fun regionName inputName counts =>
    of_from fun _ declared => layoutInput_declared_from declared regionName inputName counts
  mvcgen [layoutInputs, -layoutInputs_keeps, -layoutInput_keeps, laid, sourceCounts, region, link,
    lift, List.mapM_eq_reverse_foldlM_cons] invariants
  · always (·.network.Declared)
  · always (·.network.Declared)
  · always (·.network.Declared)

theorem checkRequiredInputs_declared :
    ⦃fun s => ⌜s.network.Declared⌝⦄ checkRequiredInputs ⦃always (·.network.Declared)⦄ := by
  mvcgen [checkRequiredInputs, -checkRequiredInputs_keeps] invariants
  · always (·.network.Declared)
  · always (·.network.Declared)

theorem setUp_declared :
    ⦃fun s => ⌜s.network.Declared⌝⦄ setUp ⦃always (·.network.Declared)⦄ := by
  mvcgen [setUp, -setUp_keeps, -propagate_keeps, -checkRequiredInputs_keeps, -layoutInputs_keeps,
    propagate_declared, checkRequiredInputs_declared, layoutInputs_declared, region, lift,
    stepRegion, putRegion_declared, setState] invariants
  · always (·.network.Declared)
  · always (·.network.Declared)
  · always (·.network.Declared)
  · always (·.network.Declared)
  · always (·.network.Declared)
  · always (·.network.Declared)
  -- regions are stored back sized or initialized
  all_goals first
    | exact ‹_›
    | exact ⟨‹_›, (Network.Declared.region ‹_› ‹_›).sizeOutputs⟩
    | exact ⟨‹_›, (Network.Declared.region ‹_› ‹_›).of_ports (by rfl) (by rfl) (by rfl)⟩

/-!
## Running
-/

theorem consolidate_declared (i : Input) :
    ⦃fun s => ⌜s.network.Declared⌝⦄ consolidate i ⦃always (·.network.Declared)⦄ := by
  mvcgen [consolidate, -consolidate_keeps, lift] invariants
  · always (·.network.Declared)

theorem computeRegion_declared (name : String) :
    ⦃fun s => ⌜s.network.Declared⌝⦄ computeRegion name ⦃always (·.network.Declared)⦄ := by
  mvcgen [computeRegion, -computeRegion_keeps, -consolidate_keeps, consolidate_declared, region,
    lift, putRegion_declared, List.mapM_eq_reverse_foldlM_cons] invariants
  · always (·.network.Declared)
  · always (·.network.Declared)
  -- each input is stored back with its merged data, then the region with what it computed
  all_goals first
    | exact ‹_›
    | exact ⟨‹_›, (Network.Declared.region ‹_› ‹_›).setInput ‹_› (Input.setData_shape ‹_›).1
        (Input.setData_shape ‹_›).2⟩
    | exact ⟨‹_›, (Network.Declared.region ‹_› ‹_›).compute ‹_›⟩

theorem iterate_declared (order : List String) :
    ⦃fun s => ⌜s.network.Declared⌝⦄ iterate order ⦃always (·.network.Declared)⦄ := by
  mvcgen [iterate, -iterate_keeps, -computeRegion_keeps, computeRegion_declared, region, lift,
    setState] invariants
  · always (·.network.Declared)
  · always (·.network.Declared)

theorem run_declared (count : Nat) :
    ⦃fun s => ⌜s.network.Declared⌝⦄ run count ⦃always (·.network.Declared)⦄ := by
  mvcgen [run, -run_keeps, -setUp_keeps, -iterate_keeps, setUp_declared, iterate_declared]
    invariants
  · always (·.network.Declared)
  · always (·.network.Declared)
  · always (·.network.Declared)

/-!
## Saving and loading
-/

theorem saveWithLabel_declared (path label : String) :
    ⦃fun s => ⌜s.network.Declared⌝⦄ saveWithLabel path label ⦃always (·.network.Declared)⦄ := by
  have changed := changeFiles_network Network.Declared
  have discarded := discardTree_network Network.Declared
  have named := siblingPath_network Network.Declared
  have written := writeBundle_network Network.Declared
  have replaced := replaceBundle_network Network.Declared
  mvcgen [saveWithLabel, -saveWithLabel_keeps, setState, -siblingPath_keeps, -changeFiles_keeps,
    -writeBundle_keeps, -discardTree_keeps, -replaceBundle_keeps, named, changed, written,
    discarded, replaced]

theorem save_declared (path : String) :
    ⦃fun s => ⌜s.network.Declared⌝⦄ save path ⦃always (·.network.Declared)⦄ := by
  mvcgen [save, -save_keeps, -saveWithLabel_keeps, saveWithLabel_declared]

theorem restoreRegion_declared (path label : String) (saved : RegionRecord) :
    ⦃fun s => ⌜s.network.Declared⌝⦄ restoreRegion path label saved ⦃always (·.network.Declared)⦄ := by
  mvcgen [restoreRegion, -restoreRegion_keeps, validateRegionName, lift, stepFactory,
    addRegionValue_spec]
  -- the region is made as it is new, or restored with the dimensions it was saved with
  all_goals first
    | exact ‹_›
    | exact Network.Declared.appendRegion ‹_› (Region.declared_restored ‹_› _)
    | exact Network.Declared.appendRegion ‹_› (Region.declared_new_phases _ _ _ _ _ _)

theorem loadDescription_declared (path : String) :
    ⦃fun s => ⌜s.network.Declared⌝⦄ loadDescription path ⦃always (·.network.Declared)⦄ := by
  have described : ⦃fun s => ⌜s.network.Declared⌝⦄ readDescription path
      ⦃always (·.network.Declared)⦄ := by
    mvcgen [readDescription, -readDescription_keeps]
  mvcgen [loadDescription, discard_eq, -loadDescription_keeps, -readDescription_keeps,
    -restoreRegion_keeps, -connect_keeps, -resetTopology_keeps, described,
    restoreRegion_declared, connect_declared, resetTopology_declared] invariants
  · always (·.network.Declared)
  · always (·.network.Declared)

/-- A failed load empties the network, whose ports are declared again. -/
theorem load_declared (path : String) :
    ⦃fun s => ⌜s.network.Declared⌝⦄ load path ⦃always (·.network.Declared)⦄ := by
  mvcgen [load, -load_keeps, -loadDescription_keeps, -resetTopology_keeps, loadDescription_declared,
    resetTopology_spec]
  all_goals first
    | exact id
    | exact Network.Declared.resetTopology (Network.Declared.of_empty rfl)

end Op

namespace Command

/-- Every command keeps the ports of a network's regions declared, whether it succeeds or
fails. -/
theorem op_declared (c : Command) :
    ⦃fun s => ⌜s.network.Declared⌝⦄ c.op ⦃Op.always (·.network.Declared)⦄ := by
  cases c with
  | addRegion name typeName params => exact Op.addRegion_declared name typeName params
  | addRegionFromBundle name typeName dims path label =>
      exact Op.discard_triple (Op.addRegionFromBundle_declared name typeName dims path label)
  | removeRegion name => exact Op.removeRegion_declared name
  | connect src out dest inp policyType params =>
      exact Op.discard_triple (Op.connect_declared src out dest inp policyType params)
  | disconnect src out dest inp => exact Op.disconnect_declared src out dest inp
  | setRegionDimensions name dims => exact Op.setRegionDimensions_declared name dims
  | setPhases name phases => exact Op.setPhases_declared name phases
  | setMinEnabled phase => mvcgen [op, Op.setMinEnabled]
  | setMaxEnabled phase => mvcgen [op, Op.setMaxEnabled]
  | propagate => exact Op.propagate_declared
  | setUp => exact Op.setUp_declared
  | run count => exact Op.run_declared count
  | setParameter name param value => exact Op.setParameter_declared name param value
  | executeCommand name args => exact Op.discard_triple (Op.executeCommand_declared name args)
  | saveWithLabel path label => exact Op.saveWithLabel_declared path label
  | save path => exact Op.save_declared path
  | load path => exact Op.load_declared path
  | addCallback name => exact Op.addCallback_declared name
  | removeCallback name => exact Op.removeCallback_declared name
  | enableProfiling =>
      exact Op.eachRegion_declared (fun r => { r with profiling := true })
        fun _ kept => kept.of_ports rfl rfl rfl
  | disableProfiling =>
      exact Op.eachRegion_declared (fun r => { r with profiling := false })
        fun _ kept => kept.of_ports rfl rfl rfl
  | resetProfiling =>
      exact Op.eachRegion_declared Region.resetProfiling fun _ kept => kept.of_ports rfl rfl rfl

end Command

/-- Every region of a reachable network has the ports its declaration lists. -/
theorem Reachable.declared {s : Session} (reachable : Reachable s) : s.network.Declared := by
  induction reachable with
  | fresh empty => exact Network.Declared.of_empty (by rw [empty]; rfl)
  | command c _ declared => exact Op.leaves_of_keeps c.op_declared declared
  | environment _ same declared => exact Network.Declared.of_regions declared (by rw [same])

end RegionNet
