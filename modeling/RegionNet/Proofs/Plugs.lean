import RegionNet.Proofs.Wiring

namespace RegionNet

/-!
# What a region's steps leave of its wiring

Sizing a region's outputs, laying out or feeding an input, computing, setting a parameter and
running a command change the data a region holds, never the links its ports list: each leaves
the region's plugs (`Region.plugs`) as they were, and a wired network that stores the region back
stays wired.

A port is stored back by name, over every entry under that name, so the plugs survive only
because the entries under one name agree (`Region.PortsKeyed`), as they do in a wired network,
where each lists the links at its name.
-/

namespace Output

variable {o o' : Output}

@[simp] theorem plug_teardown : o.teardown.plug = o.plug := rfl

/-- Sizing an output keeps its plug. -/
theorem allocate_plug {count : Nat} (made : o.allocate count = .ok o') : o'.plug = o.plug := by
  simp only [allocate, bind, Except.bind] at made
  split at made
  · cases made
  · cases made
    rfl

end Output

namespace Link

/-- Preparing a link keeps its plug. -/
theorem prepare_plug (l : Link) : l.prepare.1.plug = l.plug := by
  unfold prepare
  split
  · rfl
  · split <;> rfl

/-- Preparing a link keeps its number. -/
@[simp] theorem prepare_id (l : Link) : l.prepare.1.id = l.id := congrArg Prod.fst l.prepare_plug

/-- Preparing a link keeps its ends. -/
@[simp] theorem prepare_endpoints (l : Link) : l.prepare.1.endpoints = l.endpoints :=
  congrArg Prod.snd l.prepare_plug

end Link

namespace Input

variable {i i' : Input}

/-- Taking merged data keeps an input's plug. -/
theorem setData_plug {b : Buffer} (set : i.setData b = .ok i') : i'.plug = i.plug := by
  unfold setData at set
  split at set
  · cases set
  · cases set
    rfl

end Input

namespace RegionIo

/-- The plug of every output, under its key. -/
def outputPlugs (io : RegionIo) : List (String × String × List Nat) :=
  io.outputs.entries.map fun e => (e.1, e.2.plug)

variable {io io' : RegionIo}

/-- Writing an output's elements keeps the outputs' plugs. -/
theorem writeOutput_outputPlugs {name : String} {xs : List Element}
    (written : io.writeOutput name xs = .ok io') :
    io'.outputPlugs = io.outputPlugs := by
  simp only [writeOutput, bind, Except.bind] at written
  split at written
  · cases written
  · split at written
    · cases written
    · cases written
      simp only [outputPlugs, List.map_map]
      refine List.map_congr_left fun e _ => ?_
      obtain ⟨k, v⟩ := e
      by_cases atName : k = name <;> simp [atName, Output.plug]

end RegionIo

end RegionNet

namespace RegionNet

namespace Probe

/-- Filling an output keeps the outputs' plugs. -/
theorem fill_outputPlugs {io io' : RegionIo} {name : String} {f : ElementType → Nat → Element}
    (filled : fill io name f = .ok io') :
    io'.outputPlugs = io.outputPlugs := by
  unfold fill at filled
  split at filled
  · cases filled
    rfl
  · exact RegionIo.writeOutput_outputPlugs filled

/-- Filling outputs one after the other keeps the outputs' plugs. -/
theorem foldlM_fill_outputPlugs {names : List String} {f : String → ElementType → Nat → Element}
    {io io' : RegionIo}
    (filled : names.foldlM (fun io name => fill io name (f name)) io = .ok io') :
    io'.outputPlugs = io.outputPlugs := by
  induction names generalizing io with
  | nil =>
      cases filled
      rfl
  | cons name rest inductionHypothesis =>
      simp only [List.foldlM_cons, bind, Except.bind] at filled
      split at filled
      · cases filled
      · rename_i next first
        rw [inductionHypothesis filled, fill_outputPlugs first]

/-- A probe's step keeps the outputs' plugs. -/
theorem compute_outputPlugs {role : Role} {iteration iteration' : Nat} {io io' : RegionIo}
    (computed : compute role iteration io = .ok (iteration', io')) :
    io'.outputPlugs = io.outputPlugs := by
  simp only [compute, bind, Except.bind, pure, Except.pure, throw, throwThe, MonadExceptOf.throw]
    at computed
  repeat' split at computed
  all_goals cases computed
  · exact fill_outputPlugs ‹_›
  · exact foldlM_fill_outputPlugs ‹_›

end Probe

/-- A reference step keeps the outputs' plugs. -/
theorem Reference.compute_outputPlugs {s s' : Reference.State} {io io' : RegionIo}
    (computed : Reference.compute s io = .ok (s', io')) :
    io'.outputPlugs = io.outputPlugs := by
  simp only [Reference.compute, bind, Except.bind, pure, Except.pure, throw, throwThe,
    MonadExceptOf.throw] at computed
  repeat' split at computed
  all_goals cases computed
  exact RegionIo.writeOutput_outputPlugs ‹_›

/-- An implementation's step keeps the outputs' plugs. -/
theorem Implementation.compute_outputPlugs {impl impl' : Implementation} {io io' : RegionIo}
    (computed : impl.compute io = .ok (impl', io')) :
    io'.outputPlugs = io.outputPlugs := by
  cases impl with
  | reference state =>
      simp only [Implementation.compute, Functor.map, Except.map] at computed
      split at computed
      · cases computed
      · rename_i result stepped
        cases computed
        exact Reference.compute_outputPlugs stepped
  | probe role iteration =>
      simp only [Implementation.compute, Functor.map, Except.map] at computed
      split at computed
      · cases computed
      · rename_i result stepped
        cases computed
        exact Probe.compute_outputPlugs stepped

namespace Region

variable {r r' : Region}

/-- Ports stored under one name have one plug. -/
structure PortsKeyed (r : Region) : Prop where
  inputs : ∀ p ∈ r.inputs.entries, ∀ q ∈ r.inputs.entries, p.1 = q.1 → p.2.plug = q.2.plug
  outputs : ∀ p ∈ r.outputs.entries, ∀ q ∈ r.outputs.entries, p.1 = q.1 → p.2.plug = q.2.plug

/-- Keyed ports are read off the plugs. -/
theorem PortsKeyed.of_plugs_eq (keyed : r.PortsKeyed) (same : r'.plugs = r.plugs) :
    r'.PortsKeyed where
  inputs := by
    intro p first q second key
    obtain ⟨p', first', pKey, pPlug⟩ := mem_inputs_of_plugs_eq same first
    obtain ⟨q', second', qKey, qPlug⟩ := mem_inputs_of_plugs_eq same second
    rw [← pPlug, ← qPlug]
    exact keyed.inputs p' first' q' second' (by rw [pKey, qKey, key])
  outputs := by
    intro p first q second key
    obtain ⟨p', first', pKey, pPlug⟩ := mem_outputs_of_plugs_eq same first
    obtain ⟨q', second', qKey, qPlug⟩ := mem_outputs_of_plugs_eq same second
    rw [← pPlug, ← qPlug]
    exact keyed.outputs p' first' q' second' (by rw [pKey, qKey, key])

/-- A computation stores the implementation and outputs its step returned, and counts itself when
profiling; the rest of the region is kept. -/
theorem compute_eq_ok (computed : r.compute = .ok r') :
    ∃ impl io, r.impl.compute ⟨r.name, r.dims, r.inputs, r.outputs⟩ = .ok (impl, io) ∧
      r' = { r with
        impl := impl
        outputs := io.outputs
        computeCalls := if r.profiling then r.computeCalls + 1 else r.computeCalls } := by
  simp only [compute, bind, Except.bind, pure, Except.pure, throw, throwThe, MonadExceptOf.throw]
    at computed
  split at computed
  · cases computed
  · split at computed
    · cases computed
    · rename_i stepped
      cases computed
      exact ⟨_, _, stepped, rfl⟩

/-- Sizing one output changes only the outputs. -/
theorem sizeOutput_outputs (nodes : Nat) (name : String) :
    ∃ outputs, (r.sizeOutput nodes name).1 = { r with outputs } := by
  unfold sizeOutput
  split
  · exact ⟨r.outputs, rfl⟩
  · exact ⟨r.outputs, rfl⟩
  · dsimp only
    repeat' split
    all_goals exact ⟨_, rfl⟩

/-- Sizing outputs one after the other changes only the outputs. -/
theorem foldl_sizeOutput_outputs (nodes : Nat) (names : List String)
    {acc : Region × Except EngineError Unit} (sofar : ∃ outputs, acc.1 = { r with outputs }) :
    ∃ outputs, (names.foldl (fun (acc : Region × Except EngineError Unit) name =>
      match acc with
      | (r, .ok ()) => r.sizeOutput nodes name
      | failed => failed) acc).1 = { r with outputs } := by
  induction names generalizing acc with
  | nil => exact sofar
  | cons name rest inductionHypothesis =>
    apply inductionHypothesis
    obtain ⟨current, outcome⟩ := acc
    obtain ⟨outputs, same⟩ := sofar
    dsimp only at same
    subst same
    cases outcome with
    | ok => exact sizeOutput_outputs nodes name
    | error => exact ⟨outputs, rfl⟩

/-- Sizing all outputs changes only the outputs. -/
theorem sizeOutputs_outputs : ∃ outputs, r.sizeOutputs.1 = { r with outputs } := by
  unfold sizeOutputs
  split
  · exact ⟨r.outputs, rfl⟩
  · split
    · exact ⟨r.outputs, rfl⟩
    · exact foldl_sizeOutput_outputs _ _ ⟨r.outputs, rfl⟩

/-- Setting a parameter changes only the implementation. -/
theorem setParameter_eq_ok {name : String} {v : ParameterValue}
    (set : r.setParameter name v = .ok r') : ∃ impl, r' = { r with impl } := by
  simp only [setParameter, bind, Except.bind, pure, Except.pure, throw, throwThe,
    MonadExceptOf.throw] at set
  repeat' split at set
  all_goals cases set
  exact ⟨_, rfl⟩

/-- Running a command changes only the implementation and the count of commands. -/
theorem executeCommand_fst (args : List String) :
    ∃ impl executeCalls, (r.executeCommand args).1 = { r with impl, executeCalls } := by
  unfold executeCommand
  repeat' split
  all_goals exact ⟨_, _, rfl⟩

/-- Storing back, over a found input, one with its plug keeps a region's plugs. -/
theorem setInput_plugs (named : r.PortsNamed) (keyed : r.PortsKeyed) {k : String} {i i' : Input}
    (found : r.input k = .ok i) (same : i'.plug = i.plug) :
    (r.setInput i').plugs = r.plugs := by
  obtain ⟨stored, iNamed⟩ := input_named named found
  have i'Named : i'.name = k := by
    rw [← iNamed]
    exact congrArg Prod.fst same
  simp only [plugs, setInput, List.map_map, Prod.mk.injEq, true_and, and_true]
  refine List.map_congr_left fun e member => ?_
  obtain ⟨k', x⟩ := e
  by_cases atKey : k' = k
  · subst atKey
    have agree := keyed.inputs _ stored _ member rfl
    simp [i'Named, same, agree]
  · simp [i'Named, atKey]

/-- Storing back, over a found output, one with its plug keeps a region's plugs. -/
theorem setOutput_plugs (named : r.PortsNamed) (keyed : r.PortsKeyed) {k : String} {o o' : Output}
    (found : r.output k = .ok o) (same : o'.plug = o.plug) :
    (r.setOutput o').plugs = r.plugs := by
  obtain ⟨stored, oNamed⟩ := output_named named found
  have o'Named : o'.name = k := by
    rw [← oNamed]
    exact congrArg Prod.fst same
  simp only [plugs, setOutput, List.map_map, Prod.mk.injEq, true_and]
  refine List.map_congr_left fun e member => ?_
  obtain ⟨k', x⟩ := e
  by_cases atKey : k' = k
  · subst atKey
    have agree := keyed.outputs _ stored _ member rfl
    simp [o'Named, same, agree]
  · simp [o'Named, atKey]

/-- Computing keeps a region's plugs. -/
theorem compute_plugs (computed : r.compute = .ok r') : r'.plugs = r.plugs := by
  obtain ⟨impl, io, stepped, rfl⟩ := compute_eq_ok computed
  have same := Implementation.compute_outputPlugs stepped
  simp only [RegionIo.outputPlugs] at same
  simp [plugs, same]

/-- Sizing one output keeps a region's plugs. -/
theorem sizeOutput_plugs (named : r.PortsNamed) (keyed : r.PortsKeyed) (nodes : Nat)
    (name : String) :
    (r.sizeOutput nodes name).1.plugs = r.plugs := by
  unfold sizeOutput
  split
  · rfl
  · rfl
  · rename_i found
    dsimp only
    -- the region comes back as it was, or with the found output stored back sized or released
    repeat' split
    all_goals first
      | rfl
      | exact setOutput_plugs named keyed found (Output.allocate_plug ‹_›)
      | exact setOutput_plugs named keyed found rfl

/-- Sizing outputs one after the other keeps a region's plugs, whatever the outputs. -/
theorem foldl_sizeOutput_plugs (named : r.PortsNamed) (keyed : r.PortsKeyed) (nodes : Nat)
    (names : List String) {acc : Region × Except EngineError Unit} (sofar : acc.1.plugs = r.plugs) :
    (names.foldl (fun (acc : Region × Except EngineError Unit) name =>
      match acc with
      | (r, .ok ()) => r.sizeOutput nodes name
      | failed => failed) acc).1.plugs = r.plugs := by
  induction names generalizing acc with
  | nil => exact sofar
  | cons name rest inductionHypothesis =>
      apply inductionHypothesis
      obtain ⟨current, outcome⟩ := acc
      -- a region sized so far has the plugs, hence the named and keyed ports, it started with
      cases outcome with
      | ok =>
          rw [sizeOutput_plugs (named.of_plugs_eq sofar) (keyed.of_plugs_eq sofar)]
          exact sofar
      | error => exact sofar

/-- Sizing all outputs keeps a region's plugs. -/
theorem sizeOutputs_plugs (named : r.PortsNamed) (keyed : r.PortsKeyed) :
    r.sizeOutputs.1.plugs = r.plugs := by
  unfold sizeOutputs
  split
  · rfl
  · split
    · rfl
    · exact foldl_sizeOutput_plugs named keyed _ _ rfl

/-- Setting a parameter keeps a region's plugs. -/
theorem setParameter_plugs {name : String} {v : ParameterValue}
    (set : r.setParameter name v = .ok r') :
    r'.plugs = r.plugs := by
  obtain ⟨impl, rfl⟩ := setParameter_eq_ok set
  rfl

/-- Running a command keeps a region's plugs. -/
theorem executeCommand_plugs (args : List String) : (r.executeCommand args).1.plugs = r.plugs := by
  obtain ⟨impl, executeCalls, ran⟩ := executeCommand_fst (r := r) args
  rw [ran]
  rfl

end Region

namespace Network

variable {n : Network}

/-- Storing back, under the name it was found by, a region with the plugs of the one found keeps
the wiring. -/
theorem Wired.storeBack
    (wired : n.Wired)
    {name : String}
    {old r : Region}
    (found : n.region name = .ok old)
    (same : r.plugs = old.plugs) :
    (n.replaceRegion r).Wired := by
  have oldNamed : old.name = name := wired.named _ (mem_of_region found)
  have named : r.name = name := by
    rw [← oldNamed]
    exact congrArg Prod.fst same
  subst named
  exact wired.replaceRegion found same

/-- In a wired network, the ports a region stores under one name have one plug. -/
theorem Wired.portsKeyed (wired : n.Wired) {e : String × Region} (stored : e ∈ n.regions.entries) :
    e.2.PortsKeyed where
  inputs := by
    intro p first q second key
    simp only [Input.plug, wired.portsNamed e stored |>.inputs p first,
      wired.portsNamed e stored |>.inputs q second, wired.inputs e stored p first,
      wired.inputs e stored q second, key]
  outputs := by
    intro p first q second key
    simp only [Output.plug, wired.portsNamed e stored |>.outputs p first,
      wired.portsNamed e stored |>.outputs q second, wired.outputs e stored p first,
      wired.outputs e stored q second, key]

/-- Storing back a found region with one of its inputs replaced by one with that input's plug keeps
the wiring. -/
theorem Wired.storeInput
    (wired : n.Wired)
    {name k : String}
    {r : Region}
    {i i' : Input}
    (found : n.region name = .ok r)
    (inputFound : r.input k = .ok i)
    (same : i'.plug = i.plug) :
    (n.replaceRegion (r.setInput i')).Wired :=
  wired.storeBack found (Region.setInput_plugs (wired.portsNamed _ (mem_of_region found))
    (wired.portsKeyed (mem_of_region found)) inputFound same)

/-- Storing back a found region with its outputs sized keeps the wiring. -/
theorem Wired.storeSized
    (wired : n.Wired)
    {name : String}
    {r : Region}
    (found : n.region name = .ok r) :
    (n.replaceRegion r.sizeOutputs.1).Wired :=
  wired.storeBack found (Region.sizeOutputs_plugs (wired.portsNamed _ (mem_of_region found))
    (wired.portsKeyed (mem_of_region found)))

/-- Storing back a link with the plug of a link of a wired network keeps the wiring. -/
theorem Wired.replaceLink
    (wired : n.Wired)
    {l x : Link}
    (member : x ∈ n.links)
    (same : l.plug = x.plug) :
    (n.replaceLink l).Wired := by
  have numbered : l.id = x.id := congrArg Prod.fst same
  refine wired.of_plugs_eq rfl ?_ le_rfl
  simp only [Network.replaceLink, List.map_map]
  refine List.map_congr_left fun y present => ?_
  by_cases atNumber : y.id = l.id
  · obtain rfl := wired.eq_of_id_eq present member (atNumber.trans numbered)
    simp [atNumber, same]
  · simp [atNumber]

/-- Storing back a link with the plug of one found by number keeps the wiring. -/
theorem Wired.replaceFound
    (wired : n.Wired)
    {id : Nat}
    {l x : Link}
    (found : n.link id = .ok x)
    (same : l.plug = x.plug) :
    (n.replaceLink l).Wired :=
  wired.replaceLink (link_eq_ok found).1 same

/-- Changing every region in a way that keeps its plugs keeps the wiring. -/
theorem Wired.mapRegions
    (wired : n.Wired)
    (f : Region → Region)
    (same : ∀ r, (f r).plugs = r.plugs) :
    ({ n with regions := ⟨n.regions.entries.map fun (k, r) => (k, f r)⟩ } : Network).Wired := by
  refine wired.of_plugs_eq ?_ rfl le_rfl
  simp [regionPlugs, Function.comp_def, same]

end Network

end RegionNet
