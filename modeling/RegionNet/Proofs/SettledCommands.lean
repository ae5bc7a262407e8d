import RegionNet.Proofs.Settled

set_option mvcgen.warning false

namespace RegionNet

open Std.Do

/-!
# Every command keeps the promise of the state

A network's state promises what the operation that set it established (`Network.Settled`): a
network in state `dimensionsPropagated` is propagated, and one set up is laid out. This module
shows that every command keeps the promise, whether it succeeds or fails, so that every reachable
network keeps it (`Reachable.settled`).

The commands fall into few kinds. An edit of the topology either fails leaving the network as it
was or forgets the topology, and with it the state. Propagation forgets the topology first and
sets its state last, only when it has routed every link. Setting up makes its three passes in the
state propagation left, changing nothing propagation reads, and sets its state last, once the
passes have laid the network out. Running computes in a network set up, and saving marks one
set up as saved. What remains changes regions into ones that stand in for them, or nothing the
promise reads.
-/

/-- A state other than the two before setting up has been set up. -/
theorem NetworkState.isSetUp_of_ne {st : NetworkState} (notFresh : st ≠ .unconfigured)
    (notPropagated : st ≠ .dimensionsPropagated) : st.isSetUp = true := by
  cases st <;> simp_all [NetworkState.isSetUp]

/-- Storing, under a key, a value at the level of the one found there keeps the level found under
every key. -/
theorem Collection.levels_store {α β : Type} {c : Collection α} {level : α → β} {k : String}
    {x y : α} (found : c.find? k = some y) (same : level x = level y) (k' : String) :
    ((c.store k x).find? k').map level = (c.find? k').map level := by
  rw [Collection.find?_store, Option.map_map]
  by_cases atKey : k' = k
  · subst atKey
    simp [found, same]
  · simp [atKey, Function.comp_def]

namespace Output

variable {o o' : Output}

/-- Allocating keeps an output's name and level. -/
theorem allocate_keeps {count : Nat} (made : o.allocate count = .ok o') :
    o'.name = o.name ∧ o'.regionLevel = o.regionLevel := by
  simp only [allocate, bind, Except.bind] at made
  split at made
  · cases made
  · cases made
    exact ⟨rfl, rfl⟩

end Output

namespace Region

variable {r : Region}

/-- Storing back, over an output found under a key, one with its name and level keeps what
sizing keeps. -/
theorem setOutput_resized (named : r.PortsNamed) {k : String} {o o' : Output}
    (found : r.output k = .ok o) (name : o'.name = o.name)
    (level : o'.regionLevel = o.regionLevel) : (r.setOutput o').Resized r := by
  obtain ⟨stored, oNamed⟩ := output_named named found
  have located : r.outputs.find? (o'.name) = some o := by
    rw [name, oNamed]
    unfold Region.output at found
    split at found <;> simp_all
  exact ⟨rfl, rfl, rfl, rfl, rfl, Collection.levels_store located level⟩

/-- Storing back, over an input found under a key, one with its name and level reads the ends of
links alike. -/
theorem setInput_sameEnds (named : r.PortsNamed) {k : String} {i i' : Input}
    (found : r.input k = .ok i) (name : i'.name = i.name)
    (level : i'.regionLevel = i.regionLevel) : (r.setInput i').SameEnds r := by
  obtain ⟨stored, iNamed⟩ := input_named named found
  have located : r.inputs.find? (i'.name) = some i := by
    rw [name, iNamed]
    unfold Region.input at found
    split at found <;> simp_all
  exact ⟨rfl, rfl, Collection.levels_store located level, fun _ => rfl⟩

/-- Sizing one output, whether it succeeds or not, keeps what sizing keeps. -/
theorem sizeOutput_resized (named : r.PortsNamed) (nodes : Nat) (name : String) :
    (r.sizeOutput nodes name).1.Resized r := by
  unfold sizeOutput
  split
  · exact Resized.refl r
  · exact Resized.refl r
  · rename_i found
    dsimp only
    -- the region comes back as it was, or with the found output stored back sized or released
    repeat' split
    all_goals first
      | exact Resized.refl r
      | exact setOutput_resized named found (Output.allocate_keeps ‹_›).1
          (Output.allocate_keeps ‹_›).2
      | exact setOutput_resized named found rfl rfl

/-- Sizing one output keeps the ports under their names. -/
theorem sizeOutput_portsNamed (named : r.PortsNamed) (nodes : Nat) (name : String) :
    (r.sizeOutput nodes name).1.PortsNamed := by
  unfold sizeOutput
  split
  · exact named
  · exact named
  · dsimp only
    repeat' split
    all_goals first
      | exact named
      | exact named.setOutput

/-- Sizing outputs one after the other keeps what sizing keeps, however far it gets. -/
theorem foldl_sizeOutput_resized (nodes : Nat) (names : List String)
    {acc : Region × Except EngineError Unit} (sofar : acc.1.Resized r) (namedSoFar : acc.1.PortsNamed) :
    (names.foldl (fun (acc : Region × Except EngineError Unit) name =>
      match acc with
      | (r, .ok ()) => r.sizeOutput nodes name
      | failed => failed) acc).1.Resized r := by
  induction names generalizing acc with
  | nil => exact sofar
  | cons name rest inductionHypothesis =>
      obtain ⟨current, outcome⟩ := acc
      cases outcome with
      | ok =>
          exact inductionHypothesis ((sizeOutput_resized namedSoFar nodes name).trans sofar)
            (sizeOutput_portsNamed namedSoFar nodes name)
      | error => exact inductionHypothesis sofar namedSoFar

/-- Sizing a region's outputs, whether it succeeds or not, keeps what sizing keeps. -/
theorem sizeOutputs_resized (named : r.PortsNamed) : r.sizeOutputs.1.Resized r := by
  unfold sizeOutputs
  split
  · exact Resized.refl r
  · split
    · exact Resized.refl r
    · exact foldl_sizeOutput_resized _ _ (Resized.refl r) named

end Region

namespace Network

variable {n : Network}

/-- A network ready to be set up: wired, propagated, and in state `dimensionsPropagated`. Setting
up keeps it so until its last step, so that a set-up that fails leaves it so. -/
structure Prepared (n : Network) : Prop where
  wired : n.Wired
  propagated : n.Propagated
  state : n.state = .dimensionsPropagated

/-- A network ready to be set up keeps the promise of its state. -/
theorem Prepared.settled (prepared : n.Prepared) : n.Settled :=
  Settled.of_propagated prepared.propagated prepared.state

/-- Storing back, over a found region, one with its plugs whose links' ends read alike keeps a
network ready to be set up. -/
theorem Prepared.storeBack (prepared : n.Prepared) {name : String} {old r : Region}
    (found : n.region name = .ok old) (plugs : r.plugs = old.plugs) (ends : r.SameEnds old) :
    (n.replaceRegion r).Prepared := by
  have oldNamed : old.name = name := prepared.wired.named _ (mem_of_region found)
  have named : r.name = name := by
    rw [← oldNamed]
    exact congrArg Prod.fst plugs
  refine ⟨prepared.wired.storeBack found plugs, ?_, prepared.state⟩
  exact prepared.propagated.of_routedAlike
    (RoutedAlike.replaceRegion (by rw [named]; exact found) ends)

/-- Storing back a found region with its outputs sized, however far sizing got, keeps a network
ready to be set up. -/
theorem Prepared.storeSized (prepared : n.Prepared) {name : String} {r : Region}
    (found : n.region name = .ok r) : (n.replaceRegion r.sizeOutputs.1).Prepared :=
  prepared.storeBack found
    (Region.sizeOutputs_plugs (prepared.wired.portsNamed _ (mem_of_region found))
      (prepared.wired.portsKeyed (mem_of_region found)))
    (Region.sizeOutputs_resized (prepared.wired.portsNamed _ (mem_of_region found))).sameEnds

/-- Storing back a found region initialized keeps a network ready to be set up. -/
theorem Prepared.storeInit (prepared : n.Prepared) {name : String} {r : Region}
    (found : n.region name = .ok r) : (n.replaceRegion r.init).Prepared :=
  prepared.storeBack found rfl ⟨rfl, rfl, fun _ => rfl, fun _ => rfl⟩

/-- Storing back a found region with one of its inputs replaced by one with its plug and level
keeps a network ready to be set up. -/
theorem Prepared.storeInput (prepared : n.Prepared) {name k : String} {r : Region} {i i' : Input}
    (found : n.region name = .ok r) (inputFound : r.input k = .ok i) (plug : i'.plug = i.plug)
    (level : i'.regionLevel = i.regionLevel) : (n.replaceRegion (r.setInput i')).Prepared :=
  prepared.storeBack found
    (Region.setInput_plugs (prepared.wired.portsNamed _ (mem_of_region found))
      (prepared.wired.portsKeyed (mem_of_region found)) inputFound plug)
    (Region.setInput_sameEnds (prepared.wired.portsNamed _ (mem_of_region found)) inputFound
      (congrArg Prod.fst plug) level)

/-- Storing back a link of the network with another offset keeps a network ready to be set up. -/
theorem Prepared.storeOffset (prepared : n.Prepared) {l : Link} (member : l ∈ n.links)
    (offset : Nat) : (n.replaceLink { l with offset }).Prepared :=
  ⟨prepared.wired.replaceLink member rfl,
    prepared.propagated.of_routedAlike
      (RoutedAlike.replaceLink prepared.wired.integrity.numbersApart member rfl rfl),
    prepared.state⟩

/-- Marking a network set up as saved keeps its promise. -/
theorem Settled.serialize (settled : n.Settled) (setUp : n.state.isSetUp = true) :
    ({ n with state := .serialized } : Network).Settled :=
  Settled.of_laidOut ((settled.laidOut setUp).of_same rfl rfl rfl) rfl

/-- A wired network set up that keeps its promise is running. -/
theorem Running.of_settled (wired : n.Wired) (settled : n.Settled) (setUp : n.state.isSetUp = true) :
    n.Running :=
  ⟨wired, settled.laidOut setUp, setUp⟩

/-- The passes of setting up, when they succeed, leave the network initialized. -/
theorem state_of_setUpPasses {m : Network} (passes : n.setUpPasses = some m) :
    m.state = .initialized := by
  simp only [setUpPasses, bind, Option.bind_eq_some_iff, pure, Option.some.injEq] at passes
  obtain ⟨_, _, _, _, _, _, rfl⟩ := passes
  rfl

end Network

namespace Op

/-!
## Combining what operations keep
-/

/-- Every operation meets the triple that promises nothing. -/
theorem triple_true {α : Type} (x : Op α) :
    ⦃fun _ => ⌜True⌝⦄ x ⦃post⟨fun _ _ => ⌜True⌝, fun _ _ => ⌜True⌝⟩⦄ :=
  triple_of_run fun s _ => by split <;> trivial

/-- A triple holds from every precondition stronger than its own. -/
theorem triple_of_imp {α : Type} {x : Op α} {P P' : Session → Prop}
    {Q : PostCond α (.except EngineError (.arg Session .pure))}
    (spec : ⦃fun s => ⌜P' s⌝⦄ x ⦃Q⦄) (stronger : ∀ s, P s → P' s) : ⦃fun s => ⌜P s⌝⦄ x ⦃Q⦄ :=
  fun s held => spec s (stronger s held)

/-- An operation that leaves `Q` when it succeeds, and `R` when it fails, where `Q` gives `R`,
always leaves `R`. -/
theorem always_of_triple {α : Type} {x : Op α} {P Q R : Session → Prop}
    (spec : ⦃fun s => ⌜P s⌝⦄ x ⦃post⟨fun _ s => ⌜Q s⌝, fun _ s => ⌜R s⌝⟩⦄)
    (weaker : ∀ s, Q s → R s) : ⦃fun s => ⌜P s⌝⦄ x ⦃always R⦄ :=
  fun _ held => wp_of_triple spec (fun _ s ok => weaker s ok) (fun _ _ failed => failed) held

/-- Two properties an operation keeps, the second from sessions meeting both, hold together after
it. -/
theorem always_and {α : Type} {x : Op α} {P Q : Session → Prop}
    (first : ⦃fun s => ⌜P s⌝⦄ x ⦃always P⦄)
    (second : ⦃fun s => ⌜P s ∧ Q s⌝⦄ x ⦃always Q⦄) :
    ⦃fun s => ⌜P s ∧ Q s⌝⦄ x ⦃always fun s => P s ∧ Q s⦄ := by
  apply triple_of_run
  intro s held
  have kept := run_of_triple first held.1
  have kept' := run_of_triple second held
  cases ran : EStateM.run x s with
  | ok _ s' =>
      rw [ran] at kept kept'
      exact ⟨kept, kept'⟩
  | error _ s' =>
      rw [ran] at kept kept'
      exact ⟨kept, kept'⟩

/-!
## Edits of the topology
-/

/-- An edit that fails leaving a wired network as it was, and forgets the state when it succeeds,
keeps the promise. -/
theorem settled_of_edit {α : Type} {x : Op α}
    (atomic : ∀ n : Network, n.Wired → ⦃fun s => ⌜s.network = n⌝⦄ x ⦃atomicEdit n⦄)
    (forgets : ⦃fun _ => ⌜True⌝⦄ x
      ⦃post⟨fun _ s => ⌜s.network.state = .unconfigured⌝, fun _ _ => ⌜True⌝⟩⦄) :
    ⦃fun s => ⌜s.network.Wired ∧ s.network.Settled⌝⦄ x ⦃always (·.network.Settled)⦄ := by
  apply triple_of_run
  intro s held
  have edited := run_of_triple (atomic s.network held.1) rfl
  have forgotten := run_of_triple (s := s) forgets trivial
  cases ran : EStateM.run x s with
  | ok _ s' =>
      rw [ran] at forgotten
      exact Network.Settled.of_unconfigured forgotten
  | error _ s' =>
      rw [ran] at edited
      show s'.network.Settled
      rw [edited]
      exact held.2

theorem addRegion_forgets (name typeName params : String) :
    ⦃fun _ => ⌜True⌝⦄ addRegion name typeName params
    ⦃post⟨fun _ s => ⌜s.network.state = .unconfigured⌝, fun _ _ => ⌜True⌝⟩⦄ := by
  mvcgen [addRegion, -addRegion_keeps, -resetTopology_keeps, checkNewRegion, validateRegionName,
    stepFactory, lift, addRegionValue_spec, resetTopology_spec]

theorem addRegionFromBundle_forgets (name typeName : String) (dims : Dimensions)
    (path label : String) :
    ⦃fun _ => ⌜True⌝⦄ addRegionFromBundle name typeName dims path label
    ⦃post⟨fun _ s => ⌜s.network.state = .unconfigured⌝, fun _ _ => ⌜True⌝⟩⦄ := by
  mvcgen [addRegionFromBundle, -addRegionFromBundle_keeps, -resetTopology_keeps, checkNewRegion,
    validateRegionName, stepFactory, lift, addRegionValue_spec, resetTopology_spec, region]

theorem removeRegion_forgets (name : String) :
    ⦃fun _ => ⌜True⌝⦄ removeRegion name
    ⦃post⟨fun _ s => ⌜s.network.state = .unconfigured⌝, fun _ _ => ⌜True⌝⟩⦄ := by
  have detached := fun id => triple_true (detachLink id)
  mvcgen [removeRegion, -removeRegion_keeps, -detachLink_keeps, -resetTopology_keeps, detached,
    resetTopology_spec, region, lift] invariants
  · post⟨fun _ _ => ⌜True⌝, fun _ _ => ⌜True⌝⟩

theorem connect_forgets (src out dest inp policyType params : String) :
    ⦃fun _ => ⌜True⌝⦄ connect src out dest inp policyType params
    ⦃post⟨fun _ s => ⌜s.network.state = .unconfigured⌝, fun _ _ => ⌜True⌝⟩⦄ := by
  mvcgen [connect, -connect_keeps, -resetTopology_keeps, resetTopology_spec, putRegion_spec,
    region, lift]

theorem disconnect_forgets (src out dest inp : String) :
    ⦃fun _ => ⌜True⌝⦄ disconnect src out dest inp
    ⦃post⟨fun _ s => ⌜s.network.state = .unconfigured⌝, fun _ _ => ⌜True⌝⟩⦄ := by
  have detached := fun id => triple_true (detachLink id)
  mvcgen [disconnect, -disconnect_keeps, -detachLink_keeps, -resetTopology_keeps, detached,
    resetTopology_spec, region, lift]

theorem setRegionDimensions_forgets (name : String) (dims : Dimensions) :
    ⦃fun _ => ⌜True⌝⦄ setRegionDimensions name dims
    ⦃post⟨fun _ s => ⌜s.network.state = .unconfigured⌝, fun _ _ => ⌜True⌝⟩⦄ := by
  mvcgen [setRegionDimensions, -setRegionDimensions_keeps, -resetTopology_keeps, region, lift,
    putRegion_spec, resetTopology_spec]

/-!
## Propagating
-/

theorem induceThrough_state (st : NetworkState) (id : Nat) :
    ⦃fun s => ⌜s.network.state = st⌝⦄ induceThrough id ⦃always (·.network.state = st)⦄ := by
  mvcgen [induceThrough, -induceThrough_keeps, stepLink, -stepLink_keeps, link, region, lift,
    putRegion_spec]

/-- Each pass keeps the state, so every number of passes does. -/
theorem induceAll_state (st : NetworkState) (fuel : Nat) :
    ⦃fun s => ⌜s.network.state = st⌝⦄ induceAll fuel ⦃always (·.network.state = st)⦄ := by
  induction fuel with
  | zero => mvcgen [induceAll, -induceAll_keeps]
  | succ fuel inductionHypothesis =>
      have step := induceThrough_state st
      mvcgen [induceAll, -induceAll_keeps, -induceThrough_keeps, step] invariants
      · always (·.network.state = st)

theorem routeLink_state (st : NetworkState) (id : Nat) :
    ⦃fun s => ⌜s.network.state = st⌝⦄ routeLink id ⦃always (·.network.state = st)⦄ := by
  mvcgen [routeLink, -routeLink_keeps, stepLink, -stepLink_keeps, link, region, lift]

/-- Propagation forgets the state first and sets it only once it has routed every link. -/
theorem propagate_state :
    ⦃fun _ => ⌜True⌝⦄ propagate
    ⦃post⟨fun _ s => ⌜s.network.state = .dimensionsPropagated⌝,
      fun _ s => ⌜s.network.state = .unconfigured⌝⟩⦄ := by
  have induced := induceAll_state .unconfigured
  have routed := routeLink_state .unconfigured
  mvcgen [propagate, -propagate_keeps, -resetTopology_keeps, -induceAll_keeps, -routeLink_keeps,
    resetTopology_spec, induced, routed, lift, setState] invariants
  · always (·.network.state = .unconfigured)

/-- Propagating a network with a link table keeps the promise: it leaves a propagated network in
state `dimensionsPropagated`, or one in state `unconfigured`. -/
theorem propagate_settled :
    ⦃fun s => ⌜s.network.LinkTable⌝⦄ propagate ⦃always (·.network.Settled)⦄ := by
  apply triple_of_run
  intro s table
  have propagated := run_of_triple propagate_propagated table
  have state := run_of_triple (s := s) propagate_state trivial
  cases ran : EStateM.run propagate s with
  | ok _ s' =>
      rw [ran] at propagated
      exact Network.Settled.of_propagated propagated.1 propagated.2
  | error _ s' =>
      rw [ran] at state
      exact Network.Settled.of_unconfigured state

/-!
## Setting up
-/

/-- What keeps a property of networks from every network that has it keeps it. -/
theorem of_from {α : Type} {x : Op α} {P : Network → Prop}
    (kept : ∀ n : Network, P n → ⦃fun s => ⌜s.network = n⌝⦄ x ⦃always fun s => P s.network⦄) :
    ⦃fun s => ⌜P s.network⌝⦄ x ⦃always fun s => P s.network⦄ :=
  fun s held => kept s.network held s rfl

/-- Laying out an input stores back links with new offsets, then the region with the input laid
out or released; the regions stay as they were until then, so the input is found where it was. -/
theorem layoutInput_prepared_from {n : Network} (prepared : n.Prepared)
    (regionName inputName : String) (counts : List Nat) :
    ⦃fun s => ⌜s.network = n⌝⦄ layoutInput regionName inputName counts
    ⦃always (·.network.Prepared)⦄ := by
  mvcgen [layoutInput, -layoutInput_keeps, region, lift, putRegion_spec] invariants
  · post⟨fun _ s => ⌜s.network.Prepared ∧ s.network.regions = n.regions⌝,
      fun _ s => ⌜s.network.Prepared⌝⟩
  all_goals subst n
  case vc4.h_1.h_1.pre => exact ⟨prepared, rfl⟩
  -- a link is stored back with a new offset; the regions stay as they were
  case vc2.step.h_1.isFalse =>
    obtain ⟨kept, sameRegions⟩ := ‹_ ∧ _›
    exact ⟨kept.storeOffset (List.mem_of_find?_eq_some ‹_›) _, sameRegions⟩
  -- the input is laid out, or released when its buffer cannot be had, and stored back
  case vc5.h_1.h_1.post.success.h_1 | vc6.h_1.h_1.post.success.h_2 =>
    obtain ⟨kept, sameRegions⟩ := ‹_ ∧ _›
    exact kept.storeInput (by rw [Network.region_of_regions sameRegions]; assumption) ‹_›
      (by rfl) (by rfl)
  -- the other failures leave the network as it was
  case vc1.step.h_1.isTrue | vc3.step.h_2 => exact ‹_ ∧ _›.1
  case vc8.h_1.h_2 | vc9.h_2 => exact prepared

theorem layoutInputs_prepared (name : String) :
    ⦃fun s => ⌜s.network.Prepared⌝⦄ layoutInputs name ⦃always (·.network.Prepared)⦄ := by
  have laid := fun regionName inputName counts =>
    of_from fun _ prepared => layoutInput_prepared_from prepared regionName inputName counts
  mvcgen [layoutInputs, -layoutInputs_keeps, -layoutInput_keeps, laid, sourceCounts, region, link,
    lift, List.mapM_eq_reverse_foldlM_cons] invariants
  · always (·.network.Prepared)
  · always (·.network.Prepared)
  · always (·.network.Prepared)

theorem checkRequiredInputs_prepared :
    ⦃fun s => ⌜s.network.Prepared⌝⦄ checkRequiredInputs ⦃always (·.network.Prepared)⦄ := by
  mvcgen [checkRequiredInputs, -checkRequiredInputs_keeps] invariants
  · always (·.network.Prepared)
  · always (·.network.Prepared)

/-- The passes of setting up keep a network ready to be set up until the last step, which sets
the state of a wired network. -/
theorem setUpPasses_prepared :
    ⦃fun s => ⌜s.network.Prepared⌝⦄ setUpPasses
    ⦃post⟨fun _ s => ⌜s.network.Wired⌝, fun _ s => ⌜s.network.Prepared⌝⟩⦄ := by
  mvcgen [setUpPasses, -checkRequiredInputs_keeps, -layoutInputs_keeps, checkRequiredInputs_prepared,
    layoutInputs_prepared, region, lift, stepRegion, putRegion_spec, setState] invariants
  · always (·.network.Prepared)
  · always (·.network.Prepared)
  · always (·.network.Prepared)
  -- regions are stored back sized or initialized; then the state is set
  all_goals first
    | exact Network.Prepared.storeSized ‹_› ‹_›
    | exact Network.Prepared.storeInit ‹_› ‹_›
    | exact Network.Wired.of_topology_eq (Network.Prepared.wired ‹_›) (by rfl) (by rfl)
        (by exact le_rfl)

/-- The passes of setting up leave a network ready to be set up running when they succeed, and
ready to be set up again when they fail. -/
theorem setUpPasses_running :
    ⦃fun s => ⌜s.network.Prepared⌝⦄ setUpPasses
    ⦃post⟨fun _ s => ⌜s.network.Running⌝, fun _ s => ⌜s.network.Settled⌝⟩⦄ := by
  apply triple_of_run
  intro s prepared
  have passes := run_of_triple (setUpPasses_spec (n := s.network)) rfl
  have kept := run_of_triple setUpPasses_prepared prepared
  cases ran : EStateM.run setUpPasses s with
  | ok _ s' =>
      rw [ran] at passes kept
      refine ⟨kept, Network.setUpPasses_laidOut prepared.wired prepared.propagated passes, ?_⟩
      rw [Network.state_of_setUpPasses passes]
      rfl
  | error _ s' =>
      rw [ran] at kept
      exact kept.settled

/-- Propagating a wired network with a link table leaves it ready to be set up when it succeeds,
and keeps the promise when it fails. -/
theorem propagate_prepared :
    ⦃fun s => ⌜s.network.Wired ∧ s.network.LinkTable⌝⦄ propagate
    ⦃post⟨fun _ s => ⌜s.network.Prepared⌝, fun _ s => ⌜s.network.Settled⌝⟩⦄ := by
  apply triple_of_run
  intro s held
  have wired := run_of_triple propagate_wired held.1
  have propagated := run_of_triple propagate_propagated held.2
  have state := run_of_triple (s := s) propagate_state trivial
  cases ran : EStateM.run propagate s with
  | ok _ s' =>
      rw [ran] at wired propagated
      exact ⟨wired, propagated.1, propagated.2⟩
  | error _ s' =>
      rw [ran] at state
      exact Network.Settled.of_unconfigured state

/-- Setting up a wired network with a link table that keeps its promise leaves it running when
it succeeds, and keeps the promise when it fails. -/
theorem setUp_running :
    ⦃fun s => ⌜s.network.Wired ∧ s.network.LinkTable ∧ s.network.Settled⌝⦄ setUp
    ⦃post⟨fun _ s => ⌜s.network.Running⌝, fun _ s => ⌜s.network.Settled⌝⟩⦄ := by
  rw [setUp_eq]
  mvcgen [-propagate_keeps, propagate_prepared, setUpPasses_running]
  case vc1.h_1.pre s held _ =>
    exact ⟨held.1, held.2.1⟩
  -- propagated dimensions come with what propagation promised
  case vc3.h_2 s held state =>
    obtain ⟨wired, -, settled⟩ := held
    exact ⟨wired, settled.propagated state, state⟩
  -- a network set up is laid out already, and stays as it is
  case vc4.h_3 s held st notFresh notPropagated state =>
    exact Network.Running.of_settled held.1 held.2.2
      (by rw [state]; exact NetworkState.isSetUp_of_ne notFresh notPropagated)

/-!
## Running
-/

/-- Running sets the network up when it is not yet, then iterates in a network set up. -/
theorem run_settled (count : Nat) :
    ⦃fun s => ⌜s.network.Wired ∧ s.network.LinkTable ∧ s.network.Settled⌝⦄ run count
    ⦃always (·.network.Settled)⦄ := by
  mvcgen [run, -run_keeps, -setUp_keeps, -iterate_keeps, setUp_running, iterate_running]
    invariants
  · always (·.network.Running)
  · always (·.network.Running)
  · always (·.network.Running)
  -- a network set up is laid out already
  case vc18.h_3.pre s held _ st notFresh notPropagated state _ =>
    exact Network.Running.of_settled held.1 held.2.2
      (by rw [state]; exact NetworkState.isSetUp_of_ne notFresh notPropagated)
  -- a running network keeps its promise, when the iterations end or one fails
  all_goals first
    | exact Network.Running.settled ‹_›
    | exact ⟨fun _ _ running => Network.Running.settled running, trivial⟩

/-!
## Saving and loading
-/

section Checkpoint

variable (P : Network → Prop)

theorem changeFiles_network (f : Files.FileSystem → Except Files.IoError Files.FileSystem) :
    ⦃fun s => ⌜P s.network⌝⦄ changeFiles f ⦃always fun s => P s.network⦄ := by
  mvcgen [changeFiles, -changeFiles_keeps]

theorem discardTree_network (path : String) :
    ⦃fun s => ⌜P s.network⌝⦄ discardTree path ⦃always fun s => P s.network⦄ := by
  mvcgen [discardTree, -discardTree_keeps]

theorem siblingPath_network (path tag : String) :
    ⦃fun s => ⌜P s.network⌝⦄ siblingPath path tag ⦃always fun s => P s.network⦄ := by
  mvcgen [siblingPath, -siblingPath_keeps]

theorem writeBundle_network (dir label : String) :
    ⦃fun s => ⌜P s.network⌝⦄ writeBundle dir label ⦃always fun s => P s.network⦄ := by
  have changed := changeFiles_network P
  mvcgen [writeBundle, -writeBundle_keeps, -changeFiles_keeps, changed, lift] invariants
  · always fun s => P s.network
  · always fun s => P s.network

theorem replaceBundle_network (staging path : String) :
    ⦃fun s => ⌜P s.network⌝⦄ replaceBundle staging path ⦃always fun s => P s.network⦄ := by
  have changed := changeFiles_network P
  have discarded := discardTree_network P
  have named := siblingPath_network P
  mvcgen [replaceBundle, -replaceBundle_keeps, -changeFiles_keeps, -discardTree_keeps,
    -siblingPath_keeps, changed, discarded, named]

end Checkpoint

/-- Saving writes files only, and marks a network set up as saved. -/
theorem saveWithLabel_settled (path label : String) :
    ⦃fun s => ⌜s.network.Settled⌝⦄ saveWithLabel path label ⦃always (·.network.Settled)⦄ := by
  have changed := changeFiles_network Network.Settled
  have discarded := discardTree_network Network.Settled
  have named := siblingPath_network Network.Settled
  have written := writeBundle_network Network.Settled
  have replaced := replaceBundle_network Network.Settled
  mvcgen [saveWithLabel, -saveWithLabel_keeps, setState, -siblingPath_keeps, -changeFiles_keeps,
    -writeBundle_keeps, -discardTree_keeps, -replaceBundle_keeps, named, changed, written,
    discarded, replaced]
  -- a network set up and saved is marked as saved
  all_goals
    rename_i state
    exact Network.Settled.serialize ‹_› (by rw [state]; rfl)

theorem save_settled (path : String) :
    ⦃fun s => ⌜s.network.Settled⌝⦄ save path ⦃always (·.network.Settled)⦄ := by
  mvcgen [save, -save_keeps, -saveWithLabel_keeps, saveWithLabel_settled]

/-- Rebuilding a network from a bundle forgets the state when it succeeds. -/
theorem loadDescription_forgets (path : String) :
    ⦃fun _ => ⌜True⌝⦄ loadDescription path
    ⦃post⟨fun _ s => ⌜s.network.state = .unconfigured⌝, fun _ _ => ⌜True⌝⟩⦄ := by
  have described := triple_true (readDescription path)
  have restored := fun label saved => triple_true (restoreRegion path label saved)
  have connected := fun src out dest inp policyType params =>
    triple_true (connect src out dest inp policyType params)
  mvcgen [loadDescription, discard_eq, -loadDescription_keeps, -readDescription_keeps,
    -restoreRegion_keeps, -connect_keeps, -resetTopology_keeps, described, restored, connected,
    resetTopology_spec] invariants
  · post⟨fun _ _ => ⌜True⌝, fun _ _ => ⌜True⌝⟩
  · post⟨fun _ _ => ⌜True⌝, fun _ _ => ⌜True⌝⟩

/-- Loading refuses a network that is not empty as it is, and otherwise forgets the state whether
it succeeds or fails. -/
theorem load_settled (path : String) :
    ⦃fun s => ⌜s.network.Settled⌝⦄ load path ⦃always (·.network.Settled)⦄ := by
  mvcgen [load, -load_keeps, -loadDescription_keeps, -resetTopology_keeps, loadDescription_forgets,
    resetTopology_spec]
  -- a load that succeeds, or fails and empties the network, forgets the state
  · exact Network.Settled.of_unconfigured
  · exact Network.Settled.of_unconfigured rfl

end Op

namespace Command

/-- Every command keeps the promise of the state of a wired network with a link table, whether it
succeeds or fails. -/
theorem op_settled (c : Command) :
    ⦃fun s => ⌜s.network.Wired ∧ s.network.LinkTable ∧ s.network.Settled⌝⦄ c.op
    ⦃Op.always (·.network.Settled)⦄ := by
  -- what a command needs of the network: its wiring and promise, its link table, or the promise
  have fromWired : ∀ s : Session, s.network.Wired ∧ s.network.LinkTable ∧ s.network.Settled →
      s.network.Wired ∧ s.network.Settled := fun _ held => ⟨held.1, held.2.2⟩
  have fromSettled : ∀ s : Session, s.network.Wired ∧ s.network.LinkTable ∧ s.network.Settled →
      s.network.Settled := fun _ held => held.2.2
  cases c with
  | addRegion name typeName params =>
      exact Op.triple_of_imp (Op.settled_of_edit (fun _ wired => Op.addRegion_atomic wired _ _ _)
        (Op.addRegion_forgets name typeName params)) fromWired
  | addRegionFromBundle name typeName dims path label =>
      exact Op.triple_of_imp (Op.discard_triple (Op.settled_of_edit
        (fun _ wired => Op.addRegionFromBundle_atomic wired _ _ _ _ _)
        (Op.addRegionFromBundle_forgets name typeName dims path label))) fromWired
  | removeRegion name =>
      exact Op.triple_of_imp (Op.settled_of_edit (fun _ wired => Op.removeRegion_atomic wired _)
        (Op.removeRegion_forgets name)) fromWired
  | connect src out dest inp policyType params =>
      exact Op.triple_of_imp (Op.discard_triple (Op.settled_of_edit
        (fun _ wired => Op.connect_atomic wired _ _ _ _ _ _)
        (Op.connect_forgets src out dest inp policyType params))) fromWired
  | disconnect src out dest inp =>
      exact Op.triple_of_imp (Op.settled_of_edit
        (fun _ wired => Op.disconnect_atomic wired _ _ _ _)
        (Op.disconnect_forgets src out dest inp)) fromWired
  | setRegionDimensions name dims =>
      exact Op.triple_of_imp (Op.settled_of_edit
        (fun _ wired => Op.setRegionDimensions_atomic wired _ _)
        (Op.setRegionDimensions_forgets name dims)) fromWired
  | setPhases name phases => exact Op.triple_of_imp (Op.setPhases_settled name phases) fromWired
  | setMinEnabled phase =>
      mvcgen [op, Op.setMinEnabled]
      obtain ⟨-, -, settled⟩ := ‹_ ∧ _ ∧ _›
      exact settled.of_same rfl rfl rfl rfl
  | setMaxEnabled phase =>
      mvcgen [op, Op.setMaxEnabled]
      obtain ⟨-, -, settled⟩ := ‹_ ∧ _ ∧ _›
      exact settled.of_same rfl rfl rfl rfl
  | propagate =>
      exact Op.triple_of_imp Op.propagate_settled fun _ held => held.2.1
  | setUp =>
      exact Op.always_of_triple Op.setUp_running fun _ running => running.settled
  | run count => exact Op.run_settled count
  | setParameter name param value =>
      exact Op.triple_of_imp (Op.setParameter_settled name param value) fromWired
  | executeCommand name args =>
      exact Op.triple_of_imp (Op.discard_triple (Op.executeCommand_settled name args)) fromWired
  | saveWithLabel path label =>
      exact Op.triple_of_imp (Op.saveWithLabel_settled path label) fromSettled
  | save path => exact Op.triple_of_imp (Op.save_settled path) fromSettled
  | load path => exact Op.triple_of_imp (Op.load_settled path) fromSettled
  | addCallback name => exact Op.triple_of_imp (Op.addCallback_settled name) fromSettled
  | removeCallback name => exact Op.triple_of_imp (Op.removeCallback_settled name) fromSettled
  | enableProfiling =>
      exact Op.triple_of_imp (Op.eachRegion_settled (fun r => { r with profiling := true })
        fun _ => Region.StandsIn.of_ports rfl rfl rfl rfl rfl rfl rfl) fromSettled
  | disableProfiling =>
      exact Op.triple_of_imp (Op.eachRegion_settled (fun r => { r with profiling := false })
        fun _ => Region.StandsIn.of_ports rfl rfl rfl rfl rfl rfl rfl) fromSettled
  | resetProfiling =>
      exact Op.triple_of_imp (Op.eachRegion_settled Region.resetProfiling
        fun _ => Region.StandsIn.of_ports rfl rfl rfl rfl rfl rfl rfl) fromSettled

end Command

/-- Every reachable network keeps the promise of its state: a network in state
`dimensionsPropagated` is propagated, and one set up is laid out. -/
theorem Reachable.settled {s : Session} (reachable : Reachable s) : s.network.Settled := by
  induction reachable with
  | fresh empty => exact Network.Settled.of_unconfigured (by rw [empty])
  | command c before settled =>
      exact Op.leaves_of_triple c.op_settled ⟨before.wired, before.linkTable, settled⟩
  | environment _ same settled => exact same ▸ settled

end RegionNet
