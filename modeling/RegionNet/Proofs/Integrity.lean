import RegionNet.Proofs.Edits
import RegionNet.Proofs.Propagation

set_option mvcgen.warning false

namespace RegionNet

open Std.Do

/-!
# Referential integrity of reachable networks

Every operation keeps a network wired (`Network.Wired`), whether it succeeds or fails. The seven
edits of the topology do by their atomicity; every other operation changes the data regions and
links hold, never the links ports list or the ends links join, and so stores back regions and links
with the plugs they had. Reachable sessions are therefore wired, and their networks have
referential integrity (`Network.Integrity`).
-/

namespace Network

variable {m n : Network}

/-- A wired network has a link with the plug of any link made from one found in it. -/
theorem Wired.relinkable
    (wired : n.Wired)
    {id : Nat}
    {x l : Link}
    (found : n.link id = .ok x)
    (same : l.plug = x.plug) :
    n.Wired ∧ ∃ y ∈ n.links, l.plug = y.plug :=
  ⟨wired, x, (link_eq_ok found).1, same⟩

/-- The same regions and links, with a next number no lower, keep the wiring. -/
theorem Wired.of_topology_eq
    (wired : n.Wired)
    (regions : m.regions = n.regions)
    (links : m.links = n.links)
    (next : n.nextLink ≤ m.nextLink) :
    m.Wired :=
  wired.of_plugs_eq (by simp only [regionPlugs, regions]) (by rw [links]) next

end Network

namespace Op

/-- What keeps the wiring from every wired network keeps it. -/
theorem wired_of_from
    {α : Type}
    {x : Op α}
    (kept : ∀ n : Network, n.Wired → ⦃fun s => ⌜s.network = n⌝⦄ x ⦃always (·.network.Wired)⦄) :
    ⦃fun s => ⌜s.network.Wired⌝⦄ x ⦃always (·.network.Wired)⦄ := by
  intro s wired
  exact kept s.network wired s rfl

/-- An atomic edit keeps the wiring: it leaves a wired network or the one it started from. -/
theorem wired_of_atomic
    {α : Type}
    {x : Op α}
    (atomic : ∀ n : Network, n.Wired → ⦃fun s => ⌜s.network = n⌝⦄ x ⦃atomicEdit n⦄) :
    ⦃fun s => ⌜s.network.Wired⌝⦄ x ⦃always (·.network.Wired)⦄ := by
  apply triple_of_run
  intro s wired
  have outcome := run_of_triple (atomic s.network wired) rfl
  cases ran : EStateM.run x s with
  | ok _ s' =>
      rw [ran] at outcome
      exact outcome
  | error _ s' =>
      rw [ran] at outcome
      show s'.network.Wired
      rw [outcome]
      exact wired

theorem resetTopology_wired :
    ⦃fun s => ⌜s.network.Wired⌝⦄ resetTopology ⦃always (·.network.Wired)⦄ := by
  mvcgen [-resetTopology_keeps, resetTopology_spec]
  exact Network.Wired.resetTopology ‹_›

theorem stepLink_wired {α : Type} (r : Link × Except EngineError α) :
    ⦃fun s => ⌜s.network.Wired ∧ ∃ x ∈ s.network.links, r.1.plug = x.plug⌝⦄
    stepLink r
    ⦃always (·.network.Wired)⦄ := by
  mvcgen [stepLink, -stepLink_keeps, lift]
  all_goals
    rename_i kept _ _
    obtain ⟨wired, x, member, same⟩ := kept
    exact wired.replaceLink member same

theorem eachRegion_wired (f : Region → Region) (same : ∀ r, (f r).plugs = r.plugs) :
    ⦃fun s => ⌜s.network.Wired⌝⦄ eachRegion f ⦃always (·.network.Wired)⦄ := by
  mvcgen [eachRegion, -eachRegion_keeps]
  exact Network.Wired.mapRegions ‹_› f same

/-!
## The edits of the topology
-/

theorem connect_wired (src out dest inp policyType params : String) :
    ⦃fun s => ⌜s.network.Wired⌝⦄ connect src out dest inp policyType params
    ⦃always (·.network.Wired)⦄ :=
  wired_of_atomic fun _ wired => connect_atomic wired src out dest inp policyType params

theorem disconnect_wired (src out dest inp : String) :
    ⦃fun s => ⌜s.network.Wired⌝⦄ disconnect src out dest inp ⦃always (·.network.Wired)⦄ :=
  wired_of_atomic fun _ wired => disconnect_atomic wired src out dest inp

theorem removeRegion_wired (name : String) :
    ⦃fun s => ⌜s.network.Wired⌝⦄ removeRegion name ⦃always (·.network.Wired)⦄ :=
  wired_of_atomic fun _ wired => removeRegion_atomic wired name

theorem addRegion_wired (name typeName params : String) :
    ⦃fun s => ⌜s.network.Wired⌝⦄ addRegion name typeName params ⦃always (·.network.Wired)⦄ :=
  wired_of_atomic fun _ wired => addRegion_atomic wired name typeName params

theorem addRegionFromBundle_wired (name typeName : String) (dims : Dimensions) (path label : String) :
    ⦃fun s => ⌜s.network.Wired⌝⦄ addRegionFromBundle name typeName dims path label
    ⦃always (·.network.Wired)⦄ :=
  wired_of_atomic fun _ wired => addRegionFromBundle_atomic wired name typeName dims path label

theorem setRegionDimensions_wired (name : String) (dims : Dimensions) :
    ⦃fun s => ⌜s.network.Wired⌝⦄ setRegionDimensions name dims ⦃always (·.network.Wired)⦄ :=
  wired_of_atomic fun _ wired => setRegionDimensions_atomic wired name dims

theorem setPhases_wired (name : String) (phases : List UInt32) :
    ⦃fun s => ⌜s.network.Wired⌝⦄ setPhases name phases ⦃always (·.network.Wired)⦄ :=
  wired_of_atomic fun _ wired => setPhases_atomic wired name phases

/-!
## Operations on a region's data
-/

theorem addCallback_wired (name : String) :
    ⦃fun s => ⌜s.network.Wired⌝⦄ addCallback name ⦃always (·.network.Wired)⦄ := by
  mvcgen [addCallback, -addCallback_keeps, lift] with
    exact Network.Wired.of_topology_eq (by assumption) (by rfl) (by rfl) (by exact le_rfl)

theorem removeCallback_wired (name : String) :
    ⦃fun s => ⌜s.network.Wired⌝⦄ removeCallback name ⦃always (·.network.Wired)⦄ := by
  mvcgen [removeCallback, -removeCallback_keeps, lift] with
    exact Network.Wired.of_topology_eq (by assumption) (by rfl) (by rfl) (by exact le_rfl)

theorem setParameter_wired (name param : String) (v : ParameterValue) :
    ⦃fun s => ⌜s.network.Wired⌝⦄ setParameter name param v ⦃always (·.network.Wired)⦄ := by
  mvcgen [setParameter, -setParameter_keeps, region, lift, putRegion_spec]
  exact Network.Wired.storeBack ‹_› ‹_› (Region.setParameter_plugs ‹_›)

theorem executeCommand_wired (name : String) (args : List String) :
    ⦃fun s => ⌜s.network.Wired⌝⦄ executeCommand name args ⦃always (·.network.Wired)⦄ := by
  mvcgen [executeCommand, -executeCommand_keeps, region, lift, stepRegion, putRegion_spec]
  all_goals exact Network.Wired.storeBack ‹_› ‹_› (Region.executeCommand_plugs _)

/-!
## Saving and loading
-/

section Checkpoint

theorem changeFiles_wired (f : Files.FileSystem → Except Files.IoError Files.FileSystem) :
    ⦃fun s => ⌜s.network.Wired⌝⦄ changeFiles f ⦃always (·.network.Wired)⦄ := by
  mvcgen [changeFiles, -changeFiles_keeps]

theorem discardTree_wired (path : String) :
    ⦃fun s => ⌜s.network.Wired⌝⦄ discardTree path ⦃always (·.network.Wired)⦄ := by
  mvcgen [discardTree, -discardTree_keeps]

theorem siblingPath_wired (path tag : String) :
    ⦃fun s => ⌜s.network.Wired⌝⦄ siblingPath path tag ⦃always (·.network.Wired)⦄ := by
  mvcgen [siblingPath, -siblingPath_keeps]

theorem writeBundle_wired (dir label : String) :
    ⦃fun s => ⌜s.network.Wired⌝⦄ writeBundle dir label ⦃always (·.network.Wired)⦄ := by
  mvcgen [writeBundle, -writeBundle_keeps, -changeFiles_keeps, changeFiles_wired, lift] invariants
  · always (·.network.Wired)
  · always (·.network.Wired)

theorem replaceBundle_wired (staging path : String) :
    ⦃fun s => ⌜s.network.Wired⌝⦄ replaceBundle staging path ⦃always (·.network.Wired)⦄ := by
  mvcgen [replaceBundle, -replaceBundle_keeps, -changeFiles_keeps, -discardTree_keeps,
    -siblingPath_keeps, changeFiles_wired, discardTree_wired, siblingPath_wired]

theorem saveWithLabel_wired (path label : String) :
    ⦃fun s => ⌜s.network.Wired⌝⦄ saveWithLabel path label ⦃always (·.network.Wired)⦄ := by
  mvcgen [saveWithLabel, -saveWithLabel_keeps, setState, -siblingPath_keeps, -changeFiles_keeps,
    -writeBundle_keeps, -discardTree_keeps, -replaceBundle_keeps, siblingPath_wired,
    changeFiles_wired, writeBundle_wired, discardTree_wired, replaceBundle_wired] with
    exact Network.Wired.of_topology_eq (by assumption) (by rfl) (by rfl) (by exact le_rfl)

theorem save_wired (path : String) :
    ⦃fun s => ⌜s.network.Wired⌝⦄ save path ⦃always (·.network.Wired)⦄ := by
  mvcgen [save, -save_keeps, -saveWithLabel_keeps, saveWithLabel_wired]

theorem readDescription_wired (path : String) :
    ⦃fun s => ⌜s.network.Wired⌝⦄ readDescription path ⦃always (·.network.Wired)⦄ := by
  mvcgen [readDescription, -readDescription_keeps]

theorem restoreRegion_wired (path label : String) (saved : RegionRecord) :
    ⦃fun s => ⌜s.network.Wired⌝⦄ restoreRegion path label saved ⦃always (·.network.Wired)⦄ := by
  mvcgen [restoreRegion, -restoreRegion_keeps, validateRegionName, lift, stepFactory,
    addRegionValue_spec]
  -- the region is made as it is new, or restored with the dimensions it was saved with
  · exact Network.Wired.appendRestored ‹_› ‹_› ‹_› _
  · exact Network.Wired.appendNew ‹_› ‹_› _

theorem loadDescription_wired (path : String) :
    ⦃fun s => ⌜s.network.Wired⌝⦄ loadDescription path ⦃always (·.network.Wired)⦄ := by
  mvcgen [loadDescription, discard_eq, -loadDescription_keeps, -readDescription_keeps,
    -restoreRegion_keeps, -connect_keeps, -resetTopology_keeps, readDescription_wired,
    restoreRegion_wired, connect_wired, resetTopology_wired] invariants
  · always (·.network.Wired)
  · always (·.network.Wired)

/-- A failed load empties the network, which is wired again. -/
theorem load_wired (path : String) :
    ⦃fun s => ⌜s.network.Wired⌝⦄ load path ⦃always (·.network.Wired)⦄ := by
  mvcgen [load, -load_keeps, -loadDescription_keeps, -resetTopology_keeps, loadDescription_wired,
    resetTopology_wired] with
    first
    | exact id
    | exact Network.Wired.of_empty rfl rfl

end Checkpoint

/-!
## Propagating and laying out
-/

section Layout

theorem induceThrough_wired (id : Nat) :
    ⦃fun s => ⌜s.network.Wired⌝⦄ induceThrough id ⦃always (·.network.Wired)⦄ := by
  mvcgen [induceThrough, -induceThrough_keeps, -stepLink_keeps, stepLink_wired, link, region, lift,
    putRegion_spec]
  -- the link is stored back with a new policy; the region at its unknown end with dimensions
  all_goals first
    | exact Network.Wired.relinkable ‹_› ‹_› (by rfl)
    | exact Network.Wired.storeBack ‹_› ‹_› (Region.setDimensions_plugs ‹_›)

/-- Each pass keeps the wiring, so every number of passes does. -/
theorem induceAll_wired (fuel : Nat) :
    ⦃fun s => ⌜s.network.Wired⌝⦄ induceAll fuel ⦃always (·.network.Wired)⦄ := by
  induction fuel with
  | zero => mvcgen [induceAll, -induceAll_keeps]
  | succ fuel inductionHypothesis =>
      mvcgen [induceAll, -induceAll_keeps, -induceThrough_keeps, induceThrough_wired] invariants
      · always (·.network.Wired)

theorem routeLink_wired (id : Nat) :
    ⦃fun s => ⌜s.network.Wired⌝⦄ routeLink id ⦃always (·.network.Wired)⦄ := by
  mvcgen [routeLink, -routeLink_keeps, stepLink, -stepLink_keeps, link, region, lift]
  -- the found link is stored back up to three times under its number, each time with its plug
  all_goals
    try simp (disch := simp +zetaDelta [Link.reset]) only [Network.replaceLink_replaceLink]
    exact Network.Wired.replaceFound ‹_› ‹_› (by simp +zetaDelta [Link.plug, Link.reset])

theorem propagate_wired :
    ⦃fun s => ⌜s.network.Wired⌝⦄ propagate ⦃always (·.network.Wired)⦄ := by
  mvcgen [propagate, -propagate_keeps, -resetTopology_keeps, -induceAll_keeps, -routeLink_keeps,
    resetTopology_wired, induceAll_wired, routeLink_wired, lift, setState] invariants
  · always (·.network.Wired)
  with exact Network.Wired.of_topology_eq (by assumption) (by rfl) (by rfl) (by exact le_rfl)

/-- Laying out an input stores back links with new offsets, then the region with the input laid
out; the regions stay as they were until then, so the input is found where it was. -/
theorem layoutInput_wired_from
    {n : Network}
    (wired : n.Wired)
    (regionName inputName : String)
    (counts : List Nat) :
    ⦃fun s => ⌜s.network = n⌝⦄ layoutInput regionName inputName counts
    ⦃always (·.network.Wired)⦄ := by
  mvcgen [layoutInput, -layoutInput_keeps, region, lift, putRegion_spec] invariants
  · post⟨fun _ s => ⌜s.network.Wired ∧ s.network.regions = n.regions⌝, fun _ s => ⌜s.network.Wired⌝⟩
  all_goals subst n
  case vc4.h_1.h_1.pre => exact ⟨wired, rfl⟩
  -- a link is stored back with a new offset; the regions stay as they were
  case vc2.step.h_1.isFalse =>
    obtain ⟨kept, sameRegions⟩ := ‹_ ∧ _›
    exact ⟨kept.replaceLink (List.mem_of_find?_eq_some ‹_›) (by rfl), sameRegions⟩
  -- the input is laid out, or released when its buffer cannot be had, and stored back
  case vc5.h_1.h_1.post.success.h_1 | vc6.h_1.h_1.post.success.h_2 =>
    obtain ⟨kept, sameRegions⟩ := ‹_ ∧ _›
    exact kept.storeInput (by rw [Network.region_of_regions sameRegions]; assumption) ‹_› (by rfl)
  -- the other failures leave the network wired
  case vc1.step.h_1.isTrue | vc3.step.h_2 => exact ‹_ ∧ _›.1
  case vc8.h_1.h_2 | vc9.h_2 => exact wired

theorem layoutInput_wired (regionName inputName : String) (counts : List Nat) :
    ⦃fun s => ⌜s.network.Wired⌝⦄ layoutInput regionName inputName counts
    ⦃always (·.network.Wired)⦄ :=
  wired_of_from fun _ wired => layoutInput_wired_from wired regionName inputName counts

theorem layoutInputs_wired (name : String) :
    ⦃fun s => ⌜s.network.Wired⌝⦄ layoutInputs name ⦃always (·.network.Wired)⦄ := by
  mvcgen [layoutInputs, -layoutInputs_keeps, -layoutInput_keeps, layoutInput_wired, sourceCounts,
    region, link, lift, List.mapM_eq_reverse_foldlM_cons] invariants
  · always (·.network.Wired)
  · always (·.network.Wired)
  · always (·.network.Wired)

theorem checkRequiredInputs_wired :
    ⦃fun s => ⌜s.network.Wired⌝⦄ checkRequiredInputs ⦃always (·.network.Wired)⦄ := by
  mvcgen [checkRequiredInputs, -checkRequiredInputs_keeps] invariants
  · always (·.network.Wired)
  · always (·.network.Wired)

theorem setUp_wired :
    ⦃fun s => ⌜s.network.Wired⌝⦄ setUp ⦃always (·.network.Wired)⦄ := by
  -- the three passes over the order appear once after propagating and once without
  mvcgen [setUp, -setUp_keeps, -propagate_keeps, -checkRequiredInputs_keeps, -layoutInputs_keeps,
    propagate_wired, checkRequiredInputs_wired, layoutInputs_wired, region, lift, stepRegion,
    putRegion_spec, setState] invariants
  · always (·.network.Wired)
  · always (·.network.Wired)
  · always (·.network.Wired)
  · always (·.network.Wired)
  · always (·.network.Wired)
  · always (·.network.Wired)
  -- regions are stored back sized or initialized; then the state is set
  all_goals first
    | exact Network.Wired.storeSized ‹_› ‹_›
    | exact Network.Wired.storeBack ‹_› ‹_› (by rfl)
    | exact Network.Wired.of_topology_eq (by assumption) (by rfl) (by rfl) (by exact le_rfl)

end Layout

/-!
## Running
-/

section Run

theorem consolidate_wired (i : Input) :
    ⦃fun s => ⌜s.network.Wired⌝⦄ consolidate i ⦃always (·.network.Wired)⦄ := by
  mvcgen [consolidate, -consolidate_keeps, lift] invariants
  · always (·.network.Wired)

theorem computeRegion_wired (name : String) :
    ⦃fun s => ⌜s.network.Wired⌝⦄ computeRegion name ⦃always (·.network.Wired)⦄ := by
  mvcgen [computeRegion, -computeRegion_keeps, -consolidate_keeps, consolidate_wired, region, lift,
    putRegion_spec, List.mapM_eq_reverse_foldlM_cons] invariants
  · always (·.network.Wired)
  · always (·.network.Wired)
  -- each input is stored back with its merged data, then the region with what it computed
  all_goals first
    | exact Network.Wired.storeInput ‹_› ‹_› ‹_› (Input.setData_plug ‹_›)
    | exact Network.Wired.storeBack ‹_› ‹_› (Region.compute_plugs ‹_›)

theorem iterate_wired (order : List String) :
    ⦃fun s => ⌜s.network.Wired⌝⦄ iterate order ⦃always (·.network.Wired)⦄ := by
  mvcgen [iterate, -iterate_keeps, -computeRegion_keeps, computeRegion_wired, region, lift,
    setState] invariants
  · always (·.network.Wired)
  · always (·.network.Wired)
  with exact Network.Wired.of_topology_eq (by assumption) (by rfl) (by rfl) (by exact le_rfl)

theorem run_wired (count : Nat) :
    ⦃fun s => ⌜s.network.Wired⌝⦄ run count ⦃always (·.network.Wired)⦄ := by
  mvcgen [run, -run_keeps, -setUp_keeps, -iterate_keeps, setUp_wired, iterate_wired] invariants
  · always (·.network.Wired)
  · always (·.network.Wired)
  · always (·.network.Wired)

end Run

/-- Discarding an operation's result keeps what the operation promises of the session. -/
theorem discard_triple
    {α : Type}
    {x : Op α}
    {P Q : Session → Prop}
    {R : EngineError → Session → Prop}
    (spec : ⦃fun s => ⌜P s⌝⦄ x ⦃post⟨fun _ s => ⌜Q s⌝, fun e s => ⌜R e s⌝⟩⦄) :
    ⦃fun s => ⌜P s⌝⦄ discard x ⦃post⟨fun _ s => ⌜Q s⌝, fun e s => ⌜R e s⌝⟩⦄ := by
  rw [discard_eq]
  mvcgen [spec]

end Op

namespace Command

/-- Whether a command edits the topology. -/
def editsTopology : Command → Bool
  | addRegion .. | addRegionFromBundle .. | removeRegion _ | connect .. | disconnect ..
  | setRegionDimensions .. | setPhases .. => true
  | _ => false

/-- Every edit of the topology is atomic on a wired network. -/
theorem atomic_of_editsTopology
    {c : Command}
    (edit : c.editsTopology = true)
    {n : Network}
    (wired : n.Wired) :
    ⦃fun s => ⌜s.network = n⌝⦄ c.op ⦃Op.atomicEdit n⦄ := by
  cases c with
  | addRegion name typeName params => exact Op.addRegion_atomic wired name typeName params
  | addRegionFromBundle name typeName dims path label =>
      exact Op.discard_triple (Op.addRegionFromBundle_atomic wired name typeName dims path label)
  | removeRegion name => exact Op.removeRegion_atomic wired name
  | connect src out dest inp policyType params =>
      exact Op.discard_triple (Op.connect_atomic wired src out dest inp policyType params)
  | disconnect src out dest inp => exact Op.disconnect_atomic wired src out dest inp
  | setRegionDimensions name dims => exact Op.setRegionDimensions_atomic wired name dims
  | setPhases name phases => exact Op.setPhases_atomic wired name phases
  | _ => cases edit

/-- Every command keeps the wiring, whether it succeeds or fails. -/
theorem op_wired (c : Command) :
    ⦃fun s => ⌜s.network.Wired⌝⦄ c.op ⦃Op.always (·.network.Wired)⦄ := by
  cases c with
  | addRegion name typeName params => exact Op.addRegion_wired name typeName params
  | addRegionFromBundle name typeName dims path label =>
      exact Op.discard_triple (Op.addRegionFromBundle_wired name typeName dims path label)
  | removeRegion name => exact Op.removeRegion_wired name
  | connect src out dest inp policyType params =>
      exact Op.discard_triple (Op.connect_wired src out dest inp policyType params)
  | disconnect src out dest inp => exact Op.disconnect_wired src out dest inp
  | setRegionDimensions name dims => exact Op.setRegionDimensions_wired name dims
  | setPhases name phases => exact Op.setPhases_wired name phases
  | setMinEnabled phase =>
      mvcgen [op, Op.setMinEnabled]
      exact Network.Wired.of_topology_eq (by assumption) (by rfl) (by rfl) (by exact le_rfl)
  | setMaxEnabled phase =>
      mvcgen [op, Op.setMaxEnabled]
      exact Network.Wired.of_topology_eq (by assumption) (by rfl) (by rfl) (by exact le_rfl)
  | propagate => exact Op.propagate_wired
  | setUp => exact Op.setUp_wired
  | run count => exact Op.run_wired count
  | setParameter name param value => exact Op.setParameter_wired name param value
  | executeCommand name args => exact Op.discard_triple (Op.executeCommand_wired name args)
  | saveWithLabel path label => exact Op.saveWithLabel_wired path label
  | save path => exact Op.save_wired path
  | load path => exact Op.load_wired path
  | addCallback name => exact Op.addCallback_wired name
  | removeCallback name => exact Op.removeCallback_wired name
  | enableProfiling => exact Op.eachRegion_wired (fun r => { r with profiling := true }) fun _ => rfl
  | disableProfiling =>
      exact Op.eachRegion_wired (fun r => { r with profiling := false }) fun _ => rfl
  | resetProfiling => exact Op.eachRegion_wired Region.resetProfiling fun _ => rfl

end Command

/-- Every reachable session is wired. -/
theorem Reachable.wired {s : Session} (reachable : Reachable s) : s.network.Wired := by
  induction reachable with
  | fresh empty => exact Network.Wired.of_empty (by rw [empty]; rfl) (by rw [empty])
  | command c _ wired => exact Op.leaves_of_keeps c.op_wired wired
  | environment _ same wired => exact same ▸ wired

/--
Every reachable network has referential integrity: each link joins an existing output to an
existing input; each port lists, once each, exactly the numbers of the links at it; no two links
join the same ports; link numbers are distinct and below the next one; and an input lists its
links in increasing order of number, the order they were made in.
-/
theorem reachable_integrity {s : Session} (reachable : Reachable s) : s.network.Integrity :=
  reachable.wired.integrity

/-- Two reference regions joined by a link, made from a new network, have referential integrity. -/
theorem linked_pair_integrity :
    let s₀ : Session := { host := Host.new {}, files := {}, network := { id := 0 } }
    let s := (Command.connect "A" "" "B" "" "UniformLink" "").op.leaves
      ((Command.addRegion "B" "TestNode" "").op.leaves
        ((Command.addRegion "A" "TestNode" "").op.leaves s₀))
    Reachable s ∧ s.network.Integrity :=
  ⟨.command _ (.command _ (.command _ (.fresh rfl))),
    reachable_integrity (.command _ (.command _ (.command _ (.fresh rfl))))⟩

/--
A failed edit of the topology leaves a reachable network exactly as it was: its regions, links,
next link number, order and state.
-/
theorem failed_edit_keeps_network
    {s s' : Session}
    {c : Command}
    {e : EngineError}
    (reachable : Reachable s)
    (edit : c.editsTopology = true)
    (failed : EStateM.run c.op s = .error e s') :
    s'.network = s.network := by
  have outcome := Op.run_of_triple (Command.atomic_of_editsTopology edit reachable.wired) rfl
  rw [failed] at outcome
  exact outcome

/-- Linking two test regions a second time between the same ports fails, and leaves the network,
with its one link, as it was. -/
theorem relinking_pair_keeps_network :
    let s := Command.leavesAll [.addRegion "A" "TestNode" "", .addRegion "B" "TestNode" "",
      .connect "A" "" "B" "" "UniformLink" ""]
      { host := Host.new {}, files := {}, network := { id := 0 } }
    let c := Command.connect "A" "" "B" "" "UniformLink" ""
    ∃ e, Reachable s ∧ c.editsTopology = true ∧ s.network.links.length = 1 ∧
      EStateM.run c.op s = .error e (c.op.leaves s) ∧ (c.op.leaves s).network = s.network := by
  intro s c
  have reachable : Reachable s := (Reachable.fresh rfl).leavesAll _
  -- the kernel evaluates the session once the region names are validated
  have evaluated : c.op.succeeds s = false ∧ s.network.links.length = 1 := by
    simp only [c, s, Command.leavesAll, List.foldl, Command.op, Op.addRegion, Op.checkNewRegion,
      @Op.validateRegionName_of_plain "A" (by simp), @Op.validateRegionName_of_plain "B" (by simp)]
    decide +kernel
  obtain ⟨e, failed⟩ := Op.run_eq_error_of_fails evaluated.1
  exact ⟨e, reachable, rfl, evaluated.2, failed, failed_edit_keeps_network reachable rfl failed⟩

end RegionNet
