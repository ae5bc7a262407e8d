import RegionNet.Proofs.Plugs

set_option mvcgen.warning false

namespace RegionNet

open Std.Do

/-!
# Edits of the topology

Seven operations change a network's topology: adding a region, fresh or restored from a bundle,
removing one, connecting and disconnecting two ports, and giving a region dimensions or phases.
Each makes all the checks that can refuse it before it changes the network, and the changes it
makes after them cannot fail on a wired network: the ports it looks up again are there, the link
it detaches is there.

So every edit meets one triple (`Op.atomicEdit`): started on a wired network `n`, it leaves a
wired network when it succeeds and `n` itself when it fails.
-/

namespace Link

/-- A new link joins the ends it was made for, under the number it was given. -/
theorem new_plug
    {id : Nat}
    {policyType params : String}
    {k : BuiltinPolicy}
    {e : Endpoints}
    {l : Link}
    (made : Link.new id policyType params k e = .ok l) :
    l.id = id ∧ l.endpoints = e := by
  simp only [Link.new, bind, Except.bind] at made
  split at made
  · cases made
  · cases made
    exact ⟨rfl, rfl⟩

end Link

/-- A name a collection does not contain is not among its names. -/
theorem Collection.not_mem_names {α : Type} {c : Collection α} {k : String}
    (missing : ¬c.contains k = true) :
    k ∉ c.names := by
  simpa [Collection.contains, Collection.names] using missing

namespace Region

/-- A region as it is made: its ports stored under their own names, listing no links. -/
structure Blank (r : Region) : Prop extends r.PortsNamed where
  noInputs : ∀ p ∈ r.inputs.entries, p.2.links = []
  noOutputs : ∀ p ∈ r.outputs.entries, p.2.links = []

/-- A new region is blank. -/
theorem blank_new (name typeName : String) (spec : RegionSpec) (impl : Implementation)
    (module : Option String) :
    (Region.new name typeName spec impl module).Blank where
  inputs := by
    intro p member
    obtain ⟨⟨k, _⟩, -, rfl⟩ := List.mem_map.mp member
    rfl
  outputs := by
    intro p member
    obtain ⟨⟨k, _⟩, -, rfl⟩ := List.mem_map.mp member
    rfl
  noInputs := by
    intro p member
    obtain ⟨⟨k, _⟩, -, rfl⟩ := List.mem_map.mp member
    rfl
  noOutputs := by
    intro p member
    obtain ⟨⟨k, _⟩, -, rfl⟩ := List.mem_map.mp member
    rfl

/-- Blankness reads only the ports. -/
theorem Blank.of_ports {r r' : Region} (blank : r.Blank) (inputs : r'.inputs = r.inputs)
    (outputs : r'.outputs = r.outputs) :
    r'.Blank where
  inputs := inputs ▸ blank.inputs
  outputs := outputs ▸ blank.outputs
  noInputs := inputs ▸ blank.noInputs
  noOutputs := outputs ▸ blank.noOutputs

/-- Setting dimensions changes neither the name nor the ports. -/
theorem setDimensions_ports {r r' : Region} {dims : Dimensions} {source : DimensionSource}
    (set : r.setDimensions dims source = .ok r') :
    r'.name = r.name ∧ r'.inputs = r.inputs ∧ r'.outputs = r.outputs := by
  unfold setDimensions at set
  split at set
  · cases set
  · cases set
    exact ⟨rfl, rfl, rfl⟩

/-- Setting dimensions keeps the plugs. -/
theorem setDimensions_plugs {r r' : Region} {dims : Dimensions} {source : DimensionSource}
    (set : r.setDimensions dims source = .ok r') :
    r'.plugs = r.plugs := by
  obtain ⟨name, inputs, outputs⟩ := setDimensions_ports set
  simp [plugs, name, inputs, outputs]

end Region

namespace Network

variable {n : Network}

/-- Adding a blank region under a new name keeps the wiring. -/
theorem Wired.appendBlank
    (wired : n.Wired)
    {r : Region}
    (fresh : r.name ∉ n.regions.names)
    (blank : r.Blank) :
    (n.appendRegion r).Wired :=
  wired.appendRegion fresh blank.toPortsNamed blank.noInputs blank.noOutputs

/-- Forgetting the topology keeps the region names. -/
@[simp] theorem names_resetTopology : n.resetTopology.regions.names = n.regions.names := by
  simp [resetTopology, Collection.names, Function.comp_def]

/-- Adding a region puts its name last. -/
@[simp] theorem names_appendRegion {r : Region} :
    (n.appendRegion r).regions.names = n.regions.names ++ [r.name] := by
  simp [appendRegion, Collection.names]

/-- A region is found under a name exactly when it is stored first under it. -/
theorem region_eq_ok_iff {k : String} {r : Region} : n.region k = .ok r ↔ n.regions.find? k = some r := by
  unfold region
  cases n.regions.find? k <;> simp

/-- Something is found under exactly the names of the regions. -/
theorem region_isOk_iff {k : String} : (∃ r, n.region k = .ok r) ↔ k ∈ n.regions.names := by
  rw [← Collection.isSome_find?_iff]
  unfold region
  cases n.regions.find? k <;> simp

section Adding

variable {name typeName : String} {spec : RegionSpec} {impl : Implementation}
  {module : Option String}

/-- A new region, in whatever phases, added under a name not taken keeps the wiring. -/
theorem Wired.appendNew (wired : n.Wired) (fresh : ¬n.regions.contains name = true)
    (phases : List Nat) :
    (n.appendRegion { Region.new name typeName spec impl module with phases }).Wired := by
  have blank : ({ Region.new name typeName spec impl module with phases } : Region).Blank :=
    (Region.blank_new name typeName spec impl module).of_ports rfl rfl
  exact wired.appendBlank (Collection.not_mem_names fresh) blank

/-- A region restored with explicit dimensions, in whatever phases, added under a name not taken
keeps the wiring. -/
theorem Wired.appendRestored
    (wired : n.Wired)
    {dims : Dimensions}
    {r : Region}
    (fresh : ¬n.regions.contains name = true)
    (set : (Region.new name typeName spec impl module).setDimensions dims .explicit = .ok r)
    (phases : List Nat) :
    (n.appendRegion { r with phases }).Wired := by
  obtain ⟨named, inputs, outputs⟩ := Region.setDimensions_ports set
  have blank : ({ r with phases } : Region).Blank :=
    (Region.blank_new name typeName spec impl module).of_ports inputs outputs
  exact wired.appendBlank (named ▸ Collection.not_mem_names fresh) blank

/-- A region restored from a bundle with explicit dimensions and added under a name not taken,
with the topology forgotten after, leaves a wired network in which it is found. -/
theorem Wired.addedRestored
    (wired : n.Wired)
    {dims : Dimensions}
    {r : Region}
    (fresh : ¬n.regions.contains name = true)
    (set : (Region.new name typeName spec impl module).setDimensions dims .explicit = .ok r) :
    (n.appendRegion { r with phases := [0] }).resetTopology.Wired ∧
      ∃ x, (n.appendRegion { r with phases := [0] }).resetTopology.region name = .ok x := by
  obtain ⟨named, -, -⟩ := Region.setDimensions_ports set
  refine ⟨(wired.appendRestored fresh set [0]).resetTopology, region_isOk_iff.mpr ?_⟩
  rw [names_resetTopology, names_appendRegion]
  exact List.mem_append_right _ (List.mem_singleton.mpr named.symm)

end Adding

/-- Storing an output into a region found under some name leaves every region's inputs as they
were. -/
theorem Stored.inputs_after_setOutput
    {m : Network}
    {src k : String}
    {r x : Region}
    {o : Output}
    (stored : Stored n.regions)
    (sameRegions : m.regions = n.regions)
    (srcFound : m.regions.find? src = some r)
    (found : (m.replaceRegion (r.setOutput o)).regions.find? k = some x) :
    ∃ y, n.regions.find? k = some y ∧ x.inputs = y.inputs := by
  rw [replaceRegion_regions, Collection.find?_store, sameRegions] at found
  obtain ⟨y, before, chosen⟩ := Option.map_eq_some_iff.mp found
  refine ⟨y, before, ?_⟩
  rw [← chosen]
  split
  · rename_i atSrc
    have srcStored : (src, r) ∈ n.regions.entries := sameRegions ▸ Collection.mem_of_find? srcFound
    rw [Region.setOutput_name, stored.named _ srcStored] at atSrc
    subst atSrc
    rw [Region.setOutput_inputs, stored.eq_of_mem srcStored (Collection.mem_of_find? before)]
  · rfl

/-- Storing an output into a region leaves every input found where it was. -/
theorem Stored.input_after_setOutput
    {m : Network}
    {src dest k : String}
    {r d x : Region}
    {o : Output}
    {i : Input}
    {e : EngineError}
    (stored : Stored n.regions)
    (missing : x.input k = .error e)
    (found : (m.replaceRegion (r.setOutput o)).region dest = .ok x)
    (srcFound : m.region src = .ok r)
    (inputFound : d.inputs.find? k = some i)
    (destFound : n.regions.find? dest = some d)
    (sameRegions : m.regions = n.regions) :
    False := by
  obtain ⟨y, before, sameInputs⟩ := stored.inputs_after_setOutput sameRegions
    (region_eq_ok_iff.mp srcFound) (region_eq_ok_iff.mp found)
  rw [destFound] at before
  cases before
  simp [Region.input, sameInputs, inputFound] at missing

/-- In a wired network a link's ends are stored: its source region with its output, its
destination region with its input. -/
theorem Wired.ends_found
    (wired : n.Wired)
    {l : Link}
    (member : l ∈ n.links) :
    (∃ src o, n.regions.find? l.endpoints.srcRegion = some src ∧
        src.outputs.find? l.endpoints.srcOutput = some o) ∧
      ∃ dest i, n.regions.find? l.endpoints.destRegion = some dest ∧
        dest.inputs.find? l.endpoints.destInput = some i := by
  obtain ⟨⟨src, o, srcFound, outputFound⟩, ⟨dest, i, destFound, inputFound⟩⟩ := wired.ends l member
  simp only [region, Region.output, Region.input] at srcFound outputFound destFound inputFound
  split at srcFound <;> split at outputFound <;> split at destFound <;> split at inputFound <;>
    simp_all

/-- In a wired network, a link found under a link's number is that link. -/
theorem Wired.link_eq
    (wired : n.Wired)
    {l x : Link}
    (member : l ∈ n.links)
    (found : n.link l.id = .ok x) :
    x = l := by
  obtain ⟨present, numbered⟩ := link_eq_ok found
  exact wired.eq_of_id_eq present member numbered

/-- In a wired network, once a link's output is stored back into its source region, the link's
destination region and input are still found. -/
theorem Wired.dest_after_setOutput
    (wired : n.Wired)
    {l : Link}
    (member : l ∈ n.links)
    {r : Region}
    (srcFound : n.regions.find? l.endpoints.srcRegion = some r)
    (o : Output) :
    ∃ dest i, (n.replaceRegion (r.setOutput o)).regions.find? l.endpoints.destRegion = some dest ∧
      dest.input l.endpoints.destInput = .ok i := by
  obtain ⟨-, ⟨d, i, destFound, inputFound⟩⟩ := wired.ends_found member
  have present : ((n.replaceRegion (r.setOutput o)).regions.find? l.endpoints.destRegion).isSome := by
    rw [Collection.isSome_find?_iff, replaceRegion_regions, Collection.names_store,
      ← Collection.isSome_find?_iff, destFound]
    rfl
  obtain ⟨x, found⟩ := Option.isSome_iff_exists.mp present
  obtain ⟨y, before, sameInputs⟩ := wired.toStored.inputs_after_setOutput rfl srcFound found
  rw [destFound] at before
  cases before
  exact ⟨x, i, found, by simp [Region.input, sameInputs, inputFound]⟩

/-- A link of a wired network detached as `detachLink` does it, its number dropped from the
links and from the lists of the two ports it joins, leaves a wired network. -/
theorem Wired.detached
    (wired : n.Wired)
    {l x : Link}
    (member : l ∈ n.links)
    (found : n.link l.id = .ok x)
    {src dest : Region}
    {o : Output}
    {i : Input}
    (srcFound : n.regions.find? x.endpoints.srcRegion = some src)
    (outputFound : src.output x.endpoints.srcOutput = .ok o)
    (destFound : (n.replaceRegion (src.setOutput (o.removeLink l.id))).regions.find?
      x.endpoints.destRegion = some dest)
    (inputFound : dest.input x.endpoints.destInput = .ok i) :
    (({ n with links := n.links.filter (·.id != l.id) }.replaceRegion
      (src.setOutput (o.removeLink l.id))).replaceRegion (dest.setInput (i.removeLink l.id))).Wired := by
  obtain rfl := wired.link_eq member found
  exact wired.detach member (by simp [region, srcFound]) outputFound (by simp [region, destFound])
    inputFound rfl rfl le_rfl

/-- A new link attached between ports found by a connect, with the topology forgotten after,
leaves a wired network. -/
theorem Wired.connected
    (wired : n.Wired)
    {policyType params : String}
    {kind : Link.BuiltinPolicy}
    {e : Endpoints}
    {l : Link}
    {src dest : Region}
    {o : Output}
    {i : Input}
    (made : Link.new n.nextLink policyType params kind e = .ok l)
    (fresh : ¬(n.links.any fun x => x.connects e) = true)
    (srcFound : n.region e.srcRegion = .ok src)
    (outputFound : src.output e.srcOutput = .ok o)
    (destFound : (n.replaceRegion (src.setOutput (o.addLink n.nextLink))).region e.destRegion =
      .ok dest)
    (inputFound : dest.input e.destInput = .ok i)
    {m : Network}
    (regions : m.regions = ((n.replaceRegion (src.setOutput (o.addLink n.nextLink))).replaceRegion
      (dest.setInput (i.addLink n.nextLink))).regions)
    (links : m.links = n.links ++ [l])
    (next : n.nextLink < m.nextLink) :
    m.resetTopology.Wired := by
  obtain ⟨numbered, ends⟩ := Link.new_plug made
  subst ends
  rw [← numbered] at destFound regions
  refine Wired.resetTopology
    (wired.attach numbered ?_ srcFound outputFound destFound inputFound regions links next)
  simpa [Link.connects] using fresh

/-- In a wired network, no link leaves a region none of whose outputs feeds a link. -/
theorem Wired.none_leaving
    (wired : n.Wired)
    {name : String}
    {r : Region}
    (found : n.region name = .ok r)
    (quiet : r.hasOutgoingLinks = false) :
    ∀ x ∈ n.links, x.endpoints.srcRegion ≠ name := by
  intro x member src
  obtain ⟨⟨r', o, srcFound, outputFound⟩, -⟩ := wired.ends x member
  rw [src, found] at srcFound
  cases srcFound
  obtain ⟨stored, -⟩ := Region.output_named (wired.portsNamed _ (mem_of_region found)) outputFound
  have listed : x.id ∈ o.links := by
    rw [wired.outputs _ (mem_of_region found) _ stored]
    exact mem_leaving.mpr ⟨x, member, rfl, src, rfl⟩
  have feeding : r.hasOutgoingLinks = true := by
    simp only [Region.hasOutgoingLinks, Collection.items, List.any_map, List.any_eq_true]
    exact ⟨_, stored, by simpa using List.ne_nil_of_mem listed⟩
  rw [quiet] at feeding
  cases feeding

/-- A loop over some of a wired network's links meets each number once. -/
theorem Wired.fresh_of_split
    (wired : n.Wired)
    {p : Link → Bool}
    {pref rest : List Link}
    {cur : Link}
    (split : n.links.filter p = pref ++ cur :: rest) :
    cur.id ∉ rest.map (·.id) := by
  have distinct : ((n.links.filter p).map (·.id)).Nodup :=
    wired.integrity.numbersApart.sublist (List.filter_sublist.map _)
  rw [split, List.map_append, List.map_cons] at distinct
  exact (List.nodup_cons.mp (List.nodup_append.mp distinct).2.1).1

/--
Where removing the region `name` from `n` stands while it detaches the links into the region: the
network is wired, its links are links of `n`, the ones into `name` are among those still waiting,
and every waiting link is still there.
-/
structure Detaching (n : Network) (name : String) (waiting : List Link) (m : Network) : Prop where
  wired : m.Wired
  kept : ∀ x ∈ m.links, x ∈ n.links
  waitingOnly : ∀ x ∈ m.links, x.endpoints.destRegion = name → x ∈ waiting
  present : ∀ x ∈ waiting, x ∈ m.links

namespace Detaching

variable {name : String} {m : Network}

/-- Before the loop every link into the region waits. -/
theorem start (wired : n.Wired) :
    n.Detaching name (n.links.filter (·.endpoints.destRegion == name)) n where
  wired := wired
  kept := fun _ member => member
  waitingOnly := fun _ member dest => List.mem_filter.mpr ⟨member, by simp [dest]⟩
  present := fun _ member => List.mem_of_mem_filter member

/-- Detaching the next waiting link, whose number no later one has, advances the loop. -/
theorem advance
    {cur : Link}
    {rest : List Link}
    (progress : n.Detaching name (cur :: rest) m)
    (fresh : cur.id ∉ rest.map (·.id))
    {m' : Network}
    (wired : m'.Wired)
    (links : m'.links = m.links.filter (·.id != cur.id)) :
    n.Detaching name rest m' where
  wired := wired
  kept := fun x member => progress.kept x (List.mem_of_mem_filter (links ▸ member))
  waitingOnly := by
    intro x member dest
    rw [links, List.mem_filter] at member
    rcases List.mem_cons.mp (progress.waitingOnly x member.1 dest) with rfl | later
    · simp at member
    · exact later
  present := by
    intro x later
    rw [links, List.mem_filter]
    refine ⟨progress.present x (List.mem_cons_of_mem _ later), ?_⟩
    have apart : x.id ≠ cur.id := fun same => fresh (same ▸ List.mem_map_of_mem later)
    simpa using apart

/-- Once no link waits, and none left the region to begin with, dropping it keeps the wiring. -/
theorem finish
    (progress : n.Detaching name [] m)
    (quiet : ∀ x ∈ n.links, x.endpoints.srcRegion ≠ name) :
    (m.dropRegion name).Wired :=
  progress.wired.dropRegion fun x member =>
    ⟨quiet x (progress.kept x member), fun dest => by simpa using progress.waitingOnly x member dest⟩

end Detaching

end Network

namespace Op

theorem resetTopology_eq : resetTopology = modifyNetwork Network.resetTopology := rfl

theorem putRegion_eq (r : Region) : putRegion r = modifyNetwork (·.replaceRegion r) := rfl

theorem addRegionValue_eq (r : Region) : addRegionValue r = modifyNetwork (·.appendRegion r) := rfl

theorem addRegionValue_spec (r : Region) {Q : PostCond Unit (.except EngineError (.arg Session .pure))} :
    ⦃fun s => Q.1 () { s with network := s.network.appendRegion r }⦄ addRegionValue r ⦃Q⦄ := by
  rw [addRegionValue_eq]
  exact modifyNetwork_spec _

theorem resetTopology_spec {Q : PostCond Unit (.except EngineError (.arg Session .pure))} :
    ⦃fun s => Q.1 () { s with network := s.network.resetTopology }⦄ resetTopology ⦃Q⦄ := by
  rw [resetTopology_eq]
  exact modifyNetwork_spec _

theorem putRegion_spec (r : Region) {Q : PostCond Unit (.except EngineError (.arg Session .pure))} :
    ⦃fun s => Q.1 () { s with network := s.network.replaceRegion r }⦄ putRegion r ⦃Q⦄ := by
  rw [putRegion_eq]
  exact modifyNetwork_spec _

/-- What an edit promises from a network `n`: a wired network when it succeeds, `n` itself when it
fails. -/
abbrev atomicEdit {α : Type} (n : Network) : PostCond α (.except EngineError (.arg Session .pure)) :=
  post⟨fun _ s => ⌜s.network.Wired⌝, fun _ s => ⌜s.network = n⌝⟩

variable {n : Network}

/-- Connecting two ports of a wired network is atomic. -/
theorem connect_atomic
    (wired : n.Wired)
    (src out dest inp policyType params : String) :
    ⦃fun s => ⌜s.network = n⌝⦄ connect src out dest inp policyType params ⦃atomicEdit n⦄ := by
  mvcgen [connect, -connect_keeps, -resetTopology_keeps, resetTopology_spec, putRegion_spec,
    region, lift]
  all_goals subst n
  -- the checks fail on the network as it was; the lookups after the first change succeed
  all_goals first
    | rfl
    | exfalso
      simp_all [Network.region, Network.replaceRegion_regions, Collection.find?_store,
        Region.output, Region.input]
      done
    | exfalso
      apply wired.toStored.input_after_setOutput <;> first | assumption | rfl
    | apply wired.connected <;> first | rfl | assumption | exact Nat.lt_succ_self _

theorem detachLink_spec
    (wired : n.Wired)
    {l : Link}
    (member : l ∈ n.links) :
    ⦃fun s => ⌜s.network = n⌝⦄
    detachLink l.id
    ⦃post⟨fun _ s => ⌜s.network.Wired ∧ s.network.links = n.links.filter (·.id != l.id)⌝,
      fun _ _ => ⌜False⌝⟩⦄ := by
  mvcgen [detachLink, -detachLink_keeps, putRegion_spec, link, lift]
  all_goals subst n
  -- the destination looked up after the source's output is stored back
  case vc2.h_1.h_1.h_1.h_1.h_2 s x found _ src srcFound o _ dest destFound _ missing =>
    obtain rfl := wired.link_eq member found
    obtain ⟨d, i, found', inputFound⟩ := wired.dest_after_setOutput member srcFound (o.removeLink x.id)
    cases found'.symm.trans destFound
    simp [inputFound] at missing
  case vc3.h_1.h_1.h_1.h_2 s x found _ src srcFound o _ _ noRegion destFound =>
    obtain rfl := wired.link_eq member found
    obtain ⟨d, i, found', -⟩ := wired.dest_after_setOutput member srcFound (o.removeLink x.id)
    exact (noRegion d (destFound.symm.trans found')).elim
  -- the link is there, and so are its source region and output and its destination region
  all_goals first
    | exact ⟨wired.detached member (by assumption) (by assumption) (by assumption) (by assumption)
        (by assumption), rfl⟩
    | exfalso
      have found := Network.link_of_mem wired.integrity.numbersApart member
      obtain ⟨⟨src, o, srcFound, outputFound⟩, ⟨dest, i, destFound, inputFound⟩⟩ :=
        wired.ends_found member
      simp_all [Region.output, Region.input]

/-- Detaching a link of a wired network meets every postcondition that holds of the wired
networks with that link dropped. -/
theorem detachLink_wp
    (wired : n.Wired)
    {l : Link}
    (member : l ∈ n.links)
    {Q : PostCond Unit (.except EngineError (.arg Session .pure))}
    (after : ∀ s : Session, s.network.Wired → s.network.links = n.links.filter (·.id != l.id) →
      (Q.1 () s).down)
    {s : Session}
    (atN : s.network = n) :
    (wp⟦detachLink l.id⟧ Q s).down :=
  wp_of_triple (detachLink_spec wired member) (fun _ s detached => after s detached.1 detached.2)
    (fun _ _ => False.elim) atN

theorem disconnect_atomic
    (wired : n.Wired)
    (src out dest inp : String) :
    ⦃fun s => ⌜s.network = n⌝⦄ disconnect src out dest inp ⦃atomicEdit n⦄ := by
  mvcgen [disconnect, -disconnect_keeps, -detachLink_keeps, -resetTopology_keeps, resetTopology_spec, region, lift]
  all_goals subst n
  all_goals first
    | rfl
    | exact detachLink_wp wired (List.mem_of_find?_eq_some (by assumption))
        (fun s' kept _ => resetTopology_spec s' kept.resetTopology) rfl

theorem removeRegion_atomic
    (wired : n.Wired)
    (name : String) :
    ⦃fun s => ⌜s.network = n⌝⦄ removeRegion name ⦃atomicEdit n⦄ := by
  mvcgen [removeRegion, -removeRegion_keeps, -detachLink_keeps, -resetTopology_keeps,
    resetTopology_spec, region, lift] invariants
  · post⟨fun cursor s => ⌜n.Detaching name cursor.1.suffix s.network⌝, fun _ _ => ⌜False⌝⟩
  all_goals subst n
  case vc2.step found _ quiet incoming pref cur rest split _ s' progress =>
    exact detachLink_wp progress.wired (progress.present cur List.mem_cons_self)
      (fun s'' kept links => progress.advance (wired.fresh_of_split split) kept links) rfl
  case vc3.h_1.isFalse.pre =>
    exact Network.Detaching.start wired
  case vc4.h_1.isFalse.post.success found _ quiet incoming _ s' done =>
    exact (done.finish (wired.none_leaving found (Bool.eq_false_iff.mpr quiet))).resetTopology
  case vc5.h_1.isFalse.post.except =>
    exact ExceptConds.entails_false

theorem addRegion_atomic
    (wired : n.Wired)
    (name typeName params : String) :
    ⦃fun s => ⌜s.network = n⌝⦄ addRegion name typeName params ⦃atomicEdit n⦄ := by
  mvcgen [addRegion, -addRegion_keeps, -resetTopology_keeps, checkNewRegion, validateRegionName,
    stepFactory, lift, addRegionValue_spec, resetTopology_spec]
  all_goals subst n
  all_goals first
    | rfl
    | exact (wired.appendNew ‹_› [0]).resetTopology

theorem addRegionFromBundle_atomic
    (wired : n.Wired)
    (name typeName : String)
    (dims : Dimensions)
    (path label : String) :
    ⦃fun s => ⌜s.network = n⌝⦄ addRegionFromBundle name typeName dims path label ⦃atomicEdit n⦄ := by
  mvcgen [addRegionFromBundle, -addRegionFromBundle_keeps, -resetTopology_keeps, checkNewRegion,
    validateRegionName, stepFactory, lift, addRegionValue_spec, resetTopology_spec, region]
  all_goals subst n
  all_goals first
    | rfl
    | exact (wired.addedRestored ‹_› ‹_›).1
    | exfalso
      obtain ⟨x, found⟩ := (wired.addedRestored ‹_› ‹_›).2
      rename_i missing
      rw [found] at missing
      cases missing

theorem setRegionDimensions_atomic
    (wired : n.Wired)
    (name : String)
    (dims : Dimensions) :
    ⦃fun s => ⌜s.network = n⌝⦄ setRegionDimensions name dims ⦃atomicEdit n⦄ := by
  mvcgen [setRegionDimensions, -setRegionDimensions_keeps, -resetTopology_keeps, region, lift,
    putRegion_spec, resetTopology_spec]
  all_goals subst n
  all_goals first
    | rfl
    | exact (wired.storeBack ‹_› (Region.setDimensions_plugs ‹_›)).resetTopology

theorem setPhases_atomic
    (wired : n.Wired)
    (name : String)
    (phases : List UInt32) :
    ⦃fun s => ⌜s.network = n⌝⦄ setPhases name phases ⦃atomicEdit n⦄ := by
  mvcgen [setPhases, -setPhases_keeps, region, lift, putRegion_spec]
  all_goals subst n
  all_goals first
    | rfl
    | exact wired.storeBack ‹_› (by rfl)

end Op

end RegionNet
