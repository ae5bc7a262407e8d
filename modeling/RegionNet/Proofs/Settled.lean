import RegionNet.Proofs.Initialization
import RegionNet.Proofs.ExplicitDimensions
import RegionNet.Proofs.BufferStates

set_option mvcgen.warning false

namespace RegionNet

open Std.Do

/-!
# What a network's state promises

A network's state tells how far setting it up has come, and the network keeps the promise its
state makes (`Network.Settled`): a network whose dimensions are propagated has an order holding
every region once and links that route inside their sources (`Network.Propagated`), and a network
that is initialized, has run, or has been saved since is laid out (`Network.LaidOut`).

An operation keeps the promise in one of a few ways. It leaves alone what the promise reads; it
forgets the topology, and with it the state; it stores back regions and links that the promise
reads alike; or it sets a state whose promise it has just established. Storing back a region whose
links' ends read alike, or a link joining the same ports with the same map, keeps what propagation
promised (`Network.RoutedAlike`); storing back a region with the same frame whose outputs hold
their bytes keeps a layout (`Network.LaidOut.of_frame`).
-/

namespace NetworkState

/-- Whether a network in this state has been set up: initialized, run, or saved since. -/
def isSetUp : NetworkState → Bool
  | .initialized | .ready | .serialized => true
  | .unconfigured | .dimensionsPropagated => false

end NetworkState

/-- An output holds bytes of its own, exactly as many as its elements take. -/
def Output.Holds (o : Output) : Prop :=
  ∃ bytes, o.data.backing = .owned bytes ∧ bytes.size = o.data.count * o.data.elementType.size

/-- What propagation reads of a link: the ports it joins and its splitter map. -/
def Link.routing (l : Link) : Endpoints × List (List Nat) := (l.endpoints, l.routes)

/-!
## Links' ends read alike
-/

namespace Region

/-- What the ends of a link read of region `r` reads alike of `r'`: the dimensions, the elements
per node of each output, and whether the port found under each name is region-level. -/
structure SameEnds (r' r : Region) : Prop where
  dims : r'.dims = r.dims
  elementCount : r'.elementCount = r.elementCount
  inputs : ∀ k, (r'.inputs.find? k).map (·.regionLevel) = (r.inputs.find? k).map (·.regionLevel)
  outputs : ∀ k, (r'.outputs.find? k).map (·.regionLevel) = (r.outputs.find? k).map (·.regionLevel)

variable {r r' r'' : Region} {k : String}

theorem SameEnds.refl (r : Region) : r.SameEnds r := ⟨rfl, rfl, fun _ => rfl, fun _ => rfl⟩

theorem SameEnds.trans (later : r''.SameEnds r') (earlier : r'.SameEnds r) : r''.SameEnds r :=
  ⟨later.dims.trans earlier.dims, later.elementCount.trans earlier.elementCount,
    fun k => (later.inputs k).trans (earlier.inputs k),
    fun k => (later.outputs k).trans (earlier.outputs k)⟩

/-- Sizing outputs reads the ends of links alike. -/
theorem Resized.sameEnds (resized : r'.Resized r) : r'.SameEnds r :=
  ⟨resized.dims, resized.elementCount, fun k => by rw [resized.inputs], resized.levels⟩

/-- A port found under a name is found, at the same level, in a region whose ends read alike. -/
theorem find?_of_levels {α : Type} {c c' : Collection α} {level : α → Bool}
    (same : ∀ k, (c'.find? k).map level = (c.find? k).map level) {x : α}
    (found : c.find? k = some x) : ∃ x', c'.find? k = some x' ∧ level x' = level x := by
  have agree := same k
  rw [found, Option.map_some] at agree
  exact Option.map_eq_some_iff.mp agree

theorem sourceDimensions_of_sameEnds (same : r'.SameEnds r) {sd : Dimensions}
    (seen : sourceDimensions r k = .ok sd) : sourceDimensions r' k = .ok sd := by
  simp only [sourceDimensions, bind, Except.bind] at seen ⊢
  split at seen
  · cases seen
  · rename_i o found
    have located : r.outputs.find? k = some o := by
      unfold output at found
      split at found <;> simp_all
    obtain ⟨o', located', level⟩ := find?_of_levels same.outputs located
    simp only [output, located', level, same.dims]
    exact seen

theorem destinationDimensions_of_sameEnds (same : r'.SameEnds r) {dd : Dimensions}
    (shown : destinationDimensions r k = .ok dd) : destinationDimensions r' k = .ok dd := by
  simp only [destinationDimensions, bind, Except.bind] at shown ⊢
  split at shown
  · cases shown
  · rename_i i found
    have located : r.inputs.find? k = some i := by
      unfold input at found
      split at found <;> simp_all
    obtain ⟨i', located', level⟩ := find?_of_levels same.inputs located
    simp only [input, located', level, same.dims]
    exact shown

/-- A region laid out in one network is laid out in any network feeding its links alike. -/
theorem LaidOut.of_feed {m n : Network} (laid : r.LaidOut n) (feeds : m.feed = n.feed) :
    r.LaidOut m :=
  { laid with inputs := fun p member => feeds ▸ laid.inputs p member }

end Region

namespace Network

/--
Network `m` routes as `n` does, as far as propagation reads: the same order and region names,
links joining the same ports with the same splitter maps, in order, and under each name a region
of `n` has, a region of `m` whose links' ends read alike.
-/
structure RoutedAlike (m n : Network) : Prop where
  order : m.order = n.order
  names : m.regions.names = n.regions.names
  links : m.links.map Link.routing = n.links.map Link.routing
  regions : ∀ k r, n.region k = .ok r → ∃ r', m.region k = .ok r' ∧ r'.SameEnds r

variable {m m' n : Network}

theorem RoutedAlike.refl (n : Network) : n.RoutedAlike n :=
  ⟨rfl, rfl, rfl, fun _ r found => ⟨r, found, Region.SameEnds.refl r⟩⟩

theorem RoutedAlike.trans (later : m'.RoutedAlike m) (earlier : m.RoutedAlike n) :
    m'.RoutedAlike n where
  order := later.order.trans earlier.order
  names := later.names.trans earlier.names
  links := later.links.trans earlier.links
  regions := by
    intro k r found
    obtain ⟨r₁, found₁, same₁⟩ := earlier.regions k r found
    obtain ⟨r₂, found₂, same₂⟩ := later.regions k r₁ found₁
    exact ⟨r₂, found₂, same₂.trans same₁⟩

/-- Networks that route alike find the same ends for links joining the same ports. -/
theorem linkEnds_of_routedAlike (alike : m.RoutedAlike n) {l l' : Link}
    (sameEnds : l'.endpoints = l.endpoints) {count : Nat} {sd dd : Dimensions}
    (ends : n.linkEnds l = .ok (count, sd, dd)) : m.linkEnds l' = .ok (count, sd, dd) := by
  obtain ⟨src, dest, srcFound, destFound, counted, seen, shown⟩ := linkEnds_eq_ok_iff.mp ends
  obtain ⟨src', srcFound', srcAlike⟩ := alike.regions _ src srcFound
  obtain ⟨dest', destFound', destAlike⟩ := alike.regions _ dest destFound
  refine linkEnds_eq_ok_iff.mpr ?_
  rw [sameEnds]
  exact ⟨src', dest', srcFound', destFound', srcAlike.elementCount ▸ counted,
    Region.sourceDimensions_of_sameEnds srcAlike seen,
    Region.destinationDimensions_of_sameEnds destAlike shown⟩

/-- What propagation promised holds of every network that routes alike. -/
theorem Propagated.of_routedAlike (propagated : n.Propagated) (alike : m.RoutedAlike n) :
    m.Propagated where
  ordered := by
    rw [alike.order, alike.names]
    exact propagated.ordered
  routes := by
    intro l member
    -- the link of `n` joining the same ports with the same map
    have image : l.routing ∈ n.links.map Link.routing := alike.links ▸ List.mem_map_of_mem member
    obtain ⟨l', member', same⟩ := List.mem_map.mp image
    obtain ⟨count, sd, dd, ends, length, inside⟩ := propagated.routes l' member'
    have endpoints : l'.endpoints = l.endpoints := congrArg Prod.fst same
    have routes : l'.routes = l.routes := congrArg Prod.snd same
    exact ⟨count, sd, dd, linkEnds_of_routedAlike alike endpoints.symm ends, routes ▸ length,
      routes ▸ inside⟩

/-- The same regions, links and order route alike. -/
theorem RoutedAlike.of_same (regions : m.regions = n.regions) (links : m.links = n.links)
    (order : m.order = n.order) : m.RoutedAlike n :=
  ⟨order, by rw [regions], by rw [links], fun k r found =>
    ⟨r, by rw [show m.region k = n.region k by simp only [region, regions]]; exact found,
      Region.SameEnds.refl r⟩⟩

/-- Storing back over a region one whose links' ends read alike routes alike. -/
theorem RoutedAlike.replaceRegion {old r : Region} (found : n.region r.name = .ok old)
    (same : r.SameEnds old) : (n.replaceRegion r).RoutedAlike n where
  order := rfl
  names := by rw [replaceRegion_regions, Collection.names_store]
  links := rfl
  regions := by
    intro k x located
    rw [region_replaceRegion, located]
    by_cases key : k = r.name
    · subst key
      obtain rfl : x = old := Except.ok.inj (located.symm.trans found)
      exact ⟨r, by simp, same⟩
    · exact ⟨x, by simp [key], Region.SameEnds.refl x⟩

/-- Storing back, among links of distinct numbers, one joining the ports of a link of its number
with its map routes alike. -/
theorem RoutedAlike.replaceLink (apart : n.linkIds.Nodup) {l x : Link} (member : x ∈ n.links)
    (numbered : l.id = x.id) (same : l.routing = x.routing) : (n.replaceLink l).RoutedAlike n where
  order := rfl
  names := rfl
  links := by
    show (n.links.map fun y => if y.id == l.id then l else y).map Link.routing = _
    rw [List.map_map]
    refine List.map_congr_left fun y present => ?_
    by_cases replaced : y.id = l.id
    · -- the only link of that number is `x`
      have : y = x := List.inj_on_of_nodup_map apart present member (replaced.trans numbered)
      subst this
      simp [replaced, same]
    · simp [replaced]
  regions := fun k r found => ⟨r, by simpa [region] using found, Region.SameEnds.refl r⟩

/-!
## The promise of the state
-/

/-- The promise a network's state makes: propagated dimensions come with an order of all regions
and links routing inside their sources, and a network set up is laid out. -/
structure Settled (n : Network) : Prop where
  propagated : n.state = .dimensionsPropagated → n.Propagated
  laidOut : n.state.isSetUp = true → n.LaidOut

/-- An unconfigured network promises nothing. -/
theorem Settled.of_unconfigured (unconfigured : n.state = .unconfigured) : n.Settled :=
  ⟨fun propagated => by simp [unconfigured] at propagated,
    fun setUp => by simp [unconfigured, NetworkState.isSetUp] at setUp⟩

theorem Settled.of_propagated (propagated : n.Propagated)
    (state : n.state = .dimensionsPropagated) : n.Settled :=
  ⟨fun _ => propagated, fun setUp => by simp [state, NetworkState.isSetUp] at setUp⟩

theorem Settled.of_laidOut (laid : n.LaidOut) (setUp : n.state.isSetUp = true) : n.Settled :=
  ⟨fun propagated => by simp [propagated, NetworkState.isSetUp] at setUp, fun _ => laid⟩

/-- A laid-out network's outputs hold their bytes. -/
theorem LaidOut.holds (laid : n.LaidOut) : ∀ r ∈ n.regions.items, ∀ p ∈ r.outputs.entries,
    p.2.Holds :=
  fun r member p present => ((laid.regions r member).outputs p present).owned

/-- The same regions, links and order keep a layout. -/
theorem LaidOut.of_same (laid : n.LaidOut) (regions : m.regions = n.regions)
    (links : m.links = n.links) (order : m.order = n.order) : m.LaidOut where
  ordered := by
    rw [order, regions]
    exact laid.ordered
  regions := by
    have feeds : m.feed = n.feed := by
      funext id
      simp [feed, regions, links]
    intro r member
    exact (laid.regions r (regions ▸ member)).of_feed feeds

/-- The same regions, links, order and state keep the promise. -/
theorem Settled.of_same (settled : n.Settled) (regions : m.regions = n.regions)
    (links : m.links = n.links) (order : m.order = n.order) (state : m.state = n.state) :
    m.Settled :=
  ⟨fun propagated => (settled.propagated (state ▸ propagated)).of_routedAlike
      (RoutedAlike.of_same regions links order),
    fun setUp => (settled.laidOut (state ▸ setUp)).of_same regions links order⟩

/-- Storing back, over a region of a laid-out network whose names are apart, one with the same frame
whose outputs hold their bytes keeps the layout. -/
theorem LaidOut.replaceRegion (laid : n.LaidOut) (distinct : n.regions.names.Nodup)
    {old r : Region} (found : n.region r.name = .ok old) (frame : r.frame = old.frame)
    (holds : ∀ p ∈ r.outputs.entries, p.2.Holds) : (n.replaceRegion r).LaidOut := by
  refine laid.of_frame ?_ ?_
  · show ((n.replaceRegion r).regions.entries.map fun e => (e.1, e.2.frame), _, _) =
      (n.regions.entries.map fun e => (e.1, e.2.frame), _, _)
    rw [map_replaceRegion Region.frame distinct found frame]
    rfl
  · -- each region is the one stored back or one the layout had
    intro x member p present
    obtain ⟨e, stored, rfl⟩ := List.mem_map.mp member
    rw [replaceRegion_regions] at stored
    rcases Collection.mem_store stored with ⟨-, rfl, -⟩ | ⟨-, earlier⟩
    · exact holds p present
    · exact laid.holds e.2 (List.mem_map_of_mem earlier) p present

/--
Storing back, over a region of a settled network whose names are apart, one with the same frame
whose links' ends read alike keeps the network settled, when its outputs hold their bytes once
the network is set up.
-/
theorem Settled.replaceRegion (settled : n.Settled) (distinct : n.regions.names.Nodup)
    {old r : Region} (found : n.region r.name = .ok old) (frame : r.frame = old.frame)
    (ends : r.SameEnds old)
    (holds : n.state.isSetUp = true → ∀ p ∈ r.outputs.entries, p.2.Holds) :
    (n.replaceRegion r).Settled where
  propagated := fun state =>
    (settled.propagated state).of_routedAlike (RoutedAlike.replaceRegion found ends)
  laidOut := fun setUp =>
    (settled.laidOut setUp).replaceRegion distinct found frame (holds setUp)

end Network

/-!
## Regions that stand in for the ones they replace
-/

namespace Reference

variable {s s' : State}

/-- Setting a parameter keeps the elements a reference region writes per node. -/
theorem perNode_of_set {name : String} {v : ParameterValue} (changed : set s name v = .ok s') :
    s'.perNode = s.perNode := by
  unfold set at changed
  split at changed
  all_goals try simp only [bind, Except.bind, pure, Except.pure] at changed
  all_goals try split at changed
  all_goals
    cases changed
    try rfl

/-- A command keeps the elements a reference region writes per node. -/
theorem perNode_of_command {args : List String} {answer : String}
    (ran : command s args = .ok (s', answer)) : s'.perNode = s.perNode := by
  unfold command at ran
  repeat' split at ran
  all_goals cases ran
  rfl

/-- A step keeps the elements a reference region writes per node. -/
theorem perNode_of_compute {io io' : RegionIo} (stepped : compute s io = .ok (s', io')) :
    s'.perNode = s.perNode := by
  simp only [compute, bind, Except.bind, pure, Except.pure, throw, throwThe, MonadExceptOf.throw]
    at stepped
  repeat' split at stepped
  all_goals cases stepped
  rfl

end Reference

namespace Implementation

variable {impl impl' : Implementation}

/-- Reference implementations with the same elements per node report alike. -/
theorem elementCount_reference {s s' : Reference.State} (same : s'.perNode = s.perNode) :
    (reference s').elementCount = (reference s).elementCount := by
  funext k
  simp [elementCount, Reference.elementCount, same]

theorem elementCount_of_set {name : String} {v : ParameterValue}
    (changed : impl.set name v = .ok impl') : impl'.elementCount = impl.elementCount := by
  cases impl with
  | reference s =>
      simp only [set, Functor.map, Except.map] at changed
      split at changed
      · cases changed
      · rename_i s' stepped
        cases changed
        exact elementCount_reference (Reference.perNode_of_set stepped)
  | probe role iteration => cases changed

theorem elementCount_of_command {args : List String} {answer : String}
    (ran : impl.command args = .ok (impl', answer)) : impl'.elementCount = impl.elementCount := by
  cases impl with
  | reference s =>
      simp only [command, Functor.map, Except.map] at ran
      split at ran
      · cases ran
      · rename_i result stepped
        cases ran
        exact elementCount_reference (Reference.perNode_of_command stepped)
  | probe role iteration => cases ran

theorem elementCount_of_compute {io io' : RegionIo} (stepped : impl.compute io = .ok (impl', io')) :
    impl'.elementCount = impl.elementCount := by
  cases impl with
  | reference s =>
      simp only [compute, Functor.map, Except.map] at stepped
      split at stepped
      · cases stepped
      · rename_i result computed
        cases stepped
        exact elementCount_reference (Reference.perNode_of_compute computed)
  | probe role iteration =>
      simp only [compute, Functor.map, Except.map] at stepped
      split at stepped
      · cases stepped
      · cases stepped
        rfl

end Implementation

/-!
## Computing rewrites outputs in full
-/

/-- Outputs stored under one key have one frame. -/
def OutputsAlike (outputs : Collection Output) : Prop :=
  ∀ p ∈ outputs.entries, ∀ q ∈ outputs.entries, p.1 = q.1 → p.2.frame = q.2.frame

/-- Every output holds its bytes. -/
def OutputsHold (outputs : Collection Output) : Prop := ∀ p ∈ outputs.entries, p.2.Holds

namespace RegionIo

variable {io io' io'' : RegionIo}

/-- The outputs of `io'` are those of `io` with their bytes rewritten in full: the same frames
under the same keys, holding their bytes when those of `io` do. -/
structure Rewrites (io' io : RegionIo) : Prop where
  frames : io'.outputs.entries.map (fun e => (e.1, e.2.frame)) =
    io.outputs.entries.map (fun e => (e.1, e.2.frame))
  holds : OutputsHold io.outputs → OutputsHold io'.outputs

theorem Rewrites.refl (io : RegionIo) : io.Rewrites io := ⟨rfl, id⟩

theorem Rewrites.trans (later : io''.Rewrites io') (earlier : io'.Rewrites io) : io''.Rewrites io :=
  ⟨later.frames.trans earlier.frames, later.holds ∘ earlier.holds⟩

/-- Outputs with the frames of outputs stored alike are stored alike. -/
theorem Rewrites.alike (rewrites : io'.Rewrites io) (alike : OutputsAlike io.outputs) :
    OutputsAlike io'.outputs := by
  intro p member q present key
  obtain ⟨p', member', pKey, pFrame⟩ := Collection.mem_of_map_eq rewrites.frames member
  obtain ⟨q', present', qKey, qFrame⟩ := Collection.mem_of_map_eq rewrites.frames present
  rw [← pFrame, ← qFrame]
  exact alike p' member' q' present' (by rw [pKey, qKey, key])

/-- Writing as many elements as the output found under a name holds, over outputs stored alike,
rewrites the outputs in full. -/
theorem writeOutput_rewrites (alike : OutputsAlike io.outputs) {name : String} {xs : List Element}
    (written : io.writeOutput name xs = .ok io')
    (length : ∀ o, io.outputs.find? name = some o → xs.length = o.data.count) :
    io'.Rewrites io := by
  simp only [writeOutput, bind, Except.bind] at written
  split at written
  · cases written
  · rename_i o found
    split at written
    · cases written
    · cases written
      have located : io.outputs.find? name = some o := by
        unfold output at found
        split at found <;> simp_all
      have stored : (name, o) ∈ io.outputs.entries := Collection.mem_of_find? located
      -- every entry under the name takes the found output's type and count, which it had
      have retyped : ∀ v, (name, v) ∈ io.outputs.entries →
          ({ v with data := { o.data with backing := .owned (Element.writeAll o.data.elementType xs) } }
            : Output).frame = v.frame := by
        intro v present
        have same : o.frame = v.frame := alike _ stored _ present rfl
        simp only [Output.frame, Output.mk.injEq] at same ⊢
        simp [same]
      refine ⟨?_, ?_⟩
      · simp only [List.map_map]
        refine List.map_congr_left fun e present => ?_
        obtain ⟨k, v⟩ := e
        by_cases atName : k = name
        · subst atName
          simp [retyped v present]
        · simp [atName]
      · intro held p present
        obtain ⟨⟨k, v⟩, before, rfl⟩ := List.mem_map.mp present
        by_cases atName : k = name
        · subst atName
          have same : o.frame = v.frame := alike _ stored _ before rfl
          have count : o.data.count = v.data.count := by
            simpa using congrArg (·.data.count) same
          refine ⟨Element.writeAll o.data.elementType xs, by simp, ?_⟩
          simp [Element.size_writeAll, length o located, count]
        · simpa [atName] using held _ before

end RegionIo

/-- A writable count is the buffer's count. -/
theorem Buffer.eq_count_of_writableCount {b : Buffer} {t : ElementType} {n : Nat}
    (counted : liftData (b.writableCount t) = .ok n) : n = b.count := by
  simp only [Buffer.writableCount, bind, Except.bind, pure, Except.pure] at counted
  repeat' split at counted
  all_goals simp_all [liftData]

/-- A relation between the ports a step sees and those it leaves, kept by chaining and by every
write of an output with as many elements as the output found under its name holds. Every step of
every implementation is made of such writes (`Implementation.compute_closed`). -/
structure RegionIo.WriteClosed (R : RegionIo → RegionIo → Prop) : Prop where
  refl : ∀ io, R io io
  trans : ∀ {io io' io''}, R io'' io' → R io' io → R io'' io
  write : ∀ {io io' name xs}, io.writeOutput name xs = .ok io' →
    (∀ o, io.outputs.find? name = some o → xs.length = o.data.count) → R io' io

section Closed

variable {R : RegionIo → RegionIo → Prop} (closed : RegionIo.WriteClosed R) {io io' : RegionIo}
include closed

/-- Filling an output writes as many elements as it holds. -/
theorem Probe.fill_closed {name : String} {f : ElementType → Nat → Element}
    (filled : Probe.fill io name f = .ok io') : R io' io := by
  unfold Probe.fill at filled
  split at filled
  · cases filled
    exact closed.refl io
  · rename_i o located
    refine closed.write filled fun o' found => ?_
    rw [located] at found
    cases found
    simp

theorem Probe.foldlM_fill_closed {names : List String} {f : String → ElementType → Nat → Element}
    (filled : names.foldlM (fun io name => Probe.fill io name (f name)) io = .ok io') :
    R io' io := by
  induction names generalizing io with
  | nil =>
      cases filled
      exact closed.refl _
  | cons name rest inductionHypothesis =>
      simp only [List.foldlM_cons, bind, Except.bind] at filled
      split at filled
      · cases filled
      · rename_i next first
        exact closed.trans (inductionHypothesis filled) (Probe.fill_closed closed first)

/-- A probe's step fills its outputs. -/
theorem Probe.compute_closed {role : Probe.Role} {iteration iteration' : Nat}
    (computed : Probe.compute role iteration io = .ok (iteration', io')) : R io' io := by
  simp only [Probe.compute, bind, Except.bind, pure, Except.pure, throw, throwThe,
    MonadExceptOf.throw] at computed
  repeat' split at computed
  all_goals cases computed
  · exact Probe.fill_closed closed ‹_›
  · exact Probe.foldlM_fill_closed closed ‹_›

/-- A reference step writes as many elements as its output holds. -/
theorem Reference.compute_closed {s s' : Reference.State}
    (computed : Reference.compute s io = .ok (s', io')) : R io' io := by
  simp only [Reference.compute, bind, Except.bind, pure, Except.pure, throw, throwThe,
    MonadExceptOf.throw] at computed
  repeat' split at computed
  all_goals cases computed
  rename_i rows _ o found _ held counted agrees _ written
  refine closed.write written fun o' located => ?_
  have same : o' = o := by
    unfold RegionIo.output at found
    rw [located] at found
    exact Except.ok.inj found
  subst same
  -- the elements written are as many as the writable count, which is the output's count
  rw [List.length_map, ← Buffer.eq_count_of_writableCount counted]
  exact (not_not.mp agrees).symm

/-- Every step of every implementation keeps a relation closed under writes. -/
theorem Implementation.compute_closed {impl impl' : Implementation}
    (computed : impl.compute io = .ok (impl', io')) : R io' io := by
  cases impl with
  | reference state =>
      simp only [Implementation.compute, Functor.map, Except.map] at computed
      split at computed
      · cases computed
      · rename_i result stepped
        cases computed
        exact Reference.compute_closed closed stepped
  | probe role iteration =>
      simp only [Implementation.compute, Functor.map, Except.map] at computed
      split at computed
      · cases computed
      · rename_i result stepped
        cases computed
        exact Probe.compute_closed closed stepped

end Closed

/-- Rewriting outputs stored alike in full is closed under writes. -/
theorem RegionIo.rewrites_closed :
    RegionIo.WriteClosed fun io' io => OutputsAlike io.outputs → io'.Rewrites io where
  refl io _ := Rewrites.refl io
  trans later earlier alike :=
    (later ((earlier alike).alike alike)).trans (earlier alike)
  write written length alike := writeOutput_rewrites alike written length

/-- An implementation's step rewrites its outputs in full. -/
theorem Implementation.compute_rewrites {impl impl' : Implementation} {io io' : RegionIo}
    (alike : OutputsAlike io.outputs) (computed : impl.compute io = .ok (impl', io')) :
    io'.Rewrites io :=
  Implementation.compute_closed RegionIo.rewrites_closed computed alike

/-- Storing merged data in an input keeps its frame. -/
theorem Input.setData_frame {i i' : Input} {b : Buffer} (set : i.setData b = .ok i') :
    i'.frame = i.frame := by
  unfold Input.setData at set
  split at set
  · cases set
  · rename_i fits
    cases set
    simp only [Bool.or_eq_true, decide_eq_true_eq, not_or, not_not] at fits
    simp [Input.frame, fits.1, fits.2]

namespace Region

variable {r r' : Region}

/-- Region `r'` stands in for `r` in a settled network: it has the frame of `r`, the ends of links
read it alike, and its outputs hold their bytes when those of `r` do. -/
structure StandsIn (r' r : Region) : Prop where
  name : r'.name = r.name
  frame : r'.frame = r.frame
  ends : r'.SameEnds r
  holds : (∀ p ∈ r.outputs.entries, p.2.Holds) → ∀ p ∈ r'.outputs.entries, p.2.Holds

/-- Entries with one frame under each key find ports at one level, when a frame keeps the level. -/
theorem levels_of_frames {α : Type} {c c' : Collection α} (frame : α → α) {level : α → Bool}
    (keeps : ∀ x, level (frame x) = level x)
    (same : c'.entries.map (fun e => (e.1, frame e.2)) = c.entries.map (fun e => (e.1, frame e.2)))
    (k : String) : (c'.find? k).map level = (c.find? k).map level := by
  have agree := congrArg (Option.map level) (Collection.find?_map_of_map_eq same k)
  simpa [Option.map_map, Function.comp_def, keeps] using agree

/-- A region with the same name, declaration and dimensions, reporting the same elements per node,
whose ports have the frames of another's under the same keys and whose outputs hold their bytes
when those do, stands in for it. -/
theorem StandsIn.of_frames (name : r'.name = r.name) (spec : r'.spec = r.spec)
    (counts : r'.impl.elementCount = r.impl.elementCount) (dims : r'.dims = r.dims)
    (initialized : r'.initialized = r.initialized)
    (inputs : r'.inputs.entries.map (fun e => (e.1, e.2.frame)) =
      r.inputs.entries.map (fun e => (e.1, e.2.frame)))
    (outputs : r'.outputs.entries.map (fun e => (e.1, e.2.frame)) =
      r.outputs.entries.map (fun e => (e.1, e.2.frame)))
    (holds : OutputsHold r.outputs → OutputsHold r'.outputs) : r'.StandsIn r := by
  have elementCount : r'.elementCount = r.elementCount := by
    funext k
    simp only [Region.elementCount, name, spec, counts]
  refine ⟨name, ?_, ⟨dims, elementCount, levels_of_frames Input.frame (fun _ => rfl) inputs,
    levels_of_frames Output.frame (fun _ => rfl) outputs⟩, holds⟩
  unfold Region.frame
  rw [dims, initialized, inputs, elementCount]
  simpa [List.map_map, Function.comp_def] using
    congrArg (List.map fun t => (t.1, t.2, r.elementCount t.1)) outputs

/-- A region with the same name, declaration and ports, reporting the same elements per node,
stands in for another. -/
theorem StandsIn.of_ports (name : r'.name = r.name) (spec : r'.spec = r.spec)
    (counts : r'.impl.elementCount = r.impl.elementCount) (dims : r'.dims = r.dims)
    (initialized : r'.initialized = r.initialized) (inputs : r'.inputs = r.inputs)
    (outputs : r'.outputs = r.outputs) : r'.StandsIn r :=
  StandsIn.of_frames name spec counts dims initialized (by rw [inputs]) (by rw [outputs])
    fun held => outputs ▸ held

/-- Computing, over outputs stored alike, stands in for the region. -/
theorem compute_standsIn (alike : OutputsAlike r.outputs) (computed : r.compute = .ok r') :
    r'.StandsIn r := by
  simp only [Region.compute, bind, Except.bind, pure, Except.pure, throw, throwThe,
    MonadExceptOf.throw] at computed
  split at computed
  · cases computed
  · split at computed
    · cases computed
    · rename_i stepped
      cases computed
      have rewrites := Implementation.compute_rewrites alike stepped
      exact StandsIn.of_frames rfl rfl (Implementation.elementCount_of_compute stepped) rfl rfl
        rfl rewrites.frames rewrites.holds

/-- Storing back, over an input found under a key of a region whose inputs are stored under their
names and alike under one key, one with its frame stands in for the region. -/
theorem setInput_standsIn (named : r.PortsNamed)
    (alike : ∀ p ∈ r.inputs.entries, ∀ q ∈ r.inputs.entries, p.1 = q.1 → p.2.frame = q.2.frame)
    {k : String} {i i' : Input} (found : r.input k = .ok i) (same : i'.frame = i.frame) :
    (r.setInput i').StandsIn r := by
  obtain ⟨stored, iNamed⟩ := input_named named found
  have i'Named : i'.name = k := by
    rw [← iNamed]
    simpa [Input.frame] using congrArg Input.name same
  refine StandsIn.of_frames rfl rfl rfl rfl rfl ?_ rfl id
  simp only [setInput, List.map_map]
  refine List.map_congr_left fun e member => ?_
  obtain ⟨k', x⟩ := e
  by_cases atKey : k' = k
  · subst atKey
    have agree := alike _ stored _ member rfl
    simp [i'Named, same, agree]
  · simp [i'Named, atKey]

/-- Running in other phases stands in for the region. -/
theorem withPhases_standsIn (r : Region) (phases : List Nat) : ({ r with phases }).StandsIn r :=
  StandsIn.of_ports rfl rfl rfl rfl rfl rfl rfl

/-- Setting a parameter stands in for the region. -/
theorem setParameter_standsIn {name : String} {v : ParameterValue}
    (changed : r.setParameter name v = .ok r') : r'.StandsIn r := by
  simp only [setParameter, bind, Except.bind, pure, Except.pure, throw, throwThe,
    MonadExceptOf.throw] at changed
  repeat' split at changed
  all_goals cases changed
  exact StandsIn.of_ports rfl rfl (Implementation.elementCount_of_set ‹_›) rfl rfl rfl rfl

/-- Running a command stands in for the region, whether it succeeds or not. -/
theorem executeCommand_standsIn (args : List String) : (r.executeCommand args).1.StandsIn r := by
  unfold executeCommand
  repeat' split
  all_goals first
    | exact StandsIn.of_ports rfl rfl rfl rfl rfl rfl rfl
    | exact StandsIn.of_ports rfl rfl (Implementation.elementCount_of_command ‹_›) rfl rfl rfl rfl

end Region

namespace Network

variable {n : Network}

/-- Storing back, over the region of a settled wired network found under a name, a region that
stands in for it keeps the network settled. -/
theorem Settled.storeBack (settled : n.Settled) (wired : n.Wired) {name : String} {old r : Region}
    (found : n.region name = .ok old) (stands : r.StandsIn old) : (n.replaceRegion r).Settled := by
  have oldNamed : old.name = name := wired.named _ (mem_of_region found)
  refine settled.replaceRegion wired.distinct (by rw [stands.name, oldNamed]; exact found)
    stands.frame stands.ends fun setUp => stands.holds ?_
  exact (settled.laidOut setUp).holds old (List.mem_map_of_mem (mem_of_region found))

/-- Storing back, over the region of a laid-out wired network found under a name, a region that
stands in for it keeps the layout. -/
theorem LaidOut.storeBack (laid : n.LaidOut) (wired : n.Wired) {name : String} {old r : Region}
    (found : n.region name = .ok old) (stands : r.StandsIn old) : (n.replaceRegion r).LaidOut := by
  have oldNamed : old.name = name := wired.named _ (mem_of_region found)
  exact laid.replaceRegion wired.distinct (by rw [stands.name, oldNamed]; exact found)
    stands.frame (stands.holds (laid.holds old (List.mem_map_of_mem (mem_of_region found))))

/-- Storing back a found region with merged data in one of its inputs keeps the layout. -/
theorem LaidOut.storeInput (laid : n.LaidOut) (wired : n.Wired) {name k : String} {r : Region}
    {i i' : Input} {b : Buffer} (found : n.region name = .ok r) (inputFound : r.input k = .ok i)
    (set : i.setData b = .ok i') : (n.replaceRegion (r.setInput i')).LaidOut :=
  laid.storeBack wired found <| Region.setInput_standsIn (wired.portsNamed _ (mem_of_region found))
    (laid.regions r (List.mem_map_of_mem (mem_of_region found))).inputsAlike inputFound
    (Input.setData_frame set)

/-- Storing back what a found region computed keeps the layout. -/
theorem LaidOut.storeComputed (laid : n.LaidOut) (wired : n.Wired) {name : String} {r r' : Region}
    (found : n.region name = .ok r) (computed : r.compute = .ok r') :
    (n.replaceRegion r').LaidOut :=
  laid.storeBack wired found <| Region.compute_standsIn
    (laid.regions r (List.mem_map_of_mem (mem_of_region found))).outputsAlike computed

/-- A network ready to run: wired, laid out, and in a state that has been set up. -/
structure Running (n : Network) : Prop where
  wired : n.Wired
  laidOut : n.LaidOut
  setUp : n.state.isSetUp = true

/-- A running network keeps its promise. -/
theorem Running.settled (running : n.Running) : n.Settled :=
  Settled.of_laidOut running.laidOut running.setUp

/-- The same regions, links and order, with the next link number no lower, in a state set up when
the first one's is, keep a network running. -/
theorem Running.of_same {m : Network} (running : n.Running) (regions : m.regions = n.regions)
    (links : m.links = n.links) (order : m.order = n.order) (next : n.nextLink ≤ m.nextLink)
    (setUp : n.state.isSetUp = true → m.state.isSetUp = true) : m.Running :=
  ⟨running.wired.of_topology_eq regions links next, running.laidOut.of_same regions links order,
    setUp running.setUp⟩

/-- Storing back a found region with merged data in one of its inputs keeps a network running. -/
theorem Running.storeInput (running : n.Running) {name k : String} {r : Region} {i i' : Input}
    {b : Buffer} (found : n.region name = .ok r) (inputFound : r.input k = .ok i)
    (set : i.setData b = .ok i') : (n.replaceRegion (r.setInput i')).Running :=
  ⟨running.wired.storeInput found inputFound (Input.setData_plug set),
    running.laidOut.storeInput running.wired found inputFound set, running.setUp⟩

/-- Storing back what a found region computed keeps a network running. -/
theorem Running.storeComputed (running : n.Running) {name : String} {r r' : Region}
    (found : n.region name = .ok r) (computed : r.compute = .ok r') :
    (n.replaceRegion r').Running :=
  ⟨running.wired.storeBack found (Region.compute_plugs computed),
    running.laidOut.storeComputed running.wired found computed, running.setUp⟩

/-- Changing every region into one that stands in for it keeps the network settled. -/
theorem Settled.eachRegion (settled : n.Settled) {f : Region → Region}
    (stands : ∀ r, (f r).StandsIn r) :
    ({ n with regions := ⟨n.regions.entries.map fun (k, r) => (k, f r)⟩ } : Network).Settled := by
  have found : ∀ k, (⟨n.regions.entries.map fun (k, r) => (k, f r)⟩ : Collection Region).find? k =
      (n.regions.find? k).map f := by
    intro k
    simp [Collection.find?, List.find?_map, Function.comp_def, Option.map_map]
  refine ⟨fun state => (settled.propagated state).of_routedAlike ⟨rfl, ?_, rfl, ?_⟩,
    fun setUp => (settled.laidOut setUp).of_frame ?_ ?_⟩
  · simp [Collection.names, Function.comp_def]
  · intro k r located
    refine ⟨f r, ?_, (stands r).ends⟩
    rw [region_eq_ok_iff] at located ⊢
    rw [found, located, Option.map_some]
  · show ((n.regions.entries.map fun (k, r) => (k, f r)).map fun e => (e.1, e.2.frame), _, _) =
      (n.regions.entries.map fun e => (e.1, e.2.frame), _, _)
    simp [Function.comp_def, (stands _).frame]
  · intro x member p present
    simp only [Collection.items, List.map_map, List.mem_map, Function.comp_apply] at member
    obtain ⟨e, stored, rfl⟩ := member
    exact (stands e.2).holds
      ((settled.laidOut setUp).holds e.2 (List.mem_map_of_mem stored)) p present

end Network

namespace Op

variable {n : Network}

/-!
## Operations that leave alone what the promise reads, or store back what stands in
-/

theorem setPhases_settled (name : String) (phases : List UInt32) :
    ⦃fun s => ⌜s.network.Wired ∧ s.network.Settled⌝⦄ setPhases name phases
    ⦃always (·.network.Settled)⦄ := by
  mvcgen [setPhases, -setPhases_keeps, region, lift, putRegion_spec]
  all_goals first
    | exact ‹_ ∧ _›.2
    | exact Network.Settled.storeBack ‹_ ∧ _›.2 ‹_ ∧ _›.1 ‹_› (Region.withPhases_standsIn _ _)

theorem setParameter_settled (name param : String) (v : ParameterValue) :
    ⦃fun s => ⌜s.network.Wired ∧ s.network.Settled⌝⦄ setParameter name param v
    ⦃always (·.network.Settled)⦄ := by
  mvcgen [setParameter, -setParameter_keeps, region, lift, putRegion_spec]
  all_goals first
    | exact ‹_ ∧ _›.2
    | exact Network.Settled.storeBack ‹_ ∧ _›.2 ‹_ ∧ _›.1 ‹_› (Region.setParameter_standsIn ‹_›)

theorem executeCommand_settled (name : String) (args : List String) :
    ⦃fun s => ⌜s.network.Wired ∧ s.network.Settled⌝⦄ executeCommand name args
    ⦃always (·.network.Settled)⦄ := by
  mvcgen [executeCommand, -executeCommand_keeps, region, lift, stepRegion, putRegion_spec]
  all_goals first
    | exact ‹_ ∧ _›.2
    | exact Network.Settled.storeBack ‹_ ∧ _›.2 ‹_ ∧ _›.1 ‹_›
        (Region.executeCommand_standsIn _)

theorem addCallback_settled (name : String) :
    ⦃fun s => ⌜s.network.Settled⌝⦄ addCallback name ⦃always (·.network.Settled)⦄ := by
  mvcgen [addCallback, -addCallback_keeps, lift]
  all_goals first
    | exact ‹_›
    | apply Network.Settled.of_same ‹_› <;> rfl

theorem removeCallback_settled (name : String) :
    ⦃fun s => ⌜s.network.Settled⌝⦄ removeCallback name ⦃always (·.network.Settled)⦄ := by
  mvcgen [removeCallback, -removeCallback_keeps, lift]
  all_goals first
    | exact ‹_›
    | apply Network.Settled.of_same ‹_› <;> rfl

theorem eachRegion_settled (f : Region → Region) (stands : ∀ r, (f r).StandsIn r) :
    ⦃fun s => ⌜s.network.Settled⌝⦄ eachRegion f ⦃always (·.network.Settled)⦄ := by
  mvcgen [eachRegion, -eachRegion_keeps]
  exact Network.Settled.eachRegion ‹_› stands

/-!
## Running keeps a layout
-/

theorem consolidate_running (i : Input) :
    ⦃fun s => ⌜s.network.Running⌝⦄ consolidate i ⦃always (·.network.Running)⦄ := by
  mvcgen [consolidate, -consolidate_keeps, lift] invariants
  · always (·.network.Running)

theorem computeRegion_running (name : String) :
    ⦃fun s => ⌜s.network.Running⌝⦄ computeRegion name ⦃always (·.network.Running)⦄ := by
  mvcgen [computeRegion, -computeRegion_keeps, -consolidate_keeps, consolidate_running, region,
    lift, putRegion_spec, List.mapM_eq_reverse_foldlM_cons] invariants
  · always (·.network.Running)
  · always (·.network.Running)
  -- each input is stored back with its merged data, then the region with what it computed
  all_goals first
    | exact Network.Running.storeInput ‹_› ‹_› ‹_› ‹_›
    | exact Network.Running.storeComputed ‹_› ‹_› ‹_›

theorem iterate_running (order : List String) :
    ⦃fun s => ⌜s.network.Running⌝⦄ iterate order ⦃always (·.network.Running)⦄ := by
  mvcgen [iterate, -iterate_keeps, -computeRegion_keeps, computeRegion_running, region, lift,
    setState] invariants
  · always (·.network.Running)
  · always (·.network.Running)
  -- counting the iteration and setting the state leave regions, links and order alone
  all_goals
    exact Network.Running.of_same ‹_› (by rfl) (by rfl) (by rfl) (by exact le_rfl)
      (by first | exact id | exact fun _ => rfl)

end Op

end RegionNet
