import RegionNet.Proofs.SourceBounds

namespace RegionNet

/-!
# Laid-out networks

Initializing a network lays out every input over the links that feed it, in the order the input
lists them. Each link comes with the number of elements of the output feeding it
(`Network.feed`); the links' data lie one after the other in the input's buffer, each at the sum
of the counts before it; the buffer holds all of them; and the input's splitter map gives each
node the entries every link routes to it, shifted by the link's offset, the links in order
(`Input.Layout`). Every position such a map names lies inside the buffer
(`Input.Layout.splitterMap_lt`).

A laid-out network (`Network.LaidOut`) has an order holding every region once, and every region
initialized, with dimensions whose nodes a word numbers, its outputs sized to their elements per
node in bytes of their own, and every input laid out. What it asks of a network it reads off
the frame of the network (`Network.frame`): the links, the order, and the regions with their
ports' bytes left out. Computing changes only bytes, so a network with the frame of a laid-out
one whose outputs still hold their bytes is laid out (`Network.LaidOut.of_frame`).
-/

namespace Network

/-- The link of a number, with the number of elements of the output that feeds it. -/
def feed (n : Network) (id : Nat) : Option (Link × Nat) := do
  let l ← n.links.find? (·.id == id)
  let src ← n.regions.find? l.endpoints.srcRegion
  let o ← src.outputs.find? l.endpoints.srcOutput
  pure (l, o.data.count)

/-- A link is fed when it is found, with its source region and output. -/
theorem feed_eq_some_iff {n : Network} {id : Nat} {l : Link} {count : Nat} :
    n.feed id = some (l, count) ↔
      ∃ src o, n.links.find? (·.id == id) = some l ∧
        n.regions.find? l.endpoints.srcRegion = some src ∧
        src.outputs.find? l.endpoints.srcOutput = some o ∧ o.data.count = count := by
  simp only [feed, bind, Option.bind_eq_some_iff, pure, Option.some.injEq, Prod.mk.injEq]
  constructor
  · rintro ⟨l', found, src, srcFound, o, outputFound, rfl, rfl⟩
    exact ⟨src, o, found, srcFound, outputFound, rfl⟩
  · rintro ⟨src, o, found, srcFound, outputFound, rfl⟩
    exact ⟨l, found, src, srcFound, o, outputFound, rfl, rfl⟩

end Network

/-- The splitter map links give an input of `nodes` nodes: for each node, the entries of every
link for it, shifted by the link's offset, the links in order. -/
def linkedMap (links : List Link) (nodes : Nat) : List (List Nat) :=
  (List.range nodes).map fun node =>
    links.flatMap fun l => (l.routes.getD node []).map (· + l.offset)

namespace Input

/--
The layout of an input of `nodes` nodes over the links that feed it, each with the number of
elements of its source output: every link routes one entry per node, each inside its source; the
links' data lie one after the other, each at the sum of the counts before it; the buffer holds
exactly their elements, whose bytes a word can count; and the splitter map is the links' map.
-/
structure Layout (i : Input) (nodes : Nat) (feeds : List (Link × Nat)) : Prop where
  routes : ∀ f ∈ feeds, f.1.routes.length = nodes
  inside : ∀ f ∈ feeds, ∀ entry ∈ f.1.routes, ∀ x ∈ entry, x < f.2
  offsets : ∀ j (h : j < feeds.length), feeds[j].1.offset = ((feeds.take j).map (·.2)).sum
  count : i.data.count = (feeds.map (·.2)).sum
  fits : i.data.count * i.data.elementType.size < wordSize
  map : i.splitterMap = linkedMap (feeds.map (·.1)) nodes

variable {i : Input} {nodes : Nat} {feeds : List (Link × Nat)}

/-- A laid-out input has one splitter map entry per node. -/
theorem Layout.length_splitterMap (laid : i.Layout nodes feeds) : i.splitterMap.length = nodes := by
  simp [laid.map, linkedMap]

/-- Every position a laid-out input's splitter map names lies inside its buffer. -/
theorem Layout.splitterMap_lt (laid : i.Layout nodes feeds) :
    ∀ entry ∈ i.splitterMap, ∀ x ∈ entry, x < i.data.count := by
  intro entry present x member
  rw [laid.map] at present
  simp only [linkedMap, List.mem_map, List.mem_range] at present
  obtain ⟨node, -, rfl⟩ := present
  simp only [List.mem_flatMap, List.mem_map] at member
  obtain ⟨_, ⟨f, fed, rfl⟩, y, routed, rfl⟩ := member
  obtain ⟨j, below, rfl⟩ := List.mem_iff_getElem.mp fed
  -- the link's entry lies inside its source, which ends where the next link's data starts
  have inRoutes : y < feeds[j].2 := by
    have entryIn : feeds[j].1.routes.getD node [] ∈ feeds[j].1.routes ∨
        feeds[j].1.routes.getD node [] = [] := by
      rw [List.getD_eq_getElem?_getD]
      cases h : feeds[j].1.routes[node]? with
      | none => exact .inr rfl
      | some row => exact .inl (List.mem_of_getElem? h)
    rcases entryIn with entryIn | empty
    · exact laid.inside _ (List.getElem_mem below) _ entryIn y routed
    · rw [empty] at routed
      simp at routed
  have before := laid.offsets j below
  have ends : ((feeds.take (j + 1)).map (·.2)).sum ≤ (feeds.map (·.2)).sum := by
    exact ((List.take_sublist _ _).map _).sum_le_sum (fun _ _ => Nat.zero_le _)
  rw [List.take_add_one, List.map_append, List.sum_append, List.getElem?_eq_getElem below] at ends
  simp only [Option.toList_some, List.map_cons, List.map_nil, List.sum_cons, List.sum_nil] at ends
  rw [laid.count]
  omega

end Input

namespace Input

/-- An input without its bytes: what a layout reads of it. -/
def frame (i : Input) : Input := { i with data := { i.data with backing := .unset } }

variable {i : Input}

@[simp] theorem frame_links : i.frame.links = i.links := rfl
@[simp] theorem frame_regionLevel : i.frame.regionLevel = i.regionLevel := rfl
@[simp] theorem frame_splitterMap : i.frame.splitterMap = i.splitterMap := rfl
@[simp] theorem frame_count : i.frame.data.count = i.data.count := rfl
@[simp] theorem frame_elementType : i.frame.data.elementType = i.data.elementType := rfl

end Input

namespace Output

/-- An output without its bytes: what a layout reads of it. -/
def frame (o : Output) : Output := { o with data := { o.data with backing := .unset } }

variable {o : Output}

@[simp] theorem frame_regionLevel : o.frame.regionLevel = o.regionLevel := rfl
@[simp] theorem frame_count : o.frame.data.count = o.data.count := rfl
@[simp] theorem frame_elementType : o.frame.data.elementType = o.data.elementType := rfl

end Output

namespace Region

/-- The nodes of a port of the region: one when region-level, else the region's. -/
def portNodes (r : Region) (regionLevel : Bool) : Nat := if regionLevel then 1 else r.nodeCount

/--
An output sized for region `r` under key `k`: the elements per node the region reports for the
key on each of the port's nodes, in bytes of the output's own, exactly as many as those elements
take.
-/
structure Sized (r : Region) (k : String) (o : Output) : Prop where
  count : ∃ perNode, r.elementCount k = .ok perNode ∧ o.data.count = r.portNodes o.regionLevel * perNode
  owned : ∃ bytes, o.data.backing = .owned bytes ∧ bytes.size = o.data.count * o.data.elementType.size

/--
A region laid out in network `n`: initialized, with dimensions whose nodes a word numbers, every
output sized, every input laid out over the links feeding it, and ports under one key alike but
for their bytes.
-/
structure LaidOut (n : Network) (r : Region) : Prop where
  initialized : r.initialized = true
  specified : r.dims.isSpecified = true
  counted : r.dims.product < wordSize
  outputs : ∀ p ∈ r.outputs.entries, r.Sized p.1 p.2
  inputs : ∀ p ∈ r.inputs.entries,
    ∃ feeds, p.2.links.mapM n.feed = some feeds ∧ p.2.Layout (r.portNodes p.2.regionLevel) feeds
  inputsAlike : ∀ p ∈ r.inputs.entries, ∀ q ∈ r.inputs.entries, p.1 = q.1 → p.2.frame = q.2.frame
  outputsAlike : ∀ p ∈ r.outputs.entries, ∀ q ∈ r.outputs.entries, p.1 = q.1 →
    p.2.frame = q.2.frame

end Region

/-- A laid-out network: its order holds every region once, and every region is laid out. -/
structure Network.LaidOut (n : Network) : Prop where
  ordered : n.order.Perm n.regions.names
  regions : ∀ r ∈ n.regions.items, r.LaidOut n

/-!
## Frames
-/

/-- Entries that agree on keys and on `f` give lookups that agree on `f`. -/
theorem Collection.find?_map_of_map_eq
    {α β : Type}
    {c d : Collection α}
    {f : α → β}
    (same : c.entries.map (fun e => (e.1, f e.2)) = d.entries.map (fun e => (e.1, f e.2)))
    (k : String) :
    (c.find? k).map f = (d.find? k).map f := by
  have searched := congrArg (fun l => (l.find? (·.1 == k)).map (·.2)) same
  simpa [Collection.find?, List.find?_map, Function.comp_def, Option.map_map] using searched

namespace Region

/-- What a layout reads of a region: its dimensions, whether it is initialized, its ports without
their bytes, and the elements per node it reports for each output. -/
def frame (r : Region) :
    Dimensions × Bool × List (String × Input) × List (String × Output × Except EngineError Nat) :=
  (r.dims, r.initialized, r.inputs.entries.map (fun e => (e.1, e.2.frame)),
    r.outputs.entries.map (fun e => (e.1, e.2.frame, r.elementCount e.1)))

variable {r r' : Region}

/-- Regions with one frame have the same dimensions, initialization and ports but for bytes, and
report the same elements per node. -/
theorem frame_parts (same : r'.frame = r.frame) :
    r'.dims = r.dims ∧ r'.initialized = r.initialized ∧
      r'.inputs.entries.map (fun e => (e.1, e.2.frame)) =
        r.inputs.entries.map (fun e => (e.1, e.2.frame)) ∧
      r'.outputs.entries.map (fun e => (e.1, e.2.frame, r'.elementCount e.1)) =
        r.outputs.entries.map (fun e => (e.1, e.2.frame, r.elementCount e.1)) := by
  simpa only [frame, Prod.mk.injEq] using same

theorem dims_of_frame (same : r'.frame = r.frame) : r'.dims = r.dims := (frame_parts same).1

theorem portNodes_of_frame (same : r'.frame = r.frame) : r'.portNodes = r.portNodes := by
  funext regionLevel
  simp [portNodes, nodeCount, dims_of_frame same]

theorem inputs_of_frame (same : r'.frame = r.frame) :
    r'.inputs.entries.map (fun e => (e.1, e.2.frame)) = r.inputs.entries.map (fun e => (e.1, e.2.frame)) :=
  (frame_parts same).2.2.1

/-- Regions with one frame hold outputs with one frame under each key. -/
theorem outputs_of_frame (same : r'.frame = r.frame) :
    r'.outputs.entries.map (fun e => (e.1, e.2.frame)) =
      r.outputs.entries.map (fun e => (e.1, e.2.frame)) := by
  simpa [List.map_map, Function.comp_def] using
    congrArg (List.map fun t => (t.1, t.2.1)) (frame_parts same).2.2.2

/-- An output entry of a region has a partner in a region with the same frame: same key, frame and
elements per node. -/
theorem mem_outputs_of_frame
    (same : r'.frame = r.frame)
    {p : String × Output}
    (member : p ∈ r'.outputs.entries) :
    ∃ q ∈ r.outputs.entries, q.1 = p.1 ∧ q.2.frame = p.2.frame ∧ r.elementCount q.1 = r'.elementCount p.1 := by
  have image : (p.1, p.2.frame, r'.elementCount p.1) ∈
      r.outputs.entries.map (fun e => (e.1, e.2.frame, r.elementCount e.1)) :=
    (frame_parts same).2.2.2 ▸ List.mem_map_of_mem member
  obtain ⟨q, present, agree⟩ := List.mem_map.mp image
  simp only [Prod.mk.injEq] at agree
  exact ⟨q, present, agree.1, agree.2.1, agree.2.2⟩

end Region

namespace Input

variable {i i' : Input} {nodes : Nat} {feeds : List (Link × Nat)}

/-- A layout reads only an input's frame. -/
theorem Layout.of_frame (laid : i.Layout nodes feeds) (same : i'.frame = i.frame) :
    i'.Layout nodes feeds := by
  have count : i'.data.count = i.data.count := by simpa using congrArg (·.data.count) same
  have type : i'.data.elementType = i.data.elementType := by
    simpa using congrArg (·.data.elementType) same
  have map : i'.splitterMap = i.splitterMap := by simpa using congrArg (·.splitterMap) same
  exact ⟨laid.routes, laid.inside, laid.offsets, count ▸ laid.count, by rw [count, type]; exact laid.fits,
    map ▸ laid.map⟩

end Input

namespace Network

/-- What a layout reads of a network: its regions' frames under their names, its links and its
order. -/
def frame (n : Network) :=
  (n.regions.entries.map (fun e => (e.1, e.2.frame)), n.links, n.order)

variable {m n : Network}

/-- Networks with one frame have regions with one frame under each name, the same links and the
same order. -/
theorem frame_parts (same : m.frame = n.frame) :
    m.regions.entries.map (fun e => (e.1, e.2.frame)) =
        n.regions.entries.map (fun e => (e.1, e.2.frame)) ∧
      m.links = n.links ∧ m.order = n.order := by
  simpa only [frame, Prod.mk.injEq] using same

/-- Networks with one frame feed their links alike. -/
theorem feed_of_frame (same : m.frame = n.frame) : m.feed = n.feed := by
  funext id
  have links : m.links = n.links := (frame_parts same).2.1
  have regions := Collection.find?_map_of_map_eq (frame_parts same).1
  cases found : n.links.find? (·.id == id) with
  | none => simp [feed, links, found]
  | some l =>
      have srcs := regions l.endpoints.srcRegion
      cases srcFound : n.regions.find? l.endpoints.srcRegion with
      | none =>
          rw [srcFound, Option.map_none, Option.map_eq_none_iff] at srcs
          simp [feed, links, found, srcFound, srcs]
      | some src =>
          rw [srcFound, Option.map_some, Option.map_eq_some_iff] at srcs
          obtain ⟨src', srcFound', sameFrame⟩ := srcs
          -- the two source regions hold outputs with one frame under each key
          have outs := Collection.find?_map_of_map_eq (Region.outputs_of_frame sameFrame)
            l.endpoints.srcOutput
          cases outputFound : src.outputs.find? l.endpoints.srcOutput with
          | none =>
              rw [outputFound, Option.map_none, Option.map_eq_none_iff] at outs
              simp [feed, links, found, srcFound, srcFound', outputFound, outs]
          | some o =>
              rw [outputFound, Option.map_some, Option.map_eq_some_iff] at outs
              obtain ⟨o', outputFound', sameOutput⟩ := outs
              have count : o'.data.count = o.data.count := by
                simpa using congrArg (·.data.count) sameOutput
              simp [feed, links, found, srcFound, srcFound', outputFound, outputFound', count]

end Network

namespace Region

variable {m n : Network} {r r' : Region}

/-- A region with the frame of one laid out in a network with the same feeds is laid out, when its
outputs hold their bytes. -/
theorem LaidOut.of_frame
    (laid : r.LaidOut n)
    (feeds : m.feed = n.feed)
    (same : r'.frame = r.frame)
    (owned : ∀ p ∈ r'.outputs.entries,
      ∃ bytes, p.2.data.backing = .owned bytes ∧ bytes.size = p.2.data.count * p.2.data.elementType.size) :
    r'.LaidOut m where
  initialized := (frame_parts same).2.1 ▸ laid.initialized
  specified := dims_of_frame same ▸ laid.specified
  counted := dims_of_frame same ▸ laid.counted
  outputs := by
    intro p member
    obtain ⟨q, present, key, sameFrame, counted⟩ := mem_outputs_of_frame same member
    obtain ⟨perNode, reported, sized⟩ := (laid.outputs q present).count
    have count : p.2.data.count = q.2.data.count := by simpa using congrArg (·.data.count) sameFrame.symm
    have level : p.2.regionLevel = q.2.regionLevel := by
      simpa using congrArg (·.regionLevel) sameFrame.symm
    refine ⟨⟨perNode, counted ▸ reported, ?_⟩, owned p member⟩
    rw [count, level, portNodes_of_frame same]
    exact sized
  inputs := by
    intro p member
    obtain ⟨q, present, key, sameFrame⟩ := Collection.mem_of_map_eq (inputs_of_frame same) member
    obtain ⟨fs, fed, layout⟩ := laid.inputs q present
    have links : p.2.links = q.2.links := by simpa using congrArg (·.links) sameFrame.symm
    have level : p.2.regionLevel = q.2.regionLevel := by
      simpa using congrArg (·.regionLevel) sameFrame.symm
    refine ⟨fs, by rw [links, feeds]; exact fed, ?_⟩
    rw [level, portNodes_of_frame same]
    exact layout.of_frame sameFrame.symm
  inputsAlike := by
    intro p member p' member' key
    obtain ⟨q, present, qKey, qFrame⟩ := Collection.mem_of_map_eq (inputs_of_frame same) member
    obtain ⟨q', present', qKey', qFrame'⟩ := Collection.mem_of_map_eq (inputs_of_frame same) member'
    rw [← qFrame, ← qFrame']
    exact laid.inputsAlike q present q' present' (by rw [qKey, qKey', key])
  outputsAlike := by
    intro p member p' member' key
    obtain ⟨q, present, qKey, qFrame, -⟩ := mem_outputs_of_frame same member
    obtain ⟨q', present', qKey', qFrame', -⟩ := mem_outputs_of_frame same member'
    rw [← qFrame, ← qFrame']
    exact laid.outputsAlike q present q' present' (by rw [qKey, qKey', key])

end Region

/-- A network with the frame of a laid-out one is laid out, when its outputs hold their bytes. -/
theorem Network.LaidOut.of_frame
    {m n : Network}
    (laid : n.LaidOut)
    (same : m.frame = n.frame)
    (owned : ∀ r ∈ m.regions.items, ∀ p ∈ r.outputs.entries,
      ∃ bytes, p.2.data.backing = .owned bytes ∧ bytes.size = p.2.data.count * p.2.data.elementType.size) :
    m.LaidOut where
  ordered := by
    have names : m.regions.names = n.regions.names := by
      simpa [Collection.names, List.map_map, Function.comp_def] using
        congrArg (List.map (·.1)) (frame_parts same).1
    rw [names, (frame_parts same).2.2]
    exact laid.ordered
  regions := by
    intro r member
    obtain ⟨e, stored, rfl⟩ := List.mem_map.mp member
    obtain ⟨e', stored', -, sameFrame⟩ := Collection.mem_of_map_eq (frame_parts same).1 stored
    exact (laid.regions e'.2 (List.mem_map_of_mem stored')).of_frame (feed_of_frame same)
      sameFrame.symm (owned e.2 member)

end RegionNet
