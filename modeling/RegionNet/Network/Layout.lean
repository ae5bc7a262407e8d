import RegionNet.Network.Topology

namespace RegionNet

/-!
# Ordering regions, propagating dimensions, laying out buffers

Regions are ordered producers first: repeatedly the first region, in the order they were added,
that no unplaced region's link still feeds is placed next; when none is left to place, the
regions not placed form a cycle.

Propagation then works out unknown dimensions. Whenever exactly one end of a link has known
dimensions (a region-level port counts as one node), the link's policy is told that end and
the other end's region takes the dimensions the policy works out, until nothing changes. Every
region must end with dimensions; then every link is told both ends and the source's elements per
node, and builds its splitter map.

Initializing sizes every output, lays out every input (its links one after the other, each at
its offset, with the splitter map shifted accordingly) and initializes every region, producers
first. A required input without links is refused.
-/

namespace Network

/-- Place regions in order: `placed` so far, and the number of links from unplaced producers
into each region. -/
def placeRegions (n : Network) : Nat → List String → List (String × Nat) →
    Except EngineError (List String)
  | 0, placed, _ => .ok placed
  | fuel + 1, placed, degree =>
    let names := n.regions.names
    if placed.length ≥ names.length then .ok placed
    else
      match names.find? fun nm => !placed.contains nm && degree.lookup nm == some 0 with
      | none =>
        let rest := names.filter fun nm => !placed.contains nm
        .error (.dimensionsUnresolvable ("cycle among region(s) " ++ ", ".intercalate rest))
      | some next =>
        let fed := (n.links.filter (·.endpoints.srcRegion == next)).map (·.endpoints.destRegion)
        let degree := degree.map fun (nm, d) => (nm, d - fed.count nm)
        placeRegions n fuel (placed ++ [next]) degree

/-- The regions, producers before consumers, or the cycle that prevents such an order. -/
def sortedOrder (n : Network) : Except EngineError (List String) :=
  let degree := n.regions.names.map fun nm =>
    (nm, (n.links.filter (·.endpoints.destRegion == nm)).length)
  n.placeRegions (n.regions.count + 1) [] degree

end Network

/-- The dimensions a link sees at a source port: one node for a region-level output. -/
def sourceDimensions (r : Region) (output : String) : Except EngineError Dimensions := do
  let o ← r.output output
  return if o.regionLevel then Dimensions.ones 1 else r.dims

/-- The dimensions a link sees at a destination port: one node for a region-level input. -/
def destinationDimensions (r : Region) (input : String) : Except EngineError Dimensions := do
  let i ← r.input input
  return if i.regionLevel then Dimensions.ones 1 else r.dims

/-- Shift a splitter map by an offset and append it node by node. -/
def mergeRoutes (acc routes : List (List Nat)) (offset : Nat) : List (List Nat) :=
  (acc.zip routes).map fun (a, r) => a ++ r.map (· + offset)

namespace Op

/-- Let one link induce the dimensions of the region at its unknown end; whether it did. -/
def induceThrough (id : Nat) : Op Bool := do
  let l ← link id
  let src ← region l.endpoints.srcRegion
  let dest ← region l.endpoints.destRegion
  let sd ← lift (sourceDimensions src l.endpoints.srcOutput)
  let dd ← lift (destinationDimensions dest l.endpoints.destInput)
  if sd.isSpecified == dd.isSpecified then return false
  let l := l.reset
  if sd.isSpecified then
    let (p, r) := l.policy.setSource sd
    let l := { l with policy := p }
    stepLink (l, r)
    if !p.dest.isSpecified then return false
    let target ← region l.endpoints.destRegion
    putRegion (← lift (target.setDimensions p.dest (.induced l.display)))
    return true
  else
    let (p, r) := l.policy.setDestination dd
    let l := { l with policy := p }
    stepLink (l, r)
    if !p.src.isSpecified then return false
    let target ← region l.endpoints.srcRegion
    putRegion (← lift (target.setDimensions p.src (.induced l.display)))
    return true

/-- Pass over the links, in order, until no link induces anything. -/
def induceAll : Nat → Op Unit
  | 0 => pure ()
  | fuel + 1 => do
    let ids := (← network).links.map (·.id)
    let changed ← ids.foldlM (fun acc id => do
      let c ← induceThrough id
      pure (acc || c)) false
    if changed then induceAll fuel

/-- Tell a link both ends and the source's elements per node, and build its splitter map. -/
def routeLink (id : Nat) : Op Unit := do
  let l ← link id
  let src ← region l.endpoints.srcRegion
  let dest ← region l.endpoints.destRegion
  let count ← lift (src.elementCount l.endpoints.srcOutput)
  let sd ← lift (sourceDimensions src l.endpoints.srcOutput)
  let dd ← lift (destinationDimensions dest l.endpoints.destInput)
  let l := l.reset
  let p := l.policy.setElementCount count
  let (p, r) := p.setSource sd
  stepLink ({ l with policy := p }, r)
  let (p, r) := p.setDestination dd
  let l := { l with policy := p }
  stepLink (l, r)
  stepLink l.prepare

/-- Order the regions and work out every region's dimensions and every link's routing. -/
def propagate : Op Unit := do
  resetTopology
  let order ← lift (← network).sortedOrder
  modifyNetwork fun n => { n with order }
  induceAll ((← network).regions.count + 1)
  let unresolved := ((← network).regions.items.filter fun r => !r.dims.isSpecified).map (·.name)
  if !unresolved.isEmpty then
    throw (.dimensionsUnresolvable ("no dimensions for region(s) " ++ ", ".intercalate unresolved))
  for l in (← network).links do
    routeLink l.id
  setState .dimensionsPropagated

/-- Lay out one input: its links' data one after the other, and the shifted splitter maps. -/
def layoutInput (regionName inputName : String) (counts : List Nat) : Op Unit := do
  let r ← region regionName
  let i ← lift (r.input inputName)
  let nodes := if i.regionLevel then 1 else r.nodeCount
  let mut routes : List (List Nat) := List.replicate nodes []
  let mut offset := 0
  for (id, count) in i.links.zip counts do
    let some l := (← network).links.find? (·.id == id)
      | throw (.notFound s!"{linkName id} feeding input '{i.name}'")
    if l.routes.length ≠ nodes then
      throw (.incompatibleDimensions
        s!"{l.display} routes to {l.routes.length} nodes, input '{i.name}' has {nodes}")
    putLink { l with offset }
    routes := mergeRoutes routes l.routes offset
    offset := offset + count
  let released := i.data.release
  match released.allocate offset with
  | .error e =>
    putRegion (r.setInput { i with data := released })
    throw (.data e)
  | .ok data => putRegion (r.setInput { i with data, splitterMap := routes, initialized := true })

/-- The sizes of the outputs feeding an input, link by link. -/
def sourceCounts (i : Input) : Op (List Nat) :=
  i.links.mapM fun id => do
    let l ← link id
    let src ← region l.endpoints.srcRegion
    let o ← lift (src.output l.endpoints.srcOutput)
    pure o.data.count

/-- Lay out every input of a region. -/
def layoutInputs (name : String) : Op Unit := do
  let r ← region name
  let layouts ← r.inputs.items.mapM fun i => do pure (i.name, ← sourceCounts i)
  for (inputName, counts) in layouts do
    layoutInput name inputName counts

/-- Refuse a required input without links, region by region. -/
def checkRequiredInputs : Op Unit := do
  for r in (← network).regions.items do
    for i in r.inputs.items do
      if i.required && i.links.isEmpty then
        throw (.invalidState s!"required input '{i.name}' on region '{r.name}' has no links")

/-- Size the outputs, lay out the inputs and initialize the regions, producers first;
propagating first when needed. An initialized network stays as it is. -/
def setUp : Op Unit := do
  match (← network).state with
  | .unconfigured => propagate
  | .dimensionsPropagated => pure ()
  | _ => return
  checkRequiredInputs
  let order := (← network).order
  for name in order do
    stepRegion (← region name).sizeOutputs
  for name in order do
    layoutInputs name
  for name in order do
    putRegion (← region name).init
  setState .initialized

end Op

end RegionNet
