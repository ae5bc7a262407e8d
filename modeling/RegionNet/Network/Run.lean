import RegionNet.Network.Layout

namespace RegionNet.Op

/-!
# Running a network

A run makes a number of iterations; an uninitialized network is initialized first. In each
iteration the count of completed iterations goes up, then the phases are gone through from the
lowest to the highest enabled one, and in each phase the regions that run in it compute,
producers first. Before a region computes, each of its inputs takes a fresh copy of the data of
the outputs feeding it, each at its link's offset. A region that fails stops the run with an
error that names it and the iteration. After a complete iteration the network is `ready` and
every callback is run with the iteration's number.
-/

/-- A fresh copy of the outputs feeding an input, each at its link's offset. -/
def consolidate (i : Input) : Op Buffer := do
  let n ← network
  let mut merged ← lift (liftData ((Buffer.new i.data.elementType).allocate i.data.count))
  for id in i.links do
    let some l := n.links.find? (·.id == id)
      | throw (.notFound s!"{linkName id} feeding input '{i.name}'")
    let src ← lift (liftData (n.regions.get l.endpoints.srcRegion))
    let o ← lift (src.output l.endpoints.srcOutput)
    merged ← lift (liftData (merged.copyFromAt l.offset o.data))
  return merged

/-- Give a region's inputs their data, then let it compute. -/
def computeRegion (name : String) : Op Unit := do
  let r ← region name
  let merged ← r.inputs.items.mapM fun i => do pure (i.name, ← consolidate i)
  for (inputName, data) in merged do
    let r ← region name
    let i ← lift (r.input inputName)
    putRegion (r.setInput (← lift (i.setData data)))
  putRegion (← lift (← region name).compute)

/-- The phases an iteration goes through: those some region runs in, within the enabled range. -/
def activePhases (n : Network) : List Nat :=
  let (lo, hi) := n.enabledPhases
  (phaseSet (n.regions.items.flatMap (·.phases))).filter fun p => lo ≤ p && p ≤ hi

/-- One iteration over the regions in `order`. -/
def iterate (order : List String) : Op Unit := do
  modifyNetwork fun n => { n with iteration := n.iteration + 1 }
  let n ← network
  let iteration := n.iteration
  for phase in activePhases n do
    for name in order do
      if (← region name).phases.contains phase then
        tryCatch (computeRegion name) fun e => throw (.runFailed name iteration e)
  setState .ready
  let names := (← network).callbacks.names
  modify fun s => { s with calls := s.calls ++ names.map fun c => (c, iteration) }

/-- Run `count` iterations, initializing first when needed. -/
def run (count : Nat) : Op Unit := do
  match (← network).state with
  | .unconfigured | .dimensionsPropagated => setUp
  | _ => pure ()
  let order := (← network).order
  for _ in [0:count] do
    iterate order

/-- Turn profiling on in every region. -/
def enableProfiling : Op Unit := eachRegion fun r => { r with profiling := true }

/-- Turn profiling off in every region. -/
def disableProfiling : Op Unit := eachRegion fun r => { r with profiling := false }

/-- Forget every region's counters. -/
def resetProfiling : Op Unit := eachRegion Region.resetProfiling

end RegionNet.Op
