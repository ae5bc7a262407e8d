import RegionNet.Network.Basic

namespace RegionNet.Op

/-!
# Changing a network's topology

Adding and removing regions and links, setting dimensions and phases. Every change of topology
sends the network back to `unconfigured`: buffers are dropped, induced dimensions and link
routing are forgotten.

A region name must be non-empty and hold no `/` or `\`. A link joins an output to an input of
the same element type; an empty port name stands for the region type's default port, and two
links may not join the same ports. A region cannot be removed while it feeds a link; the links
into it go with it. The highest phase a region is given may lie at most `maxPhaseJump` past the
next unused phase.
-/

/-- Refuse an empty region name or one with a path separator. -/
def validateRegionName (name : String) : Op Unit :=
  if name.isEmpty || name.contains '/' || name.contains '\\' then
    throw (.invalidName s!"region name '{name}'")
  else pure ()

/-- Forget what depends on the topology: data, induced dimensions, routing and the order. -/
def resetTopology : Op Unit :=
  modifyNetwork fun n =>
    let forget (r : Region) : Region :=
      let r := r.teardown
      match r.source with
      | .induced _ => { r with dims := .unspecified, source := .unset }
      | _ => r
    { n with regions := ⟨n.regions.entries.map fun (k, r) => (k, forget r)⟩,
             links := n.links.map Link.reset, order := [], state := .unconfigured }

/-- Add a region to the end of the network. -/
def addRegionValue (r : Region) : Op Unit :=
  modifyNetwork fun n => { n with regions := ⟨n.regions.entries ++ [(r.name, r)]⟩ }

/-- Refuse a region name that is taken. -/
def checkNewRegion (name : String) : Op Unit := do
  validateRegionName name
  if (← network).regions.contains name then throw (.duplicateName s!"region '{name}'")

/-- Add a region of a type, built from a parameter text; it runs in phase 0. -/
def addRegion (name typeName params : String) : Op Unit := do
  checkNewRegion name
  let made ← stepFactory ((← get).host.factory.create typeName params)
  addRegionValue { Region.new name typeName made.spec made.impl made.module with phases := [0] }
  resetTopology

/-- Add a region restored from the streams a region of that name left in a bundle under a
label, with explicit dimensions; it runs in phase 0. -/
def addRegionFromBundle (name typeName : String) (dims : Dimensions) (path label : String) :
    Op Region := do
  checkNewRegion name
  lift (liftData dims.validate)
  let fs := (← get).files
  if !fs.isDir path then throw (.badCheckpoint s!"{path} is not a bundle directory")
  let streams : Bundle.Streams := { bundlePath := path, label, region := name, mode := .read }
  let made ← stepFactory ((← get).host.factory.restore typeName name (streams.openRead fs))
  let r ← lift ((Region.new name typeName made.spec made.impl made.module).setDimensions dims .explicit)
  addRegionValue { r with phases := [0] }
  resetTopology
  region name

/-- Remove a link from the network and from the ports it joins. -/
def detachLink (id : Nat) : Op Unit := do
  let l ← link id
  modifyNetwork fun n => { n with links := n.links.filter (·.id != id) }
  let n ← network
  if let some r := n.regions.find? l.endpoints.srcRegion then
    let o ← lift (r.output l.endpoints.srcOutput)
    putRegion (r.setOutput (o.removeLink id))
  let n ← network
  if let some r := n.regions.find? l.endpoints.destRegion then
    let i ← lift (r.input l.endpoints.destInput)
    putRegion (r.setInput (i.removeLink id))

/-- Remove a region that feeds no link, with the links into it. -/
def removeRegion (name : String) : Op Unit := do
  let r ← region name
  if r.hasOutgoingLinks then throw (.regionHasOutgoingLinks name r.outgoingLinkCount)
  let incoming := (← network).links.filter (·.endpoints.destRegion == name)
  for l in incoming do
    detachLink l.id
  modifyNetwork fun n => { n with regions := ⟨n.regions.entries.filter (·.1 != name)⟩ }
  resetTopology

/-- Join an output to an input with a policy of a type; the answer is the link's number. -/
def connect (src out dest inp policyType params : String) : Op Nat := do
  let n ← network
  let some srcRegion := n.regions.find? src
    | throw (.unknownEndpoint s!"source region '{src}'")
  let out ← if out.isEmpty then lift srcRegion.spec.defaultOutput else pure out
  let some o := srcRegion.outputs.find? out
    | throw (.unknownEndpoint s!"output '{out}' on region '{src}'")
  let some destRegion := n.regions.find? dest
    | throw (.unknownEndpoint s!"destination region '{dest}'")
  let inp ← if inp.isEmpty then lift destRegion.spec.defaultInput else pure inp
  let some i := destRegion.inputs.find? inp
    | throw (.unknownEndpoint s!"input '{inp}' on region '{dest}'")
  if o.data.elementType ≠ i.data.elementType then
    throw (.data (.typeMismatch i.data.elementType o.data.elementType))
  let e : Endpoints := ⟨src, out, dest, inp⟩
  if n.links.any (·.connects e) then throw (.duplicateName s!"link {e.text}")
  let kind ← lift ((← get).host.policies.constructor policyType)
  let id := n.nextLink
  let l ← lift (Link.new id policyType params kind e)
  modifyNetwork fun n => { n with nextLink := id + 1 }
  let r ← region src
  let o ← lift (r.output out)
  putRegion (r.setOutput (o.addLink id))
  let r ← region dest
  let i ← lift (r.input inp)
  putRegion (r.setInput (i.addLink id))
  modifyNetwork fun n => { n with links := n.links ++ [l] }
  resetTopology
  return id

/-- Remove the link joining two ports; empty port names stand for the defaults. -/
def disconnect (src out dest inp : String) : Op Unit := do
  let out ← if out.isEmpty then do lift (← region src).spec.defaultOutput else pure out
  let inp ← if inp.isEmpty then do lift (← region dest).spec.defaultInput else pure inp
  let e : Endpoints := ⟨src, out, dest, inp⟩
  let some l := (← network).links.find? (·.connects e) | throw e.missing
  detachLink l.id
  resetTopology

/-- Give a region explicit dimensions. -/
def setRegionDimensions (name : String) (dims : Dimensions) : Op Unit := do
  lift (liftData dims.validate)
  let r ← region name
  putRegion (← lift (r.setDimensions dims .explicit))
  resetTopology

/-- The phase after `p`: phases are 32-bit, and the increment panics on overflow. -/
def phaseAfter (p : Nat) : Except DataError Nat := addOrPanic 32 p 1

/-- Give a region the phases it runs in; the highest may lie at most `maxPhaseJump` past the
next unused phase. -/
def setPhases (name : String) (phases : List UInt32) : Op Unit := do
  let ps := phaseSet (phases.map UInt32.toNat)
  let some highest := ps.getLast? | throw (.invalidParameter s!"empty phase set for region '{name}'")
  let next ← match (← network).maxPhase with
    | some p => lift (liftData (phaseAfter p))
    | none => pure 0
  let jump := (← get).host.config.network.maxPhaseJump.toNat
  if highest > next && highest - next > jump then
    throw (.invalidParameter
      s!"phase {highest} for region '{name}' is more than {jump} past the next phase {next}")
  let r ← region name
  putRegion { r with phases := ps }

/-- Set the lowest phase a run goes through. -/
def setMinEnabled (phase : UInt32) : Op Unit :=
  modifyNetwork fun n => { n with minEnabled := some phase.toNat }

/-- Set the highest phase a run goes through. -/
def setMaxEnabled (phase : UInt32) : Op Unit :=
  modifyNetwork fun n => { n with maxEnabled := some phase.toNat }

/-- Run a callback after every iteration; its name must be new. -/
def addCallback (name : String) : Op Unit := do
  let c ← lift (liftData ((← network).callbacks.add name ()))
  modifyNetwork fun n => { n with callbacks := c }

/-- Stop running a callback. -/
def removeCallback (name : String) : Op Unit := do
  let (_, c) ← lift (liftData ((← network).callbacks.remove name))
  modifyNetwork fun n => { n with callbacks := c }

/-- Change every region. -/
def eachRegion (f : Region → Region) : Op Unit :=
  modifyNetwork fun n => { n with regions := ⟨n.regions.entries.map fun (k, r) => (k, f r)⟩ }

/-- Set a region's parameter. -/
def setParameter (name param : String) (v : ParameterValue) : Op Unit := do
  let r ← region name
  putRegion (← lift (r.setParameter param v))

/-- Run a region's command. -/
def executeCommand (name : String) (args : List String) : Op String := do
  let r ← region name
  stepRegion (r.executeCommand args)

end RegionNet.Op
