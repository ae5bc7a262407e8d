import RegionNet.Buffer
import RegionNet.Collection
import RegionNet.Dimensions
import RegionNet.Error

namespace RegionNet

/-!
# Inputs and outputs of a region

An output holds the data its region produced, for all nodes one after the other, and the
numbers of the links it feeds. An input holds the links that feed it, in the order they were
made, and, once laid out, the merged data of their sources and its splitter map: for each node,
the positions in the merged data that the node reads. Removing a link from an input forgets
its layout.
-/

/-- An output of a region. -/
structure Output where
  name : String
  regionLevel : Bool
  data : Buffer
  links : List Nat := []
  deriving DecidableEq, Repr

namespace Output

/-- A fresh output with no data and no links. -/
def new (name : String) (t : ElementType) (regionLevel : Bool) : Output :=
  { name, regionLevel, data := Buffer.new t }

/-- Record a link fed by this output, once. -/
def addLink (o : Output) (id : Nat) : Output :=
  if o.links.contains id then o else { o with links := o.links ++ [id] }

/-- Forget a link. -/
def removeLink (o : Output) (id : Nat) : Output := { o with links := o.links.filter (· != id) }

/-- Give the output `count` zero elements, dropping what it held. -/
def allocate (o : Output) (count : Nat) : Except DataError Output := do
  return { o with data := ← o.data.release.allocate count }

/-- Drop the output's data. -/
def teardown (o : Output) : Output := { o with data := o.data.release }

end Output

/-- An input of a region. -/
structure Input where
  name : String
  regionLevel : Bool
  required : Bool
  links : List Nat := []
  data : Buffer
  splitterMap : List (List Nat) := []
  initialized : Bool := false
  deriving DecidableEq, Repr

namespace Input

/-- A fresh input with no links and no layout. -/
def new (name : String) (t : ElementType) (regionLevel required : Bool) : Input :=
  { name, regionLevel, required, data := Buffer.new t }

/-- Record a link feeding this input, once. -/
def addLink (i : Input) (id : Nat) : Input :=
  if i.links.contains id then i else { i with links := i.links ++ [id] }

/-- Forget the layout: no data, no splitter map. -/
def teardown (i : Input) : Input :=
  { i with data := i.data.release, splitterMap := [], initialized := false }

/-- Forget a link, and with it the layout. -/
def removeLink (i : Input) (id : Nat) : Input :=
  ({ i with links := i.links.filter (· != id) }).teardown

/-- Take merged data of the laid-out type and size. -/
def setData (i : Input) (b : Buffer) : Except EngineError Input :=
  if b.elementType ≠ i.data.elementType || b.count ≠ i.data.count then
    .error (.invalidState s!"consolidated buffer for input '{i.name}' does not match its layout")
  else .ok { i with data := b }

/-- The elements a node reads, read as type `t`, in splitter map order. -/
def nodeInput (i : Input) (node : Nat) (t : ElementType) : Except EngineError (List Element) := do
  let some positions := i.splitterMap[node]?
    | throw (.outOfRange s!"node {node} of input '{i.name}' ({i.splitterMap.length} nodes)")
  let values ← liftData (i.data.read t)
  positions.mapM fun e =>
    match values[e]? with
    | some v => pure v
    | none => throw (.outOfRange s!"element {e} of input '{i.name}'")

end Input

/-- What a region's implementation sees in one step: the region's name and dimensions, its
inputs, and its outputs to write. -/
structure RegionIo where
  regionName : String
  dims : Dimensions
  inputs : Collection Input
  outputs : Collection Output

namespace RegionIo

/-- The number of nodes. -/
def nodeCount (io : RegionIo) : Nat := io.dims.count

/-- An input by name. -/
def input (io : RegionIo) (name : String) : Except EngineError Input :=
  match io.inputs.find? name with
  | some i => .ok i
  | none => .error (.notFound s!"input '{name}' on region '{io.regionName}'")

/-- An output by name. -/
def output (io : RegionIo) (name : String) : Except EngineError Output :=
  match io.outputs.find? name with
  | some o => .ok o
  | none => .error (.notFound s!"output '{name}' on region '{io.regionName}'")

/-- Replace an output's data by elements of its type; the output must own its storage. -/
def writeOutput (io : RegionIo) (name : String) (xs : List Element) : Except EngineError RegionIo := do
  let o ← io.output name
  let _ ← liftData (o.data.writableCount o.data.elementType)
  let data := { o.data with backing := .owned (Element.writeAll o.data.elementType xs) }
  return { io with outputs := ⟨io.outputs.entries.map fun (k, v) =>
    if k == name then (k, { v with data }) else (k, v)⟩ }

end RegionIo

end RegionNet
