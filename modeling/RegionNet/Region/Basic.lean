import RegionNet.Region.Kind

namespace RegionNet

/-!
# Regions

A region is a named node of a network. It runs one implementation, has the inputs and outputs
its type declares, and has dimensions: the shape of its grid of nodes, given explicitly,
induced through a link, or not known yet. A single-node type starts with the dimensions `[1]`
and refuses any others. A region runs in a set of phases.

Before a region computes, its outputs are sized (elements per node from the declaration, or
from the implementation when the declaration leaves it open, times the node count; a region
level output is not multiplied) and it is initialized. Parameters and commands are checked
against the declaration before the implementation sees them. While profiling is on, successful
computations and all commands are counted.
-/

/-- Where a region's dimensions came from. -/
inductive DimensionSource where
  | unset
  | explicit
  /-- Induced through the link shown. -/
  | induced (link : String)
  deriving DecidableEq, Repr

/-- A set of phases, kept sorted without repeats. -/
def phaseSet (xs : List Nat) : List Nat := (xs.mergeSort fun a b => decide (a ≤ b)).eraseDups

/-- A region of a network. -/
structure Region where
  name : String
  typeName : String
  spec : RegionSpec
  impl : Implementation
  inputs : Collection Input
  outputs : Collection Output
  dims : Dimensions
  source : DimensionSource
  phases : List Nat := []
  initialized : Bool := false
  profiling : Bool := false
  computeCalls : Nat := 0
  executeCalls : Nat := 0
  /-- The module the type came from, if not a built-in. -/
  module : Option String := none

namespace Region

/-- A fresh region of a declared type running an implementation. -/
def new (name typeName : String) (spec : RegionSpec) (impl : Implementation)
    (module : Option String) : Region :=
  let inputs : Collection Input := ⟨spec.inputs.entries.map fun (n, i) =>
    (n, Input.new n i.dataType i.regionLevel i.required)⟩
  let outputs : Collection Output := ⟨spec.outputs.entries.map fun (n, o) =>
    (n, Output.new n o.dataType o.regionLevel)⟩
  let (dims, source) : Dimensions × DimensionSource :=
    if spec.singleNodeOnly then (⟨[1]⟩, .explicit) else (.unspecified, .unset)
  { name, typeName, spec, impl, inputs, outputs, dims, source, module }

/-- The number of nodes. -/
def nodeCount (r : Region) : Nat := r.dims.count

/-- Where the dimensions came from, in words. -/
def dimensionInfo (r : Region) : String :=
  match r.source with
  | .unset => "not set"
  | .explicit => s!"{r.dims} (specified explicitly)"
  | .induced link => s!"{r.dims} (inferred from {link})"

/-- Set the dimensions; a single-node type takes no other count than one. -/
def setDimensions (r : Region) (dims : Dimensions) (source : DimensionSource) :
    Except EngineError Region :=
  if r.spec.singleNodeOnly && dims.isSpecified && dims.count ≠ 1 then
    .error (.incompatibleDimensions
      s!"region '{r.name}' of type '{r.typeName}' only supports a single node, got {dims}")
  else .ok { r with dims, source }

/-- An input by name. -/
def input (r : Region) (name : String) : Except EngineError Input :=
  match r.inputs.find? name with
  | some i => .ok i
  | none => .error (.notFound s!"input '{name}' on region '{r.name}'")

/-- An output by name. -/
def output (r : Region) (name : String) : Except EngineError Output :=
  match r.outputs.find? name with
  | some o => .ok o
  | none => .error (.notFound s!"output '{name}' on region '{r.name}'")

/-- Replace an input. -/
def setInput (r : Region) (i : Input) : Region :=
  { r with inputs := ⟨r.inputs.entries.map fun (n, x) => if n == i.name then (n, i) else (n, x)⟩ }

/-- Replace an output. -/
def setOutput (r : Region) (o : Output) : Region :=
  { r with outputs := ⟨r.outputs.entries.map fun (n, x) => if n == o.name then (n, o) else (n, x)⟩ }

/-- Whether some output feeds a link. -/
def hasOutgoingLinks (r : Region) : Bool := r.outputs.items.any fun o => !o.links.isEmpty

/-- The number of links the outputs feed. -/
def outgoingLinkCount (r : Region) : Nat := (r.outputs.items.map fun o => o.links.length).foldl (· + ·) 0

/-- Elements per node of an output: the declared count, else the implementation's, which must
not be zero. -/
def elementCount (r : Region) (output : String) : Except EngineError Nat := do
  let some o := r.spec.outputs.find? output
    | throw (.notFound s!"output '{output}' on region '{r.name}'")
  if o.count > 0 then return o.count
  let n ← r.impl.elementCount output
  if n = 0 then
    throw (.invalidState s!"region '{r.name}' reports zero elements per node for output '{output}'")
  return n

/-- Size one output for `nodes` nodes; a failed allocation leaves the output empty. -/
def sizeOutput (r : Region) (nodes : Nat) (name : String) : Region × Except EngineError Unit :=
  match r.elementCount name, r.output name with
  | .error e, _ | _, .error e => (r, .error e)
  | .ok perNode, .ok o =>
    let count? : Except DataError Nat :=
      if o.regionLevel then .ok perNode
      else match checkedMul perNode nodes with
        | some c => .ok c
        | none => .error (.tooLarge nodes perNode)
    match count? with
    | .error e => (r, .error (.data e))
    | .ok count =>
      let released := o.teardown
      match released.allocate count with
      | .ok o' => (r.setOutput o', .ok ())
      | .error e => (r.setOutput released, .error (.data e))

/-- Size every output in order; a failure keeps the outputs sized before it. -/
def sizeOutputs (r : Region) : Region × Except EngineError Unit :=
  if !r.dims.isSpecified then
    (r, .error (.dimensionsUnresolvable s!"region '{r.name}' has no dimensions"))
  else match r.dims.checkedCount with
    | .error e => (r, .error (.data e))
    | .ok nodes =>
      r.outputs.names.foldl (fun (acc : Region × Except EngineError Unit) name =>
        match acc with
        | (r, .ok ()) => r.sizeOutput nodes name
        | failed => failed) (r, .ok ())

/-- Mark the region ready to compute. -/
def init (r : Region) : Region := { r with initialized := true }

/-- Drop every input's and output's data. -/
def teardown (r : Region) : Region :=
  let inputs : Collection Input := ⟨r.inputs.entries.map fun (n, i) => (n, i.teardown)⟩
  let outputs : Collection Output := ⟨r.outputs.entries.map fun (n, o) => (n, o.teardown)⟩
  { r with inputs, outputs, initialized := false }

/-- One computation; counted when profiling and successful. -/
def compute (r : Region) : Except EngineError Region := do
  if !r.initialized then throw (.invalidState s!"region '{r.name}' computed before init")
  let (impl, io) ← r.impl.compute ⟨r.name, r.dims, r.inputs, r.outputs⟩
  let computeCalls := if r.profiling then r.computeCalls + 1 else r.computeCalls
  return { r with impl, outputs := io.outputs, computeCalls }

/-- The declaration of a parameter, which must exist. -/
def parameterSpec (r : Region) (name : String) : Except EngineError ParameterSpec :=
  match r.spec.parameters.find? name with
  | some p => .ok p
  | none => .error (.invalidParameter s!"unknown parameter '{name}' on region '{r.name}'")

/-- The value of a declared parameter. -/
def getParameter (r : Region) (name : String) : Except EngineError ParameterValue := do
  let _ ← r.parameterSpec name
  r.impl.get name

/-- The value of an array parameter, as a read-only view. -/
def getParameterArray (r : Region) (name : String) : Except EngineError ArrayView := do
  match ← r.getParameter name with
  | .array b => return ArrayView.ofBuffer b
  | _ => throw (.invalidParameter s!"parameter '{name}' on region '{r.name}' is not an array")

/-- Set a declared, writable parameter to a value that fits its declaration. -/
def setParameter (r : Region) (name : String) (v : ParameterValue) : Except EngineError Region := do
  let p ← r.parameterSpec name
  if p.access ≠ .readWrite then
    throw (.invalidParameter s!"parameter '{name}' on region '{r.name}' is not writable")
  if !v.fits p then
    throw (.invalidParameter
      s!"parameter '{name}' on region '{r.name}' expects {p.dataType.name}, got {v.elementType.name}")
  return { r with impl := ← r.impl.set name v }

/-- Run a declared command; counted when profiling, whether it succeeds or not. -/
def executeCommand (r : Region) (args : List String) : Region × Except EngineError String :=
  match args with
  | [] => (r, .error (.invalidParameter "empty command"))
  | command :: _ =>
    if !r.spec.commands.contains command then
      (r, .error (.invalidParameter s!"region '{r.name}' has no command '{command}'"))
    else
      let r' := if r.profiling then { r with executeCalls := r.executeCalls + 1 } else r
      match r.impl.command args with
      | .ok (impl, answer) => ({ r' with impl }, .ok answer)
      | .error e => (r', .error e)

/-- Forget both counters. -/
def resetProfiling (r : Region) : Region := { r with computeCalls := 0, executeCalls := 0 }

/-- How a set of phases is shown: `{0, 3}`. -/
def phasesText (phases : List Nat) : String :=
  "\x7b" ++ ", ".intercalate (phases.map toString) ++ "\x7d"

/-- The diagnostic text of a region: name, type, dimensions, phases and whether initialized. -/
def debugText (r : Region) : String :=
  let initialized := if r.initialized then "true" else "false"
  "Region \x7b name: " ++ Text.quoted r.name ++ ", type_name: " ++ Text.quoted r.typeName ++
    ", dimensions: Dimensions(" ++ Text.natList r.dims.axes ++ "), phases: " ++
    phasesText r.phases ++ ", initialized: " ++ initialized ++ " \x7d"

end Region

end RegionNet
