import RegionNet.Region.Port
import RegionNet.Bundle.Record
import RegionNet.Bundle.Stream
import RegionNet.Spec

namespace RegionNet.Probe

/-!
# Probe regions

Small region types that reach what the reference region cannot: a single-node region, region
level ports, an output whose implementation reports no elements, declared parameters and
commands that the implementation does not serve, a region that cannot be saved, and one that
fails while running.

All probes count their steps. In a step a probe sums the data of its inputs `in`, `regionIn`
and `nodeIn` (those it has) and writes element `k` of each of its outputs `out`, `regionOut`
and `intOut` as `sum + k + iteration` (doubles) or `k + iteration` (integers). What else a
probe does is chosen by the name of its type:

* `ProbeCmd` writes `out[k] = length of the region name + 100 · rank + k`;
* `Unwritable` refuses to be saved;
* `Failing` fails every step after its first.

A probe saves its step count as eight little-endian bytes in stream `main`.
-/

/-- The behaviour of a probe, chosen by its type name. -/
inductive Role where
  | plain
  | command
  | unwritable
  | failing
  deriving DecidableEq, Repr

/-- The role of a probe of a type name. -/
def Role.ofTypeName : String → Role
  | "ProbeCmd" => .command
  | "Unwritable" => .unwritable
  | "Failing" => .failing
  | _ => .plain

/-- A single-node probe with one input and one output. -/
def singleSpec : RegionSpec where
  description := "single node probe"
  singleNodeOnly := true
  inputs := ⟨[("in", { dataType := .real64, isDefault := true })]⟩
  outputs := ⟨[("out", { dataType := .real64, count := 1, isDefault := true })]⟩

/-- A probe with region-level and node-level ports, none of them a default. -/
def regionSpec : RegionSpec where
  description := "region level probe"
  inputs := ⟨[("regionIn", { dataType := .real64, regionLevel := true, required := true }),
    ("nodeIn", { dataType := .real64 })]⟩
  outputs := ⟨[("regionOut", { dataType := .real64, count := 3, regionLevel := true }),
    ("intOut", { dataType := .int32, count := 1 })]⟩

/-- A probe whose output size is left to the implementation. -/
def zeroSpec : RegionSpec where
  description := "zero element probe"
  outputs := ⟨[("out", { dataType := .real64, isDefault := true })]⟩

/-- A probe that declares a parameter and a command it does not serve. -/
def commandSpec : RegionSpec where
  description := "probe declaring what it does not implement"
  outputs := ⟨[("out", { dataType := .real64, count := 1, isDefault := true })]⟩
  parameters := ⟨[("gain", { dataType := .int32, count := 1, defaultValue := "1" })]⟩
  commands := ⟨[("poke", {})]⟩

/-- The inputs a probe sums, in order. -/
def inputNames : List String := ["in", "regionIn", "nodeIn"]

/-- The outputs a probe writes. -/
def outputNames : List String := ["out", "regionOut", "intOut"]

/-- The sum of the data of the inputs a region has. -/
def inputSum (io : RegionIo) : Except EngineError Binary64 :=
  inputNames.foldlM (fun acc name =>
    match io.inputs.find? name with
    | none => pure acc
    | some i => do
      let xs ← liftData (i.data.read .real64)
      pure (xs.foldl (fun a x => match x with
        | .double d => a + d
        | _ => a) acc)) Binary64.zero

/-- Element `k` of an output of type `t`. -/
def element (t : ElementType) (sum : Binary64) (iteration k : Nat) : Element :=
  if t = .real64 then .double (sum + Binary64.ofNat k + Binary64.ofNat iteration)
  else .integer (k + iteration)

/-- Write every element of an output by a rule. -/
def fill (io : RegionIo) (name : String) (f : ElementType → Nat → Element) :
    Except EngineError RegionIo :=
  match io.outputs.find? name with
  | none => pure io
  | some o => io.writeOutput name ((List.range o.data.count).map (f o.data.elementType))

/-- One step of a probe with `iteration` steps behind it; the new count and the outputs. -/
def compute (role : Role) (iteration : Nat) (io : RegionIo) : Except EngineError (Nat × RegionIo) := do
  if role = .failing && iteration ≥ 1 then
    throw (.compute s!"boom after {iteration} steps")
  let io ← if role = .command then
      fill io "out" fun _ k => .double (Binary64.ofNat (io.regionName.length + 100 * io.dims.rank + k))
    else do
      let sum ← inputSum io
      outputNames.foldlM (fun io name => fill io name fun t k => element t sum iteration k) io
  return (iteration + 1, io)

/-- The streams of a saved probe; an unwritable probe refuses. -/
def streams (role : Role) (iteration : Nat) : Except EngineError (List (String × Bytes)) :=
  if role = .unwritable then .error (.compute "device full")
  else .ok [("main", Record.word 8 iteration)]

/-- Restore a probe's step count from stream `main`, opened by `openStream`. -/
def restore (openStream : String → Except EngineError Bundle.Contents) : Except EngineError Nat := do
  match ← openStream "main" with
  | .error e => throw (.io e.message)
  | .ok bytes =>
    if bytes.size < 8 then throw (.io Files.IoError.unexpectedEnd.message)
    return Bytes.readLittleEndian bytes 0 8

end RegionNet.Probe
