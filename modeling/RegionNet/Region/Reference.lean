import RegionNet.Region.Port
import RegionNet.Bundle.Record
import RegionNet.Bundle.Stream
import RegionNet.Parameter.Map
import RegionNet.Decimal.Nearest

namespace RegionNet.Reference

/-!
# The reference region

A deterministic region type that exercises links, runs and checkpoints. It reads input
`bottomUpIn` and writes output `bottomUpOut`, `perNode` doubles per node (two unless a restored
state says otherwise). In each step, node `n` with inputs `x` writes

```text
out[0] = length x + iteration
out[i] = n + sum x + (i - 1) · delta      (i ≥ 1)
```

and then the iteration count goes up by one. It keeps one parameter of each scalar type, two
arrays and a text, all readable and writable, and the iteration count, readable only. Command
`setDelta v` replaces `delta` and answers its previous value.

Its saved state is two streams: `main`, a fixed-width record of the whole state that starts with
the text `TestNode-v1`, and `aux`, a fixed line of text.
-/

/-- The name the type is registered under. -/
def typeName : String := "TestNode"

/-- The text a saved state starts with. -/
def cookie : String := "TestNode-v1"

/-- The whole of the auxiliary stream. -/
def auxText : String := "This is an auxiliary stream\n"

/-- The input read. -/
def inputName : String := "bottomUpIn"

/-- The output written. -/
def outputName : String := "bottomUpOut"

/-- The state of a reference region. -/
structure State where
  cookie : String
  int32Param : Int
  uint32Param : Nat
  int64Param : Int
  uint64Param : Nat
  real32Param : Binary32
  real64Param : Binary64
  stringParam : String
  real32ArrayParam : List Binary32
  int64ArrayParam : List Int
  /-- Elements written per node. -/
  perNode : Nat
  delta : Binary64
  iteration : Nat
  deriving DecidableEq, Repr

/-- A scalar read-write parameter. -/
def scalar (description : String) (t : ElementType) (count : Nat) (default : String) :
    ParameterSpec :=
  { description, dataType := t, count, defaultValue := default }

/-- The declaration of the type. -/
def spec : RegionSpec where
  description := "Deterministic test region"
  parameters := ⟨[
    ("int32Param", scalar "Int32 scalar parameter" .int32 1 "32"),
    ("uint32Param", scalar "UInt32 scalar parameter" .uint32 1 "33"),
    ("int64Param", scalar "Int64 scalar parameter" .int64 1 "64"),
    ("uint64Param", scalar "UInt64 scalar parameter" .uint64 1 "65"),
    ("real32Param", scalar "Real32 scalar parameter" .real32 1 "32.1"),
    ("real64Param", scalar "Real64 scalar parameter" .real64 1 "64.1"),
    ("real32ArrayParam", scalar "Real32 array parameter" .real32 0 "[]"),
    ("int64ArrayParam", scalar "Int64 array parameter" .int64 0 "[]"),
    ("stringParam", scalar "String parameter" .byte 0 "\"nodespec value\""),
    ("iteration", { scalar "Completed compute steps" .uint64 1 "0" with access := .readOnly })]⟩
  inputs := ⟨[(inputName,
    { description := "Primary input for the node", dataType := .real64, isDefault := true })]⟩
  outputs := ⟨[(outputName,
    { description := "Primary output for the node", dataType := .real64, isDefault := true })]⟩
  commands := ⟨[("setDelta",
    { description := "setDelta <value>: replace delta, returns the previous value" })]⟩

/-- A value narrowed to a range, or the error naming the parameter. -/
def narrow (n lo hi : Int) (name : String) : Except EngineError Int :=
  if lo ≤ n && n ≤ hi then .ok n else .error (.invalidParameter s!"'{name}' is out of range")

/-- The double of an element read as a double. -/
def Element.double? : Element → Binary64
  | .double x => x
  | .single x => x.toBinary64
  | .integer n => Binary64.ofInt n

/-- The single of an element read as a single. -/
def Element.single? : Element → Binary32
  | .single x => x
  | .double x => x.toBinary32
  | .integer n => (Binary64.ofInt n).toBinary32

/-- The integer of an element read as an integer. -/
def Element.integer? : Element → Int
  | .integer n => n
  | _ => 0

/-- The value of an array parameter, read as type `t`. -/
def arrayOf (params : ParameterMap) (name : String) (t : ElementType) :
    Except EngineError (List Element) := do
  let b ← (← params.get name).asArray
  liftData (b.read t)

/-- The state a region starts with, from its parameters; empty arrays take their defaults. -/
def create (params : ParameterMap) : Except EngineError State := do
  let r32 ← arrayOf params "real32ArrayParam" .real32
  let i64 ← arrayOf params "int64ArrayParam" .int64
  let int32 ← narrow (← (← params.get "int32Param").asInt64) (-(pow2 31 : Int)) ((pow2 31 : Int) - 1) "int32Param"
  let uint32 ← narrow (← (← params.get "uint32Param").asUInt64) 0 ((pow2 32 : Int) - 1) "uint32Param"
  return {
    cookie
    int32Param := int32
    uint32Param := uint32.toNat
    int64Param := ← (← params.get "int64Param").asInt64
    uint64Param := ← (← params.get "uint64Param").asUInt64
    real32Param := (← (← params.get "real32Param").asDouble).toBinary32
    real64Param := ← (← params.get "real64Param").asDouble
    stringParam := ← (← params.get "stringParam").asText
    real32ArrayParam := if r32.isEmpty then (List.range 8).map fun i => Binary32.ofRatio false (i * 32) 1
      else r32.map Element.single?
    int64ArrayParam := if i64.isEmpty then (List.range 4).map fun i => ((i * 64 : Nat) : Int)
      else i64.map Element.integer?
    perNode := 2
    delta := Binary64.ofNat 1
    iteration := 0 }

/-- Counts wrap at 2^64. -/
def wrap (n : Nat) : Nat := n % wordSize

/-- The elements one node writes, from the doubles it reads. -/
def nodeOutput (s : State) (node : Nat) (xs : List Binary64) : List Binary64 :=
  let sum := xs.foldl (· + ·) Binary64.zero
  let base := Binary64.ofNat node + sum
  let first := Binary64.ofNat (wrap (xs.length + s.iteration))
  let rest := (List.range (s.perNode - 1)).map fun k => base + Binary64.ofNat k * s.delta
  if s.perNode = 0 then [] else first :: rest

/-- One step: every node's elements are written to the output, then the iteration count goes
up. The output must hold exactly the elements written. -/
def compute (s : State) (io : RegionIo) : Except EngineError (State × RegionIo) := do
  let input ← io.input inputName
  let rows ← (List.range io.nodeCount).mapM fun node => do
    let xs ← input.nodeInput node .real64
    pure (nodeOutput s node (xs.map Element.double?))
  let values := rows.flatten
  let output ← io.output outputName
  let held ← liftData (output.data.writableCount .real64)
  if held ≠ values.length then
    throw (.compute s!"TestNode '{io.regionName}' output holds {held} elements, expected {values.length}")
  let io ← io.writeOutput outputName (values.map .double)
  return ({ s with iteration := wrap (s.iteration + 1) }, io)

/-- Elements per node of an output. -/
def elementCount (s : State) (output : String) : Except EngineError Nat :=
  if output = outputName then .ok s.perNode
  else .error (.notFound s!"TestNode output '{output}'")

/-- The value of a parameter. -/
def get (s : State) (name : String) : Except EngineError ParameterValue :=
  match name with
  | "int32Param" => .ok (.integer .int32 s.int32Param)
  | "uint32Param" => .ok (.integer .uint32 s.uint32Param)
  | "int64Param" => .ok (.integer .int64 s.int64Param)
  | "uint64Param" => .ok (.integer .uint64 s.uint64Param)
  | "real32Param" => .ok (.real32 s.real32Param)
  | "real64Param" => .ok (.real64 s.real64Param)
  | "stringParam" => .ok (.text s.stringParam)
  | "real32ArrayParam" => .ok (.array (Buffer.ofElements .real32 (s.real32ArrayParam.map .single)))
  | "int64ArrayParam" => .ok (.array (Buffer.ofElements .int64 (s.int64ArrayParam.map .integer)))
  | "iteration" => .ok (.integer .uint64 s.iteration)
  | _ => .error (.notFound s!"TestNode parameter '{name}'")

/-- Set a parameter to a value of its own kind. -/
def set (s : State) (name : String) (v : ParameterValue) : Except EngineError State :=
  match name, v with
  | "int32Param", .integer .int32 n => .ok { s with int32Param := n }
  | "uint32Param", .integer .uint32 n => .ok { s with uint32Param := n.toNat }
  | "int64Param", .integer .int64 n => .ok { s with int64Param := n }
  | "uint64Param", .integer .uint64 n => .ok { s with uint64Param := n.toNat }
  | "real32Param", .real32 x => .ok { s with real32Param := x }
  | "real64Param", .real64 x => .ok { s with real64Param := x }
  | "stringParam", .text t => .ok { s with stringParam := t }
  | "real32ArrayParam", .array b => do
    let xs ← liftData (b.read .real32)
    pure { s with real32ArrayParam := xs.map Element.single? }
  | "int64ArrayParam", .array b => do
    let xs ← liftData (b.read .int64)
    pure { s with int64ArrayParam := xs.map Element.integer? }
  | _, v => .error (.invalidParameter s!"TestNode cannot set '{name}' to {v.describe}")

/-- A list of texts as messages show it: `["a", "b"]`. -/
def textList (args : List String) : String :=
  "[" ++ ", ".intercalate (args.map Text.quoted) ++ "]"

/-- Run a command: `setDelta v` replaces delta by the double `v` and answers the previous
delta as a plain number. -/
def command (s : State) (args : List String) : Except EngineError (State × String) :=
  match args with
  | ["setDelta", v] =>
    match Decimal.readFloat? v with
    | some d => .ok ({ s with delta := d }, Decimal.write64 Decimal.Layout.plain s.delta)
    | none => .error (.invalidParameter s!"setDelta: bad value '{v}'")
  | _ => .error (.invalidParameter s!"TestNode command {textList args} not understood")

/-- The main stream: the state as a fixed-width record. -/
def encode (s : State) : Bytes :=
  Record.text s.cookie ++ Record.signed 4 s.int32Param ++ Record.word 4 s.uint32Param ++
    Record.signed 8 s.int64Param ++ Record.word 8 s.uint64Param ++
    Record.word 4 s.real32Param.bits.toNat ++ Record.word 8 s.real64Param.bits.toNat ++
    Record.text s.stringParam ++
    Record.sequence (fun x => Record.word 4 x.bits.toNat) s.real32ArrayParam ++
    Record.sequence (Record.signed 8) s.int64ArrayParam ++
    Record.word 8 s.perNode ++ Record.word 8 s.delta.bits.toNat ++ Record.word 8 s.iteration

/-- Read the main stream's record. -/
def decode : Record.Decoder State := do
  let cookie ← Record.readText
  let int32Param ← Record.readSigned 4
  let uint32Param ← Record.readWord 4
  let int64Param ← Record.readSigned 8
  let uint64Param ← Record.readWord 8
  let real32Param : Binary32 := ⟨(← Record.readWord 4).toUInt32⟩
  let real64Param : Binary64 := ⟨(← Record.readWord 8).toUInt64⟩
  let stringParam ← Record.readText
  let real32ArrayParam ← Record.readSequence do
    let w ← Record.readWord 4
    pure (⟨w.toUInt32⟩ : Binary32)
  let int64ArrayParam ← Record.readSequence (Record.readSigned 8)
  let perNode ← Record.readWord 8
  let delta : Binary64 := ⟨(← Record.readWord 8).toUInt64⟩
  let iteration ← Record.readWord 8
  return ⟨cookie, int32Param, uint32Param, int64Param, uint64Param, real32Param, real64Param,
    stringParam, real32ArrayParam, int64ArrayParam, perNode, delta, iteration⟩

/-- The streams of a saved state, in the order they are written. -/
def streams (s : State) : List (String × Bytes) :=
  [("main", encode s), ("aux", Bytes.ofString auxText)]

/-- Restore a state from its streams, opened by `openStream`. -/
def restore (openStream : String → Except EngineError Bundle.Contents) (regionName : String) :
    Except EngineError State := do
  let main ← openStream "main"
  let s ← match decode.decode main with
    | .ok s => pure s
    | .error e => throw (.serialization e.message)
  if s.cookie ≠ cookie then
    throw (.badCheckpoint
      s!"main stream of TestNode region '{regionName}' starts with '{s.cookie}', expected '{cookie}'")
  let aux ← openStream "aux"
  let text ← match aux with
    | .error e => throw (.io e.message)
    | .ok bytes => match Bytes.toString? bytes with
      | some t => pure t
      | none => throw (.io Files.IoError.invalidUtf8.message)
  if text ≠ auxText then
    throw (.badCheckpoint s!"invalid aux stream for TestNode region '{regionName}'")
  return s

end RegionNet.Reference
