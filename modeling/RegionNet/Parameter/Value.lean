import RegionNet.Spec
import RegionNet.Buffer
import RegionNet.Json
import RegionNet.Text.Quoted

namespace RegionNet

/-!
# Parameter values

A parameter holds an integer of an integer type (or a handle), a single or double, a string, or
an array of elements in a buffer. Values read from JSON are checked against the parameter's
declaration: integers must lie in their type's range, reals accept any number (a single is the
nearest single to the number's double), a string parameter takes a JSON string, an array
parameter a JSON array whose every item converts.

Accessors convert between kinds where no information is lost; a refusal names the value as
`Type(value)`.
-/

/-- The value of a parameter. -/
inductive ParameterValue where
  /-- An integer of an integer type or a handle. -/
  | integer (t : ElementType) (n : Int)
  /-- A single-precision real. -/
  | real32 (x : Binary32)
  /-- A double-precision real. -/
  | real64 (x : Binary64)
  /-- A string (a byte parameter of count zero). -/
  | text (s : String)
  /-- An array of elements. -/
  | array (b : Buffer)
  deriving DecidableEq, Repr

namespace ParameterValue

/-- The element type of a value; a string is made of bytes. -/
def elementType : ParameterValue → ElementType
  | .integer t _ => t
  | .real32 _ => .real32
  | .real64 _ => .real64
  | .text _ => .byte
  | .array b => b.elementType

/-- Whether a value fits a parameter declaration. -/
def fits (v : ParameterValue) (spec : ParameterSpec) : Bool :=
  match v with
  | .text _ => spec.isString
  | .array b => spec.isArray && b.elementType == spec.dataType
  | v => spec.count == 1 && v.elementType == spec.dataType

/-- How messages show a value: its kind and contents, as in `Int32(-3)` or `String("a")`. -/
def describe : ParameterValue → String
  | .integer t n => s!"{t.name}({n})"
  | .real32 x => "Real32(" ++ Decimal.write32 Decimal.Layout.debug x ++ ")"
  | .real64 x => "Real64(" ++ Decimal.write64 Decimal.Layout.debug x ++ ")"
  | .text s => "String(" ++ Text.quoted s ++ ")"
  | .array b => s!"Array({b.elementType.name} x {b.count})"

/-- The refusal of an accessor. -/
def wrongKind (v : ParameterValue) (expected : String) : EngineError :=
  .invalidParameter s!"{v.describe} is not {expected}"

/-- The value as a signed 64-bit integer. -/
def asInt64 (v : ParameterValue) : Except EngineError Int :=
  match v with
  | .integer _ n => if n ≤ int64Max then .ok n else .error (v.wrongKind "an integer")
  | _ => .error (v.wrongKind "an integer")

/-- The value as an unsigned 64-bit integer. -/
def asUInt64 (v : ParameterValue) : Except EngineError Nat :=
  match v with
  | .integer .uint64 n | .integer .handle n => .ok n.toNat
  | _ => do
    let n ← v.asInt64
    if n < 0 then throw (v.wrongKind "a non-negative integer") else pure n.toNat

/-- The value as a double; integers are rounded to the nearest double. -/
def asDouble (v : ParameterValue) : Except EngineError Binary64 :=
  match v with
  | .real32 x => .ok x.toBinary64
  | .real64 x => .ok x
  | _ => v.asInt64.map Binary64.ofInt

/-- The value as a string. -/
def asText (v : ParameterValue) : Except EngineError String :=
  match v with
  | .text s => .ok s
  | _ => .error (v.wrongKind "a string")

/-- The value as an array. -/
def asArray (v : ParameterValue) : Except EngineError Buffer :=
  match v with
  | .array b => .ok b
  | _ => .error (v.wrongKind "an array")

/-- A JSON integer within the range of an integer type. -/
def integerOfJson (t : ElementType) (j : Json) : Option Int :=
  match j with
  | .number (.nat n) => if (n : Int) ≤ t.intMax then some n else none
  | .number (.negative n) => if t.intMin ≤ n then some n else none
  | _ => none

/-- A JSON number as a double. -/
def doubleOfJson : Json → Option Binary64
  | .number n => some n.toBinary64
  | _ => none

/-- One element of type `t` from JSON. -/
def elementOfJson (t : ElementType) (j : Json) : Option Element :=
  match t with
  | .real32 => (doubleOfJson j).map fun x => .single x.toBinary32
  | .real64 => (doubleOfJson j).map .double
  | t => (integerOfJson t j).map .integer

/-- A single value of type `t` from JSON. -/
def scalarOfJson (t : ElementType) (j : Json) : Option ParameterValue :=
  match t with
  | .real32 => (doubleOfJson j).map fun x => .real32 x.toBinary32
  | .real64 => (doubleOfJson j).map .real64
  | t => (integerOfJson t j).map (.integer t)

/-- The value of a declared parameter from JSON. -/
def ofJson (j : Json) (spec : ParameterSpec) (name : String) : Except EngineError ParameterValue :=
  let suffix := if spec.isArray then " array" else ""
  let shown := j.render
  let mismatch : EngineError :=
    .invalidParameter s!"'{name}' expects {spec.dataType.name}{suffix}, got {shown}"
  let result : Option ParameterValue :=
    if spec.isString then j.str?.map .text
    else if spec.isArray then do
      let items ← j.arr?
      let xs ← items.mapM (elementOfJson spec.dataType)
      some (.array (Buffer.ofElements spec.dataType xs))
    else scalarOfJson spec.dataType j
  match result with
  | some v => .ok v
  | none => .error mismatch

end ParameterValue

end RegionNet
