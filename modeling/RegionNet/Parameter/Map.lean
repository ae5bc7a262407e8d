import RegionNet.Parameter.Value
import RegionNet.Json.Reader
import RegionNet.Text.Blank

namespace RegionNet

/-!
# Parameter maps

The parameters of a region, read from a JSON object text against the region type's declared
parameters. Every supplied name must be declared and settable; every declared parameter takes
the supplied value or its default, and one without a default must be supplied. The values are
kept in declaration order.
-/

/-- The parameter values of a region, in declaration order. -/
structure ParameterMap where
  values : Collection ParameterValue := .empty
  deriving Repr

/-- The members of a parameter text; a blank text has none. -/
def parameterMembers (params typeName : String) : Except EngineError (List (String × Json)) :=
  if (Text.trimBlanks params).isEmpty then .ok []
  else match Json.parse params with
    | .error e =>
      let shown := e.message
      .error (.invalidParameter s!"parameters for '{typeName}' are not valid JSON: {shown}")
    | .ok (.object members) => .ok members
    | .ok other =>
      let shown := other.render
      .error (.invalidParameter s!"parameters for '{typeName}' must be a JSON object, got {shown}")

namespace ParameterMap

/-- Check that a supplied name is declared and may be set. -/
def checkSupplied (spec : RegionSpec) (typeName key : String) : Except EngineError Unit :=
  match spec.parameters.find? key with
  | none => .error (.invalidParameter s!"unknown parameter '{key}' for region type '{typeName}'")
  | some p =>
    if p.access == .readOnly then
      .error (.invalidParameter s!"parameter '{key}' of region type '{typeName}' is read-only")
    else .ok ()

/-- The JSON value of a declared parameter: supplied, or its default. -/
def suppliedOrDefault (supplied : List (String × Json)) (typeName name : String)
    (p : ParameterSpec) : Except EngineError Json :=
  match supplied.lookup name with
  | some v => .ok v
  | none =>
    if p.defaultValue.isEmpty then
      .error (.invalidParameter s!"missing required parameter '{name}' for region type '{typeName}'")
    else match Json.parse p.defaultValue with
      | .ok v => .ok v
      | .error e =>
        let shown := e.message
        .error (.invalidParameter s!"default for '{name}' is not valid JSON: {shown}")

/-- Read the parameters of a region of a type from a JSON object text. -/
def ofText (params : String) (spec : RegionSpec) (typeName : String) :
    Except EngineError ParameterMap := do
  let supplied ← parameterMembers params typeName
  for (key, _) in supplied do
    checkSupplied spec typeName key
  let mut values : Collection ParameterValue := .empty
  for (name, p) in spec.parameters.entries do
    let j ← suppliedOrDefault supplied typeName name p
    let v ← ParameterValue.ofJson j p name
    values ← liftData (values.add name v)
  return { values }

/-- The value of a parameter. -/
def get (m : ParameterMap) (name : String) : Except EngineError ParameterValue :=
  match m.values.find? name with
  | some v => .ok v
  | none => .error (.invalidParameter s!"no parameter '{name}'")

/-- The number of parameters. -/
def size (m : ParameterMap) : Nat := m.values.count

/-- Whether there are no parameters. -/
def isEmpty (m : ParameterMap) : Bool := m.values.isEmpty

end ParameterMap

end RegionNet
