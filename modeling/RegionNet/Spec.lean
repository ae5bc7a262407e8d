import RegionNet.Collection
import RegionNet.Error

namespace RegionNet

/-!
# Region specifications

A region type declares its inputs, outputs, parameters and commands, each in a named collection
kept in declaration order. One input and one output may be marked as the default; when none is
marked, a single declared one is the default.
-/

/-- A declared input of a region type. -/
structure InputSpec where
  description : String := ""
  dataType : ElementType
  count : Nat := 0
  required : Bool := false
  regionLevel : Bool := false
  isDefault : Bool := false
  deriving DecidableEq, Repr

/-- A declared output of a region type. -/
structure OutputSpec where
  description : String := ""
  dataType : ElementType
  count : Nat := 0
  regionLevel : Bool := false
  isDefault : Bool := false
  deriving DecidableEq, Repr

/-- When a parameter may be set. -/
inductive ParameterAccess where
  /-- Only when the region is created. -/
  | create
  /-- Never by the caller. -/
  | readOnly
  /-- At creation and later. -/
  | readWrite
  deriving DecidableEq, Repr

namespace ParameterAccess

/-- The name of an access mode. -/
def name : ParameterAccess → String
  | .create => "Create"
  | .readOnly => "ReadOnly"
  | .readWrite => "ReadWrite"

/-- The access mode of a name. -/
def ofName? : String → Option ParameterAccess
  | "Create" => some .create
  | "ReadOnly" => some .readOnly
  | "ReadWrite" => some .readWrite
  | _ => none

end ParameterAccess

/-- A declared parameter: its element type and count (`0` for a string of bytes or an array),
and its default as JSON text (empty when the parameter is required). -/
structure ParameterSpec where
  description : String := ""
  dataType : ElementType
  count : Nat
  constraints : String := ""
  defaultValue : String := ""
  access : ParameterAccess := .readWrite
  deriving DecidableEq, Repr

namespace ParameterSpec

/-- A byte parameter of count `0` holds a string. -/
def isString (p : ParameterSpec) : Bool := p.dataType == .byte && p.count == 0

/-- Any other parameter of count `0` holds an array. -/
def isArray (p : ParameterSpec) : Bool := p.count == 0 && !p.isString

end ParameterSpec

/-- A declared command. -/
structure CommandSpec where
  description : String := ""
  deriving DecidableEq, Repr

/-- The declaration of a region type. -/
structure RegionSpec where
  description : String := ""
  singleNodeOnly : Bool := false
  inputs : Collection InputSpec := .empty
  outputs : Collection OutputSpec := .empty
  parameters : Collection ParameterSpec := .empty
  commands : Collection CommandSpec := .empty
  deriving DecidableEq

/-- The default among named entries: the first marked one, else the only one. -/
def defaultName (entries : List (String × Bool)) (kind : String) : Except EngineError String :=
  match entries.find? (·.2) with
  | some (name, _) => .ok name
  | none =>
    match entries with
    | [(name, _)] => .ok name
    | [] => .error (.unknownEndpoint s!"region type has no {kind}")
    | _ => .error (.unknownEndpoint s!"no default {kind} among {entries.length} candidates")

namespace RegionSpec

/-- Declare an input. -/
def addInput (s : RegionSpec) (name : String) (i : InputSpec) : Except EngineError RegionSpec :=
  liftData ((s.inputs.add name i).map fun c => { s with inputs := c })

/-- Declare an output. -/
def addOutput (s : RegionSpec) (name : String) (o : OutputSpec) : Except EngineError RegionSpec :=
  liftData ((s.outputs.add name o).map fun c => { s with outputs := c })

/-- Declare a parameter. -/
def addParameter (s : RegionSpec) (name : String) (p : ParameterSpec) :
    Except EngineError RegionSpec :=
  liftData ((s.parameters.add name p).map fun c => { s with parameters := c })

/-- Declare a command. -/
def addCommand (s : RegionSpec) (name : String) (c : CommandSpec) : Except EngineError RegionSpec :=
  liftData ((s.commands.add name c).map fun cs => { s with commands := cs })

/-- The default input's name. -/
def defaultInput (s : RegionSpec) : Except EngineError String :=
  defaultName (s.inputs.entries.map fun (n, i) => (n, i.isDefault)) "input"

/-- The default output's name. -/
def defaultOutput (s : RegionSpec) : Except EngineError String :=
  defaultName (s.outputs.entries.map fun (n, o) => (n, o.isDefault)) "output"

end RegionSpec

end RegionNet
