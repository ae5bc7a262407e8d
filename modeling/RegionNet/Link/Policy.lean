import RegionNet.Link.Uniform

namespace RegionNet.Link

/-!
# Link policies

A link policy decides which source elements each destination node of a link receives. It is
told the dimensions of both ends (one end can be worked out from the other) and the number of
elements per source node; once prepared it gives the splitter map. Any change of dimensions
or element count requires preparing again.

Two kinds exist: uniform links (see `UniformParams`) and a halving link, whose destination has
half as many nodes as the source along every axis and gathers two source nodes per axis.
-/

/-- The kind of a link policy, with its parameters. -/
inductive PolicyKind where
  /-- Uniform receptive fields. -/
  | uniform (params : UniformParams)
  /-- Every axis halved. -/
  | halving
  deriving DecidableEq, Repr

/-- The name of the halving policy. -/
def halvingName : String := "TestFanIn2"

/-- The name of a policy kind. -/
def PolicyKind.name : PolicyKind → String
  | .uniform _ => uniformName
  | .halving => halvingName

/-- A link policy with the dimensions and element count it was told. -/
structure LinkPolicy where
  kind : PolicyKind
  src : Dimensions := .unspecified
  dest : Dimensions := .unspecified
  elementCount : Nat := 1
  /-- The axis ratios found when it was last prepared. -/
  ratios : List AxisRatio := []
  /-- Whether the policy was prepared since it was last changed. -/
  ready : Bool := false
  deriving DecidableEq, Repr

namespace LinkPolicy

/-- The name of the policy's kind. -/
def typeName (p : LinkPolicy) : String := p.kind.name

/-- A halving policy; it takes no parameters but a blank text or `{}`. -/
def halving (params : String) : Except EngineError LinkPolicy :=
  let trimmed := Text.trimBlanks params
  if !trimmed.isEmpty && trimmed != "\x7b\x7d" then
    throw (.invalidLinkPolicy s!"{halvingName} takes no parameters, got {params}")
  else pure { kind := .halving }

/-- A uniform policy from its parameter text. -/
def uniform (params : String) : Except EngineError LinkPolicy := do
  return { kind := .uniform (← UniformParams.parse params) }

/-- Set the source dimensions; when the destination's are not known, work them out. -/
def setSource (p : LinkPolicy) (dims : Dimensions) : LinkPolicy × Except EngineError Unit :=
  let p := { p with src := dims, ready := false }
  if dims.isSpecified && !p.dest.isSpecified then
    match p.kind with
    | .uniform params =>
      match params.induce dims true with
      | .ok dest => ({ p with dest }, .ok ())
      | .error e => (p, .error e)
    | .halving =>
      if dims.axes.any (· % 2 != 0) then
        (p, .error (.incompatibleDimensions s!"{halvingName} cannot halve {dims}"))
      else ({ p with dest := ⟨dims.axes.map (· / 2)⟩ }, .ok ())
  else (p, .ok ())

/-- Set the destination dimensions; when the source's are not known, work them out. -/
def setDestination (p : LinkPolicy) (dims : Dimensions) : LinkPolicy × Except EngineError Unit :=
  let p := { p with dest := dims, ready := false }
  if dims.isSpecified && !p.src.isSpecified then
    match p.kind with
    | .uniform params =>
      match params.induce dims false with
      | .ok src => ({ p with src }, .ok ())
      | .error e => (p, .error e)
    | .halving =>
      -- doubling each axis is word arithmetic that panics on overflow
      match liftData (dims.axes.mapM fun d => mulOrPanic 64 d 2) with
      | .ok axes => ({ p with src := ⟨axes⟩ }, .ok ())
      | .error e => (p, .error e)
  else (p, .ok ())

/-- Set the number of elements each source node contributes. -/
def setElementCount (p : LinkPolicy) (count : Nat) : LinkPolicy :=
  { p with elementCount := count, ready := false }

/-- Whether each source axis is twice its destination axis, pair by pair up to the first that is
not; the doubling is word arithmetic that panics on overflow. -/
def halvesAll : List Nat → List Nat → Except DataError Bool
  | s :: ss, d :: ds => do
    if s == (← mulOrPanic 64 2 d) then halvesAll ss ds else pure false
  | _, _ => pure true

/-- Check that both ends are known and fit together, and find the axis ratios. -/
def prepare (p : LinkPolicy) : Except EngineError LinkPolicy := do
  if !p.src.isSpecified || !p.dest.isSpecified then
    throw (.dimensionsUnresolvable s!"{p.typeName} needs both sides, have {p.src} -> {p.dest}")
  let (src, dest) := commonRank p.src p.dest
  match p.kind with
  | .uniform params =>
    if p.elementCount = 0 then
      throw (.invalidState s!"{uniformName} element count per node is zero")
    let rank := src.rank
    let ratios ← (List.range rank).mapM fun axis => do
      let s := src.axes.getD axis 0
      let d := dest.axes.getD axis 0
      match ← params.axisRatio axis rank s d with
      | some r => pure r
      | none =>
        throw (.incompatibleDimensions
          s!"{p.src} -> {p.dest}: axis {axis} sizes {s} and {d} do not fit the receptive field layout")
    return { p with ratios, ready := true }
  | .halving =>
    if ← liftData (halvesAll src.axes dest.axes) then
      return { p with ready := true }
    else
      throw (.incompatibleDimensions
        s!"{halvingName} requires source = 2 x destination, have {p.src} -> {p.dest}")

/-- The splitter map of a prepared policy. -/
def splitterMap (p : LinkPolicy) : Except EngineError (List (List Nat)) := do
  if !p.ready then
    throw (.invalidState s!"{p.typeName} splitter map requested before initialize")
  let (src, dest) := commonRank p.src p.dest
  let ratios := match p.kind with
    | .uniform _ => p.ratios
    | .halving => List.replicate src.rank (.fanIn 2)
  Link.splitterMap src dest ratios p.elementCount

end LinkPolicy

/-- The policy kinds that are always known, by name. -/
inductive BuiltinPolicy where
  | uniform
  | halving
  deriving DecidableEq, Repr

namespace BuiltinPolicy

/-- The name a built-in policy is known by. -/
def name : BuiltinPolicy → String
  | .uniform => uniformName
  | .halving => halvingName

/-- The built-in policy of a name. -/
def ofName? (name : String) : Option BuiltinPolicy :=
  [BuiltinPolicy.uniform, .halving].find? (·.name == name)

/-- Make a policy of this kind from a parameter text. -/
def create : BuiltinPolicy → String → Except EngineError LinkPolicy
  | .uniform, params => LinkPolicy.uniform params
  | .halving, params => LinkPolicy.halving params

end BuiltinPolicy

/-- Policy names registered in addition to the built-in ones, each for a built-in kind. -/
structure PolicyRegistry where
  registered : List (String × BuiltinPolicy) := []
  deriving DecidableEq, Repr

namespace PolicyRegistry

/-- Register a name; built-in and registered names cannot be taken again. -/
def register (r : PolicyRegistry) (name : String) (kind : BuiltinPolicy) :
    Except EngineError PolicyRegistry :=
  if (BuiltinPolicy.ofName? name).isSome || (r.registered.lookup name).isSome then
    throw (.duplicateName s!"link policy '{name}'")
  else pure { registered := r.registered ++ [(name, kind)] }

/-- The policy kind a name stands for. -/
def constructor (r : PolicyRegistry) (name : String) : Except EngineError BuiltinPolicy :=
  match BuiltinPolicy.ofName? name with
  | some b => pure b
  | none =>
    match r.registered.lookup name with
    | some b => pure b
    | none => throw (.invalidLinkPolicy s!"unknown link policy type '{name}'")

/-- Make a policy of a named kind from a parameter text. -/
def create (r : PolicyRegistry) (name params : String) : Except EngineError LinkPolicy := do
  (← r.constructor name).create params

end PolicyRegistry

end RegionNet.Link
