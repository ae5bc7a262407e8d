import RegionNet.Link.Ratio
import RegionNet.Json.Schema
import RegionNet.Text.Blank

namespace RegionNet.Link

/-!
# Uniform receptive fields

The parameters of a uniform link. Without any field layout, axes are joined by whole-number
ratios. With one, every axis carries windows of `rfSize` nodes overlapping by `rfOverlap`,
optionally restarting in spans; with mapping `in` the source is the wide side (each destination
node gathers a window), with `out` the destination is (each source node scatters over one).

A per-axis setting is a list with one entry for all axes or one entry per axis; the lists that
have more than one entry fix the rank of the layout and must agree on it.
-/

/-- Which side of a uniform link carries the windows. -/
inductive Mapping where
  /-- The source is wide: each destination node gathers a window of source nodes. -/
  | inward
  /-- The destination is wide: each source node scatters over a window of destination nodes. -/
  | outward
  deriving DecidableEq, Repr

/-- The parameters of a uniform link. -/
structure UniformParams where
  mapping : Mapping := .inward
  rfSize : Option (List Nat) := none
  rfOverlap : Option (List Nat) := none
  span : Option (List Nat) := none
  strict : Bool := true
  deriving DecidableEq, Repr

/-- The name of a uniform link's policy. -/
def uniformName : String := "UniformLink"

namespace UniformParams

open JsonText in
/-- The shape of the parameter text: a closed record whose every field may be left out. -/
def shape : Shape :=
  let counts : Shape := .optional (.sequence Shape.count)
  .record "UniformParams" [
    ⟨"mapping", [], .choice ["in", "out"], some (.string "in")⟩,
    ⟨"rf_size", ["rfSize"], counts, some .null⟩,
    ⟨"rf_overlap", ["rfOverlap"], counts, some .null⟩,
    ⟨"span", [], counts, some .null⟩,
    ⟨"strict", [], .boolean, some (.bool true)⟩] true

/-- A list of counts read by `shape`. -/
def countsOf (j : Json) : Option (List Nat) :=
  j.arr?.map fun xs => xs.filterMap Json.nat64?

/-- The parameters held by a value read by `shape`. -/
def ofJson (j : Json) : UniformParams where
  mapping := if (j.field? "mapping").bind Json.str? == some "out" then .outward else .inward
  rfSize := (j.field? "rf_size").bind countsOf
  rfOverlap := (j.field? "rf_overlap").bind countsOf
  span := (j.field? "span").bind countsOf
  strict := ((j.field? "strict").bind Json.bool?).getD true

/-- Whether no field layout is given, so that axes are joined by ratios. -/
def isRatioOnly (p : UniformParams) : Bool :=
  p.rfSize.isNone && p.rfOverlap.isNone && p.span.isNone && p.strict

/-- The per-axis settings with their names. -/
def perAxis (p : UniformParams) : List (String × Option (List Nat)) :=
  [("rf_size", p.rfSize), ("rf_overlap", p.rfOverlap), ("span", p.span)]

/-- The rank fixed by the settings with more than one entry, if any. -/
def rank (p : UniformParams) : Except EngineError (Option Nat) :=
  p.perAxis.foldlM (fun rank (name, values) =>
    match values with
    | none => pure rank
    | some [] => throw (.invalidLinkPolicy s!"{uniformName} {name} must not be empty")
    | some [_] => pure rank
    | some vs =>
      match rank with
      | some r =>
        if r ≠ vs.length then
          throw (.invalidLinkPolicy
            s!"{uniformName} parameters disagree on dimensionality: {name} has {vs.length} entries, expected {r}")
        else pure (some vs.length)
      | none => pure (some vs.length)) none

end UniformParams

/-- The value of a per-axis setting on `axis` of a layout of `rank` axes. -/
def axisValue (values : Option (List Nat)) (fallback axis rank : Nat) : Except EngineError Nat :=
  match values with
  | none => pure fallback
  | some [v] => pure v
  | some vs =>
    if vs.length = rank then pure (vs.getD axis 0)
    else
      let shown := Text.natList vs
      throw (.incompatibleDimensions s!"per-axis parameter {shown} does not match rank {rank}")

namespace UniformParams

/-- The first problem of one axis's field layout, if any. -/
def axisProblem (size overlap span : Nat) : Option String :=
  if size = 0 then some "rf_size must be positive"
  else if overlap = size then
    some s!"rf_overlap {overlap} equals rf_size; full overlap is not a uniform mapping"
  else if overlap > size then some s!"rf_overlap {overlap} exceeds rf_size {size}"
  else if span ≠ 0 && span < size then some s!"span {span} is shorter than rf_size {size}"
  else none

/-- Check the field layout of every axis. -/
def validate (p : UniformParams) : Except EngineError Unit := do
  let rank := (← p.rank).getD 1
  for axis in List.range rank do
    let size ← axisValue p.rfSize 1 axis rank
    let overlap ← axisValue p.rfOverlap 0 axis rank
    let span ← axisValue p.span 0 axis rank
    if let some problem := axisProblem size overlap span then
      throw (.invalidLinkPolicy s!"{uniformName} axis {axis}: {problem}")

/-- Read and check a parameter text; a blank text gives the defaults. -/
def parse (text : String) : Except EngineError UniformParams := do
  let params ←
    if (Text.trimBlanks text).isEmpty then pure {}
    else match shape.read text with
      | .ok j => pure (ofJson j)
      | .error e =>
        let shown := e.message
        throw (.invalidLinkPolicy s!"{uniformName} parameters: {shown}")
  params.validate
  return params

/-- The windows along `axis` of a layout of `rank` axes. -/
def windowFor (p : UniformParams) (axis rank : Nat) : Except EngineError Window := do
  let size ← axisValue p.rfSize 1 axis rank
  let overlap ← axisValue p.rfOverlap 0 axis rank
  let span ← axisValue p.span 0 axis rank
  return { size, stride := size - overlap, span, strict := p.strict }

/-- The dimensions of the other side, worked out from `known`; `towardDest` when `known` are
the source's. -/
def induce (p : UniformParams) (known : Dimensions) (towardDest : Bool) :
    Except EngineError Dimensions := do
  let rank := known.rank
  let knownIsWide := (p.mapping == .inward) == towardDest
  let axes ← (List.range rank).zip known.axes |>.mapM fun (axis, d) => do
    let w ← p.windowFor axis rank
    let induced := if knownIsWide then w.windowsOver d else w.wideFor d
    match induced with
    | some n => pure n
    | none =>
      let spans := if w.span = 0 then "" else s!" in spans of {w.span}"
      throw (.incompatibleDimensions
        s!"axis {axis} of {known} does not fit receptive fields of {w.size} every {w.stride}{spans}")
  return ⟨axes⟩

/-- The ratio of each axis between source and destination of equal rank, if they fit. -/
def axisRatio (p : UniformParams) (axis rank s d : Nat) : Except EngineError (Option AxisRatio) := do
  if p.isRatioOnly then return AxisRatio.between s d
  let w ← p.windowFor axis rank
  match p.mapping with
  | .inward =>
    return if w.windowsOver s == some d then some (.gather { w with wideLen := s, narrowLen := d })
      else none
  | .outward =>
    return if w.windowsOver d == some s then some (.scatter { w with wideLen := d, narrowLen := s })
      else none

end UniformParams

end RegionNet.Link
