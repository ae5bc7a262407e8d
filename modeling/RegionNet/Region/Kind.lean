import RegionNet.Region.Reference
import RegionNet.Region.Probe

namespace RegionNet

/-!
# Kinds of region

The region types a factory can make, and the implementation a region runs. A kind gives the
declaration of its type, makes a fresh implementation from parameters, and restores one from
saved streams. An implementation computes a step, reports output sizes, serves parameters and
commands, and gives the streams that save it. What a probe does not implement is answered the
same way for every probe: an unknown parameter is not found, a parameter cannot be set, and a
command is unsupported.
-/

/-- The kinds of region type. -/
inductive RegionKind where
  /-- The reference region. -/
  | reference
  /-- A single-node probe. -/
  | probeSingle
  /-- A probe with region-level ports. -/
  | probeRegion
  /-- A probe whose implementation reports no output elements. -/
  | probeZero
  /-- A probe declaring a parameter and a command it does not serve. -/
  | probeCmd
  /-- The reference declaration, with a construction that always fails. -/
  | refusing
  /-- A single-node probe that cannot be saved. -/
  | unwritable
  /-- A single-node probe that fails after its first step. -/
  | failing
  deriving DecidableEq, Repr

namespace RegionKind

/-- Every kind. -/
def all : List RegionKind :=
  [.reference, .probeSingle, .probeRegion, .probeZero, .probeCmd, .refusing, .unwritable, .failing]

/-- The name a kind is known by. -/
def name : RegionKind → String
  | .reference => Reference.typeName
  | .probeSingle => "ProbeSingle"
  | .probeRegion => "ProbeRegion"
  | .probeZero => "ProbeZero"
  | .probeCmd => "ProbeCmd"
  | .refusing => "Refusing"
  | .unwritable => "Unwritable"
  | .failing => "Failing"

/-- The kind of a name. -/
def ofName? (n : String) : Option RegionKind := all.find? (·.name == n)

/-- The declaration of a kind's type. -/
def spec : RegionKind → RegionSpec
  | .reference | .refusing => Reference.spec
  | .probeSingle | .unwritable | .failing => Probe.singleSpec
  | .probeRegion => Probe.regionSpec
  | .probeZero => Probe.zeroSpec
  | .probeCmd => Probe.commandSpec

end RegionKind

/-- What a region runs. -/
inductive Implementation where
  /-- The reference region with its state. -/
  | reference (state : Reference.State)
  /-- A probe with its role and step count. -/
  | probe (role : Probe.Role) (iteration : Nat)
  deriving DecidableEq, Repr

namespace RegionKind

/-- A fresh implementation for a region of type `typeName`. -/
def create (k : RegionKind) (params : ParameterMap) (typeName : String) :
    Except EngineError Implementation :=
  match k with
  | .reference => .reference <$> Reference.create params
  | .refusing => .error (.compute "refusing to start")
  | _ => .ok (.probe (Probe.Role.ofTypeName typeName) 0)

/-- An implementation restored from the streams `openStream` opens. -/
def restore (k : RegionKind) (openStream : String → Except EngineError Bundle.Contents)
    (regionName typeName : String) : Except EngineError Implementation :=
  match k with
  | .reference | .refusing => .reference <$> Reference.restore openStream regionName
  | _ => .probe (Probe.Role.ofTypeName typeName) <$> Probe.restore openStream

end RegionKind

namespace Implementation

/-- One step over the region's ports. -/
def compute (impl : Implementation) (io : RegionIo) : Except EngineError (Implementation × RegionIo) :=
  match impl with
  | .reference s => (fun (s, io) => (.reference s, io)) <$> Reference.compute s io
  | .probe role n => (fun (n, io) => (.probe role n, io)) <$> Probe.compute role n io

/-- Elements per node of an output whose declaration leaves the count open. -/
def elementCount (impl : Implementation) (output : String) : Except EngineError Nat :=
  match impl with
  | .reference s => Reference.elementCount s output
  | .probe _ _ => .ok 0

/-- The value of a parameter. -/
def get (impl : Implementation) (name : String) : Except EngineError ParameterValue :=
  match impl with
  | .reference s => Reference.get s name
  | .probe _ _ => .error (.notFound s!"parameter '{name}'")

/-- Set a parameter. -/
def set (impl : Implementation) (name : String) (v : ParameterValue) :
    Except EngineError Implementation :=
  match impl with
  | .reference s => .reference <$> Reference.set s name v
  | .probe _ _ => .error (.invalidParameter s!"parameter '{name}' is not settable")

/-- Run a command, `args` starting with its name. -/
def command (impl : Implementation) (args : List String) :
    Except EngineError (Implementation × String) :=
  match impl with
  | .reference s => (fun (s, r) => (.reference s, r)) <$> Reference.command s args
  | .probe _ _ => .error (.invalidParameter ("unsupported command '" ++ args.headD "" ++ "'"))

/-- The streams that save the implementation, in the order they are written. -/
def streams (impl : Implementation) : Except EngineError (List (String × Bytes)) :=
  match impl with
  | .reference s => .ok (Reference.streams s)
  | .probe role n => Probe.streams role n

end Implementation

end RegionNet
