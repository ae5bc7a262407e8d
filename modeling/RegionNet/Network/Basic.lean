import RegionNet.Host
import RegionNet.Files.Tree

namespace RegionNet

/-!
# Networks

A network holds regions, in the order they were added, and links, in the order of their
numbers. It moves through five states:

```text
unconfigured --propagate--> dimensionsPropagated --initialize--> initialized --run--> ready
     ^                                                                |               |
     +------------------------- any change of topology ---------------+---- save ----+--> serialized
```

Network operations run in a `Session`: the network together with the host it is registered
with, the files it saves to and loads from, and what it has told the outside (the callbacks it
ran). An operation that fails keeps the changes it made before the failure, so operations are
written in `EStateM`.
-/

/-- The states of a network. -/
inductive NetworkState where
  | unconfigured
  | dimensionsPropagated
  | initialized
  | ready
  | serialized
  deriving DecidableEq, Repr

/-- The name of a state. -/
def NetworkState.name : NetworkState → String
  | .unconfigured => "Unconfigured"
  | .dimensionsPropagated => "DimensionsPropagated"
  | .initialized => "Initialized"
  | .ready => "Ready"
  | .serialized => "Serialized"

/-- A network of regions and links. -/
structure Network where
  id : Nat
  regions : Collection Region := .empty
  /-- Links in the order of their numbers. -/
  links : List Link := []
  nextLink : Nat := 0
  state : NetworkState := .unconfigured
  /-- Region names, producers before consumers; known once propagated. -/
  order : List String := []
  minEnabled : Option Nat := none
  maxEnabled : Option Nat := none
  /-- The names of the callbacks run after each iteration, in order. -/
  callbacks : Collection Unit := .empty
  /-- Completed iterations. -/
  iteration : Nat := 0

namespace Network

/-- A region by name. -/
def region (n : Network) (name : String) : Except EngineError Region :=
  match n.regions.find? name with
  | some r => .ok r
  | none => .error (.notFound s!"region '{name}'")

/-- A link by number. -/
def link (n : Network) (id : Nat) : Except EngineError Link :=
  match n.links.find? (·.id == id) with
  | some l => .ok l
  | none => .error (.notFound (linkName id))

/-- The lowest phase any region runs in. -/
def minPhase (n : Network) : Option Nat := (n.regions.items.filterMap (·.phases.head?)).min?

/-- The highest phase any region runs in. -/
def maxPhase (n : Network) : Option Nat := (n.regions.items.filterMap (·.phases.getLast?)).max?

/-- The phases a run goes through, from the lowest to the highest enabled one. -/
def enabledPhases (n : Network) : Nat × Nat :=
  ((n.minEnabled <|> n.minPhase).getD 0, (n.maxEnabled <|> n.maxPhase).getD 0)

end Network

/-- A network and what it works with. -/
structure Session where
  host : Host
  files : Files.FileSystem
  network : Network
  /-- How many staging directories saving has named. -/
  saves : Nat := 0
  /-- The number of the process, part of staging directory names. -/
  processId : Nat := 0
  /-- The callbacks run, with the iteration each was told. -/
  calls : List (String × Nat) := []

/-- An operation on a network in a session; a failure keeps what was done before it. -/
abbrev Op := EStateM EngineError Session

namespace Op

/-- Fail with an error or go on with a value. -/
def lift {α : Type} : Except EngineError α → Op α
  | .ok a => pure a
  | .error e => throw e

/-- The network. -/
def network : Op Network := do return (← get).network

/-- Change the network. -/
def modifyNetwork (f : Network → Network) : Op Unit :=
  modify fun s => { s with network := f s.network }

/-- A region by name. -/
def region (name : String) : Op Region := do lift ((← network).region name)

/-- Replace a region that exists. -/
def putRegion (r : Region) : Op Unit :=
  modifyNetwork fun n => { n with regions := ⟨n.regions.entries.map fun (k, x) =>
    if k == r.name then (k, r) else (k, x)⟩ }

/-- A link by number. -/
def link (id : Nat) : Op Link := do lift ((← network).link id)

/-- Replace a link that exists. -/
def putLink (l : Link) : Op Unit :=
  modifyNetwork fun n => { n with links := n.links.map fun x => if x.id == l.id then l else x }

/-- Store the link a step left, then fail if the step failed. -/
def stepLink {α : Type} (r : Link × Except EngineError α) : Op α := do
  putLink r.1
  lift r.2

/-- Store the region a step left, then fail if the step failed. -/
def stepRegion {α : Type} (r : Region × Except EngineError α) : Op α := do
  putRegion r.1
  lift r.2

/-- Change the factory by a step, then fail if the step failed. -/
def stepFactory {α : Type} (r : Factory × Except EngineError α) : Op α := do
  modify fun s => { s with host.factory := r.1 }
  lift r.2

/-- Change the network's state. -/
def setState (st : NetworkState) : Op Unit := modifyNetwork fun n => { n with state := st }

end Op

end RegionNet
