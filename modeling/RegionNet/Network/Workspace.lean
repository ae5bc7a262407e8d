import RegionNet.Network.Checkpoint
import RegionNet.Network.Run

namespace RegionNet

/-!
# Workspaces

A workspace is a host with the files it reads and writes and at most one network. Network
operations run on the workspace's network as a `Session`; making a network registers it with
the host, and dropping it lets the host and the factory forget it.
-/

/-- A host, its files, and at most one network. -/
structure Workspace where
  host : Host
  files : Files.FileSystem := {}
  network : Option Network := none
  /-- How many staging directories saving has named. -/
  saves : Nat := 0
  /-- The number of the process, part of staging directory names. -/
  processId : Nat := 0
  /-- The callbacks run, with the iteration each was told. -/
  calls : List (String × Nat) := []

namespace Workspace

/-- The session of a network in the workspace. -/
def session (w : Workspace) (n : Network) : Session :=
  { host := w.host, files := w.files, network := n, saves := w.saves, processId := w.processId,
    calls := w.calls }

/-- The workspace after a session on its network. -/
def absorb (w : Workspace) (s : Session) : Workspace :=
  { w with host := s.host, files := s.files, network := some s.network, saves := s.saves,
           calls := s.calls }

/-- Run an operation on a network, which becomes the workspace's network. -/
def runOn {α : Type} (w : Workspace) (n : Network) (op : Op α) : Except EngineError α × Workspace :=
  match EStateM.run op (w.session n) with
  | .ok a s => (.ok a, w.absorb s)
  | .error e s => (.error e, w.absorb s)

/-- Run an operation on the workspace's network; `none` when there is no network. -/
def runOp {α : Type} (w : Workspace) (op : Op α) : Option (Except EngineError α × Workspace) :=
  w.network.map fun n => w.runOn n op

/-- Drop the network: the host forgets it, and its regions let go of the factory's caches. -/
def dropNetwork (w : Workspace) : Workspace :=
  match w.network with
  | none => w
  | some n => { w with network := none, host := w.host.unregister n.id }

/-- Drop the network, then make a new empty one registered with the host. -/
def newNetwork (w : Workspace) : Except EngineError Network × Workspace :=
  let w := w.dropNetwork
  match w.host.register with
  | .error e => (.error e, w)
  | .ok (id, host) =>
    let n : Network := { id }
    (.ok n, { w with host, network := some n })

/-- Drop the network, then make one from a bundle; no network remains when that fails. -/
def fromBundle (w : Workspace) (path : String) : Except EngineError Nat × Workspace :=
  match w.newNetwork with
  | (.error e, w) => (.error e, w)
  | (.ok n, w) =>
    match w.runOn n (Op.load path) with
    | (.ok (), w) => (.ok n.id, w)
    | (.error e, w) => (.error e, w.dropNetwork)

/-- The regions alive in the workspace. -/
def liveRegions (w : Workspace) : List Region := (w.network.map (·.regions.items)).getD []

/-- Empty the factory's caches, unless a live region still uses them. -/
def cleanupFactory (w : Workspace) : Except EngineError Workspace := do
  let regions := w.liveRegions
  let factory ← w.host.factory.cleanup (regions.map (·.typeName)) (regions.filterMap (·.module))
  return { w with host.factory := factory }

/-- Start the host. -/
def startHost (w : Workspace) : Workspace := { w with host := w.host.start }

/-- Stop the host. -/
def stopHost (w : Workspace) : Except EngineError Workspace := do
  return { w with host := ← w.host.stop }

/-- Dropping a network leaves no network. -/
theorem dropNetwork_network (w : Workspace) : w.dropNetwork.network = none := by
  unfold dropNetwork
  split <;> simp_all

end Workspace

end RegionNet
