import RegionNet.Factory
import RegionNet.Link.Basic
import RegionNet.Config.Settings

namespace RegionNet

/-!
# The engine host

The host owns the settings, the region factory, the link policies and the register of live
networks. It is started and stopped: networks can only be made while it runs, each gets the next
number (`network#0`, `network#1`, ...), and it refuses to stop while any network lives. Stopping
empties the factory's caches.

The host runs on a platform, which it asks to set up when it starts and to tear down when it
stops; starting a running host asks nothing. The platform of this engine has nothing to set up
and never fails, so the host only records what it asked.

```text
stopped --start--> running --stop--> stopped
```

An engine also shares one host with the default settings, made the first time it is asked for
(`Globals.sharedHost`); every later request hands out that same host.
-/

/-- What a host asks of the platform it runs on. -/
inductive PlatformCall where
  | setUp
  | tearDown
  deriving DecidableEq, Repr

/-- The engine host. -/
structure Host where
  config : Config.EngineConfig
  running : Bool := false
  /-- The numbers of the networks alive, in the order they were made. -/
  live : List Nat := []
  nextNetwork : Nat := 0
  factory : Factory
  policies : Link.PolicyRegistry := {}
  /-- What the host has asked of its platform, in order. -/
  platformCalls : List PlatformCall := []

/-- How a network number is written. -/
def networkName (id : Nat) : String := s!"network#{id}"

namespace Host

/-- A stopped host with settings. -/
def new (config : Config.EngineConfig) : Host := { config, factory := Factory.new config.runtime }

/-- Start the host, setting up its platform; starting a running host changes nothing. -/
def start (h : Host) : Host :=
  if h.running then h
  else { h with running := true, platformCalls := h.platformCalls ++ [.setUp] }

/-- Register a new network and give it its number. -/
def register (h : Host) : Except EngineError (Nat × Host) :=
  if !h.running then .error .notInitialized
  else .ok (h.nextNetwork, { h with live := h.live ++ [h.nextNetwork], nextNetwork := h.nextNetwork + 1 })

/-- Forget a network that is gone. -/
def unregister (h : Host) (id : Nat) : Host := { h with live := h.live.erase id }

/-- Stop the host: it must run, no network may live, the factory's caches are emptied, and the
platform is torn down. -/
def stop (h : Host) : Except EngineError Host := do
  if !h.running then throw .notInitialized
  if h.live.length > 0 then throw (.networksStillAlive h.live.length)
  let factory ← h.factory.cleanup [] []
  return { h with factory, running := false, platformCalls := h.platformCalls ++ [.tearDown] }

/-- Registering fails exactly on a stopped host. -/
theorem register_isOk_iff (h : Host) : (h.register matches .ok _) ↔ h.running = true := by
  unfold register
  cases h.running <;> simp

end Host

/-- The values an engine keeps for its whole lifetime: the shared host, once made, under the
number it was made as, and how many shared hosts have been made. -/
structure Globals where
  host : Option (Nat × Host) := none
  made : Nat := 0

namespace Globals

/-- The shared host, with the default settings: the first request makes it, every later one
hands out the same host. -/
def sharedHost (g : Globals) : (Nat × Host) × Globals :=
  match g.host with
  | some host => (host, g)
  | none =>
    let host := (g.made, Host.new {})
    (host, { host := some host, made := g.made + 1 })

/-- A second request hands out the host the first one did and changes nothing more. -/
theorem sharedHost_again (g : Globals) :
    g.sharedHost.2.sharedHost = g.sharedHost := by
  obtain ⟨_ | host, made⟩ := g <;> rfl

end Globals

end RegionNet
