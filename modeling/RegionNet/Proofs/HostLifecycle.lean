import RegionNet.Host

namespace RegionNet

/-!
# The host's lifecycle

A host is started and stopped, makes networks while it runs and forgets them when they are
dropped. This module follows a program that uses one host through any sequence of starts, stops,
new networks and drops, and shows that the host keeps its accounts: the networks it counts as
live are exactly those the program holds, every network number it hands out is new, it makes a
network exactly while it runs, it stops exactly when it runs and no network is held (and then
has emptied the factory's caches), a refused stop changes nothing, and it sets up its platform
once each time it goes from stopped to running (`host_lifecycle_keeps_accounts`).
-/

namespace Host

/-- A started host runs. -/
theorem start_running
    (h : Host) :
    h.start.running = true := by
  unfold start
  split <;> simp_all

/-- Starting keeps the live networks. -/
theorem start_live
    (h : Host) :
    h.start.live = h.live := by
  unfold start
  split <;> rfl

/-- Starting keeps the next network number. -/
theorem start_nextNetwork
    (h : Host) :
    h.start.nextNetwork = h.nextNetwork := by
  unfold start
  split <;> rfl

/-- Starting a stopped host sets up its platform once; starting a running one asks nothing. -/
theorem start_setUps
    (h : Host) :
    h.start.platformCalls.count .setUp =
      h.platformCalls.count .setUp + if h.running then 0 else 1 := by
  unfold start
  split <;> simp_all

/-- Registering a network on a running host gives it the next number and counts it live. -/
theorem register_eq_ok
    {h h' : Host}
    {id : Nat}
    (registered : h.register = .ok (id, h')) :
    h.running = true ∧ id = h.nextNetwork ∧
      h' = { h with live := h.live ++ [h.nextNetwork], nextNetwork := h.nextNetwork + 1 } := by
  unfold register at registered
  split at registered
  · cases registered
  · cases registered
    simp_all

/-- A stop is granted exactly when the host runs and no network lives. -/
theorem stop_granted_iff
    (h : Host) :
    (∃ h', h.stop = .ok h') ↔ h.running = true ∧ h.live = [] := by
  cases running : h.running <;> cases live : h.live <;>
    simp [stop, running, live, Factory.cleanup, bind, Except.bind, pure, Except.pure, throw,
      throwThe, MonadExceptOf.throw]

/-- A granted stop leaves the host stopped, with the factory's caches empty and the platform
torn down. -/
theorem stop_eq_ok
    {h h' : Host}
    (stopped : h.stop = .ok h') :
    h' = { h with
      factory := { h.factory with moduleTypes := [], specCache := [], moduleCache := [] },
      running := false, platformCalls := h.platformCalls ++ [.tearDown] } := by
  cases running : h.running <;> cases live : h.live <;>
    simp_all [stop, Factory.cleanup, bind, Except.bind, pure, Except.pure, throw, throwThe,
      MonadExceptOf.throw]

/-- A refused stop is refused because the host does not run, or because networks live. -/
theorem stop_eq_error
    {h : Host}
    {e : EngineError}
    (refused : h.stop = .error e) :
    e = .notInitialized ∨ e = .networksStillAlive h.live.length := by
  cases running : h.running <;> cases live : h.live <;>
    simp_all [stop, Factory.cleanup, bind, Except.bind, pure, Except.pure, throw, throwThe,
      MonadExceptOf.throw]

end Host

/-- What a program does with a host: start it, stop it, make a network, or drop the network it
holds at a place among those it holds. -/
inductive HostEvent where
  | start
  | stop
  | create
  | drop (place : Nat)

/-- A program using a host: the host, the numbers of the networks the program holds, in the order
they were made, and every number the host has handed it. -/
structure HostUser where
  host : Host
  holding : List Nat := []
  given : List Nat := []

namespace HostUser

/-- One thing the program does. A refused stop or a refused network changes nothing; a dropped
network is forgotten by the host; there is nothing to drop at a place past the networks held. -/
def step (u : HostUser) : HostEvent → HostUser
  | .start => { u with host := u.host.start }
  | .stop =>
    match u.host.stop with
    | .ok h => { u with host := h }
    | .error _ => u
  | .create =>
    match u.host.register with
    | .ok (id, h) => { host := h, holding := u.holding ++ [id], given := u.given ++ [id] }
    | .error _ => u
  | .drop place =>
    match u.holding[place]? with
    | some id => { u with host := u.host.unregister id, holding := u.holding.eraseIdx place }
    | none => u

/-- Everything the program does, in order. -/
def run (u : HostUser) (events : List HostEvent) : HostUser := events.foldl step u

/-- How many times a run moves the host from stopped to running. -/
def risings : HostUser → List HostEvent → Nat
  | _, [] => 0
  | u, event :: rest =>
    (if !u.host.running && (u.step event).host.running then 1 else 0) + risings (u.step event) rest

/-- The host's accounts of its networks: the live networks are those the program holds, which
it was handed, and every number handed out is distinct and below the next number. -/
structure Accounted (u : HostUser) : Prop where
  liveHeld : u.host.live = u.holding
  heldGiven : u.holding.Sublist u.given
  givenDistinct : u.given.Nodup
  givenBefore : ∀ id ∈ u.given, id < u.host.nextNetwork

/-- A program that holds nothing, on a host with no live network, starts with the accounts
right. -/
theorem accounted_start
    (h : Host)
    (noNetworks : h.live = []) :
    Accounted { host := h } :=
  ⟨noNetworks, List.Sublist.refl _, List.nodup_nil, fun _ member => nomatch member⟩

/-- A new network keeps the accounts: its number was never handed out. -/
theorem Accounted.create
    {u : HostUser}
    {id : Nat}
    {h : Host}
    (accounts : u.Accounted)
    (registered : u.host.register = .ok (id, h)) :
    Accounted { host := h, holding := u.holding ++ [id], given := u.given ++ [id] } := by
  obtain ⟨-, rfl, rfl⟩ := Host.register_eq_ok registered
  have fresh : u.host.nextNetwork ∉ u.given := fun member =>
    Nat.lt_irrefl _ (accounts.givenBefore _ member)
  refine ⟨by simp [accounts.liveHeld], accounts.heldGiven.append (List.Sublist.refl _), ?_, ?_⟩
  · rw [List.nodup_append]
    refine ⟨accounts.givenDistinct, by simp, ?_⟩
    rintro earlier member newest isNew
    rw [List.mem_singleton] at isNew
    subst isNew
    intro same
    exact fresh (same ▸ member)
  · intro id member
    rcases List.mem_append.mp member with earlier | newest
    · exact Nat.lt_succ_of_lt (accounts.givenBefore id earlier)
    · simp_all

/-- Dropping a held network keeps the accounts: the host forgets exactly that network. -/
theorem Accounted.drop
    {u : HostUser}
    {place id : Nat}
    (accounts : u.Accounted)
    (held : u.holding[place]? = some id) :
    Accounted { u with host := u.host.unregister id, holding := u.holding.eraseIdx place } := by
  -- held numbers are distinct, so forgetting the number is removing it at its place
  have distinct : u.holding.Nodup := accounts.givenDistinct.sublist accounts.heldGiven
  obtain ⟨within, rfl⟩ := List.getElem?_eq_some_iff.mp held
  have atPlace : u.holding.idxOf u.holding[place] = place := distinct.idxOf_getElem place within
  refine ⟨?_, (List.eraseIdx_sublist _ _).trans accounts.heldGiven, accounts.givenDistinct,
    accounts.givenBefore⟩
  simp only [Host.unregister, accounts.liveHeld]
  exact List.erase_eq_eraseIdx_of_idxOf atPlace

/-- Every step keeps the accounts. -/
theorem Accounted.step
    {u : HostUser}
    (accounts : u.Accounted)
    (event : HostEvent) :
    (u.step event).Accounted := by
  cases event with
  | start =>
      exact ⟨(Host.start_live _).trans accounts.liveHeld, accounts.heldGiven,
        accounts.givenDistinct, (Host.start_nextNetwork u.host) ▸ accounts.givenBefore⟩
  | stop =>
      simp only [HostUser.step]
      split
      next h stopped =>
        rw [Host.stop_eq_ok stopped]
        exact ⟨accounts.liveHeld, accounts.heldGiven, accounts.givenDistinct,
          accounts.givenBefore⟩
      next => exact accounts
  | create =>
      simp only [HostUser.step]
      split
      next id h registered => exact accounts.create registered
      next => exact accounts
  | drop place =>
      simp only [HostUser.step]
      split
      next id held => exact accounts.drop held
      next => exact accounts

/-- Every run keeps the accounts. -/
theorem Accounted.run
    {u : HostUser}
    (accounts : u.Accounted)
    (events : List HostEvent) :
    (u.run events).Accounted := by
  induction events generalizing u with
  | nil =>
      exact accounts
  | cons event rest inductionHypothesis =>
      exact inductionHypothesis (accounts.step event)

/-- A step sets up the platform once when it moves the host from stopped to running, and
otherwise not at all. -/
theorem setUps_step
    (u : HostUser)
    (event : HostEvent) :
    (u.step event).host.platformCalls.count .setUp =
      u.host.platformCalls.count .setUp +
        if !u.host.running && (u.step event).host.running then 1 else 0 := by
  cases event with
  | start =>
      simp only [HostUser.step, Host.start_setUps, Host.start_running]
      cases u.host.running <;> rfl
  | stop =>
      cases stopped : u.host.stop with
      | ok h =>
          simp only [HostUser.step, stopped, Host.stop_eq_ok stopped]
          simp
      | error e =>
          simp [HostUser.step, stopped]
  | create =>
      cases registered : u.host.register with
      | ok r =>
          rcases r with ⟨id, h⟩
          obtain ⟨-, -, rfl⟩ := Host.register_eq_ok registered
          simp [HostUser.step, registered]
      | error e =>
          simp [HostUser.step, registered]
  | drop place =>
      cases held : u.holding[place]? <;> simp [HostUser.step, held, Host.unregister]

/-- Over a run the platform is set up once for each time the host went from stopped to
running. -/
theorem setUps_run
    (u : HostUser)
    (events : List HostEvent) :
    (u.run events).host.platformCalls.count .setUp =
      u.host.platformCalls.count .setUp + u.risings events := by
  induction events generalizing u with
  | nil =>
      rfl
  | cons event rest inductionHypothesis =>
      simp only [run, List.foldl_cons, risings] at inductionHypothesis ⊢
      rw [inductionHypothesis, setUps_step]
      omega

end HostUser

/-- A program that starts with a host on which no network lives, and then starts it, stops it,
makes networks and drops them in any order, finds the host's accounts right at every point: the
host counts as live exactly as many networks as the program made and has not dropped; the
numbers it handed out are distinct; a new network is made exactly while the host runs; a stop is
granted exactly when the host runs and the program holds no network, and leaves the host stopped
with the factory's caches empty; a refused stop, not running or networks still alive, changes
nothing; and the platform has been set up once for each time the host went from stopped to
running. -/
theorem host_lifecycle_keeps_accounts
    (h₀ : Host)
    (noNetworks : h₀.live = [])
    (events : List HostEvent) :
    let u := HostUser.run { host := h₀ } events
    u.host.live.length = u.holding.length ∧
    u.given.Nodup ∧
    ((∃ r, u.host.register = .ok r) ↔ u.host.running = true) ∧
    ((∃ h, u.host.stop = .ok h) ↔ u.host.running = true ∧ u.holding = []) ∧
    (∀ h, u.host.stop = .ok h →
      h.running = false ∧ h.factory.specCache = [] ∧ h.factory.moduleCache = []) ∧
    (∀ e, u.host.stop = .error e →
      (e = .notInitialized ∨ e = .networksStillAlive u.holding.length) ∧ u.step .stop = u) ∧
    u.host.platformCalls.count .setUp =
      h₀.platformCalls.count .setUp + HostUser.risings { host := h₀ } events := by
  intro u
  have accounts : u.Accounted := (HostUser.accounted_start h₀ noNetworks).run events
  refine ⟨by rw [accounts.liveHeld], accounts.givenDistinct, ?_, ?_, ?_, ?_,
    HostUser.setUps_run _ events⟩
  · constructor
    · rintro ⟨⟨id, h⟩, registered⟩
      exact (Host.register_eq_ok registered).1
    · intro running
      simp [Host.register, running]
  · rw [Host.stop_granted_iff, accounts.liveHeld]
  · intro h stopped
    rw [Host.stop_eq_ok stopped]
    exact ⟨rfl, rfl, rfl⟩
  · intro e refused
    refine ⟨accounts.liveHeld ▸ Host.stop_eq_error refused, ?_⟩
    simp [HostUser.step, refused]

/-- A fresh host through a start, two new networks and the drop of the first one keeps its
accounts. -/
theorem fresh_host_keeps_accounts :
    (Host.new {}).live = [] ∧
    let u := HostUser.run { host := Host.new {} } [.start, .create, .create, .drop 0]
    u.host.live.length = u.holding.length ∧
    u.given.Nodup ∧
    ((∃ r, u.host.register = .ok r) ↔ u.host.running = true) ∧
    ((∃ h, u.host.stop = .ok h) ↔ u.host.running = true ∧ u.holding = []) ∧
    (∀ h, u.host.stop = .ok h →
      h.running = false ∧ h.factory.specCache = [] ∧ h.factory.moduleCache = []) ∧
    (∀ e, u.host.stop = .error e →
      (e = .notInitialized ∨ e = .networksStillAlive u.holding.length) ∧ u.step .stop = u) ∧
    u.host.platformCalls.count .setUp =
      (Host.new {}).platformCalls.count .setUp +
        HostUser.risings { host := Host.new {} } [.start, .create, .create, .drop 0] :=
  ⟨rfl, host_lifecycle_keeps_accounts (Host.new {}) rfl [.start, .create, .create, .drop 0]⟩

end RegionNet
