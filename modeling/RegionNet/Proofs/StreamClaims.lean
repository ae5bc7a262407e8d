import RegionNet.Bundle.Stream

namespace RegionNet.Bundle

/-!
# One stream at a time

The streams of a region in a bundle are handed out one at a time: a handle records the stream it
has open, refuses every request while one is open, and lets go of it when the caller drops the
stream it was given (or finishes it, which drops it too).

A caller is modelled with the streams it holds, each under the number of the request that gave
it. Whatever the caller asks, in whatever order, and whatever the file system answers, the
handle's open stream is the stream of the one handle the caller holds, if any; a request is
granted only when the mode is right and the caller holds nothing; and a refused request leaves
the open stream as it was (`stream_slot_follows_held_stream`).
-/

namespace Streams

/-- A stream of the wrong mode is refused, whatever else holds. -/
theorem checkMode_eq_ok_iff
    (s : Streams)
    (wanted : StreamMode)
    (stream : String) :
    s.checkMode wanted stream = .ok () ↔ s.mode = wanted := by
  unfold checkMode
  split <;> simp_all

/-- A stream is refused while another is open. -/
theorem checkFree_eq_ok_iff
    (s : Streams)
    (held : Option String)
    (stream : String) :
    s.checkFree held stream = .ok () ↔ held = none := by
  unfold checkFree
  split <;> simp

/-- Whether the file system lets a stream be opened in a mode: its file created empty for
writing, its file found for reading. -/
def Opens (s : Streams) (mode : StreamMode) (fs : Files.FileSystem) (stream : String) : Prop :=
  match mode with
  | .write => ∃ fs', s.create fs stream = .ok fs'
  | .read => ∃ contents, s.openRead fs stream = .ok contents

end Streams

namespace Handle

/-- Ask a handle for a stream in a mode; only the handle it leaves matters here. -/
def request (h : Handle) (mode : StreamMode) (fs : Files.FileSystem) (stream : String) :
    Except EngineError Handle :=
  match mode with
  | .write => (h.openWrite fs stream).map (·.1)
  | .read => (h.openRead fs stream).map (·.1)

/-- A granted request leaves the handle holding the stream asked for. -/
theorem request_eq_ok
    {h h' : Handle}
    {mode : StreamMode}
    {fs : Files.FileSystem}
    {stream : String}
    (granted : h.request mode fs stream = .ok h') :
    h' = { h with held := some stream } := by
  cases mode with
  | write =>
      cases modeOk : h.streams.checkMode .write stream <;>
      cases freeOk : h.streams.checkFree h.held stream <;>
      cases opened : h.streams.create fs stream <;>
      simp_all [request, openWrite, bind, Except.bind, Except.map, pure, Except.pure]
  | read =>
      cases modeOk : h.streams.checkMode .read stream <;>
      cases freeOk : h.streams.checkFree h.held stream <;>
      cases opened : h.streams.openRead fs stream <;>
      simp_all [request, openRead, bind, Except.bind, Except.map, pure, Except.pure]

/-- A request is granted exactly when its mode is the streams' mode, no stream is open, and the
file system opens the stream's file. -/
theorem request_granted_iff
    (h : Handle)
    (mode : StreamMode)
    (fs : Files.FileSystem)
    (stream : String) :
    (∃ h', h.request mode fs stream = .ok h') ↔
      mode = h.streams.mode ∧ h.held = none ∧ h.streams.Opens mode fs stream := by
  -- the guards, in the order the handle checks them, then the file
  have modeOk : h.streams.checkMode mode stream = .ok () ↔ mode = h.streams.mode :=
    (Streams.checkMode_eq_ok_iff h.streams mode stream).trans eq_comm
  have freeOk := Streams.checkFree_eq_ok_iff h.streams h.held stream
  cases mode with
  | write =>
      cases checked : h.streams.checkMode .write stream <;>
      cases free : h.streams.checkFree h.held stream <;>
      cases opened : h.streams.create fs stream <;>
      simp_all [request, openWrite, Streams.Opens, bind, Except.bind, Except.map, pure,
        Except.pure]
  | read =>
      cases checked : h.streams.checkMode .read stream <;>
      cases free : h.streams.checkFree h.held stream <;>
      cases opened : h.streams.openRead fs stream <;>
      simp_all [request, openRead, Streams.Opens, bind, Except.bind, Except.map, pure,
        Except.pure]

end Handle

/-- What a caller does with a region's streams: ask for a stream in a mode, with the file system
as it is at that moment, or drop (or finish) the stream it was given under a number. -/
inductive StreamEvent where
  | request (mode : StreamMode) (stream : String) (fs : Files.FileSystem)
  | drop (ticket : Nat)

/-- A caller of a region's streams: the handle, the streams the caller holds, each under the
number of the request that gave it, and how many requests have been granted. -/
structure StreamCaller where
  handle : Handle
  holding : List (Nat × String) := []
  granted : Nat := 0

namespace StreamCaller

/-- A caller that holds nothing, before any request. -/
def fresh (s : Streams) : StreamCaller := { handle := { streams := s } }

/-- One thing the caller does. A granted request gives the caller a new stream; a refused one
gives nothing. Dropping a stream the caller holds lets the handle go of its open stream;
there is nothing to drop under any other number. -/
def step (c : StreamCaller) : StreamEvent → StreamCaller
  | .request mode stream fs =>
    match c.handle.request mode fs stream with
    | .ok h => { handle := h, holding := c.holding ++ [(c.granted, stream)], granted := c.granted + 1 }
    | .error _ => c
  | .drop ticket =>
    if ticket ∈ c.holding.map Prod.fst then
      { c with handle := c.handle.release, holding := c.holding.filter (·.1 ≠ ticket) }
    else c

/-- Everything the caller does, in order. -/
def run (c : StreamCaller) (events : List StreamEvent) : StreamCaller := events.foldl step c

/-- No step changes the streams the handle serves. -/
theorem streams_step
    (c : StreamCaller)
    (event : StreamEvent) :
    (c.step event).handle.streams = c.handle.streams := by
  cases event with
  | request mode stream fs =>
      simp only [StreamCaller.step]
      split
      next h granted => rw [Handle.request_eq_ok granted]
      next => rfl
  | drop ticket =>
      simp only [StreamCaller.step]
      split <;> rfl

/-- No run changes the streams the handle serves. -/
theorem streams_run
    (c : StreamCaller)
    (events : List StreamEvent) :
    (c.run events).handle.streams = c.handle.streams := by
  induction events generalizing c with
  | nil =>
      rfl
  | cons event rest inductionHypothesis =>
      exact (inductionHypothesis (c.step event)).trans (streams_step c event)

/-- The handle's promise to its caller: the caller holds at most one stream, and the handle's open
stream is the one it holds, if any. -/
structure OneAtATime (c : StreamCaller) : Prop where
  atMostOne : c.holding.length ≤ 1
  openIsHeld : c.handle.held = c.holding.head?.map Prod.snd

/-- Before any request nothing is held and nothing is open. -/
theorem oneAtATime_fresh
    (s : Streams) :
    (fresh s).OneAtATime :=
  ⟨by simp [fresh], by simp [fresh]⟩

/-- Under the promise, no stream is open exactly when the caller holds nothing. -/
theorem OneAtATime.held_eq_none_iff
    {c : StreamCaller}
    (promise : c.OneAtATime) :
    c.handle.held = none ↔ c.holding = [] := by
  rw [promise.openIsHeld]
  cases c.holding <;> simp

/-- A granted request keeps the promise: the caller held nothing, and now holds the stream the
handle has open. -/
theorem OneAtATime.request_granted
    {c : StreamCaller}
    {h : Handle}
    {mode : StreamMode}
    {fs : Files.FileSystem}
    {stream : String}
    (promise : c.OneAtATime)
    (granted : c.handle.request mode fs stream = .ok h) :
    OneAtATime
      { handle := h, holding := c.holding ++ [(c.granted, stream)], granted := c.granted + 1 } := by
  have free : c.holding = [] :=
    promise.held_eq_none_iff.mp ((Handle.request_granted_iff _ _ _ _).mp ⟨h, granted⟩).2.1
  rw [free, Handle.request_eq_ok granted]
  exact ⟨by simp, by simp⟩

/-- Dropping the stream the caller holds keeps the promise: nothing is held and nothing is open. -/
theorem OneAtATime.drop_held
    {c : StreamCaller}
    {ticket : Nat}
    (promise : c.OneAtATime)
    (holds : ticket ∈ c.holding.map Prod.fst) :
    OneAtATime
      { c with handle := c.handle.release, holding := c.holding.filter (·.1 ≠ ticket) } := by
  -- the caller holds at most one stream, and it is the one dropped
  have nonempty : c.holding ≠ [] := by
    intro nothing
    simp [nothing] at holds
  obtain ⟨held, rest, shape⟩ := List.exists_cons_of_ne_nil nonempty
  have alone : rest = [] := by
    have one := promise.atMostOne
    rw [shape, List.length_cons] at one
    exact List.eq_nil_of_length_eq_zero (by omega)
  subst alone
  rw [shape] at holds ⊢
  have dropped : held.1 = ticket := by simpa [eq_comm] using holds
  exact ⟨by simp [dropped], by simp [Handle.release, dropped]⟩

/-- Every step keeps the promise. -/
theorem OneAtATime.step
    {c : StreamCaller}
    (promise : c.OneAtATime)
    (event : StreamEvent) :
    (c.step event).OneAtATime := by
  cases event with
  | request mode stream fs =>
      simp only [StreamCaller.step]
      split
      next h granted => exact promise.request_granted granted
      next => exact promise
  | drop ticket =>
      simp only [StreamCaller.step]
      split
      next holds => exact promise.drop_held holds
      next => exact promise

/-- Every run keeps the promise. -/
theorem OneAtATime.run
    {c : StreamCaller}
    (promise : c.OneAtATime)
    (events : List StreamEvent) :
    (c.run events).OneAtATime := by
  induction events generalizing c with
  | nil =>
      exact promise
  | cons event rest inductionHypothesis =>
      exact inductionHypothesis (promise.step event)

end StreamCaller

/-- Whatever a caller of a region's streams has asked for and dropped, under whatever file
systems: it holds at most one stream, and the handle's open stream is exactly the stream it
holds; a request is granted only when its mode is the streams' mode and the caller holds
nothing (and then exactly when the file opens); and a refused request leaves the open stream as
it was. -/
theorem stream_slot_follows_held_stream
    (s : Streams)
    (history : List StreamEvent) :
    let c := (StreamCaller.fresh s).run history
    c.holding.length ≤ 1 ∧
    c.handle.held = c.holding.head?.map Prod.snd ∧
    (∀ mode stream fs,
      (∃ h, c.handle.request mode fs stream = .ok h) ↔
        mode = s.mode ∧ c.holding = [] ∧ s.Opens mode fs stream) ∧
    (∀ mode stream fs e, c.handle.request mode fs stream = .error e →
      (c.step (.request mode stream fs)).handle.held = c.handle.held) := by
  intro c
  have promise : c.OneAtATime := (StreamCaller.oneAtATime_fresh s).run history
  have sameStreams : c.handle.streams = s := StreamCaller.streams_run _ history
  refine ⟨promise.atMostOne, promise.openIsHeld, ?_, ?_⟩
  · intro mode stream fs
    rw [Handle.request_granted_iff, promise.held_eq_none_iff, sameStreams]
  · intro mode stream fs e refused
    simp [StreamCaller.step, refused]

end RegionNet.Bundle
