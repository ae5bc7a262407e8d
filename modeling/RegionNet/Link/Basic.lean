import RegionNet.Link.Policy

namespace RegionNet

/-!
# Links

A link joins an output of one region to an input of another and routes the output's elements
with a link policy. Links are numbered in creation order (`link#0`, `link#1`, ...). A link
keeps the policy as made from its parameter text, so that a reset gives it a fresh policy; once
both ends' dimensions are told to the policy, initializing the link prepares the policy and
builds the splitter map: for each destination node, the source elements it receives.

A destination input lays out all its links one after the other; a link's offset is where its
elements start in that input.
-/

/-- The regions and ports a link joins. -/
structure Endpoints where
  srcRegion : String
  srcOutput : String
  destRegion : String
  destInput : String
  deriving DecidableEq, Repr

/-- How messages name a pair of endpoints: `A.out -> B.in`. -/
def Endpoints.text (e : Endpoints) : String :=
  s!"{e.srcRegion}.{e.srcOutput} -> {e.destRegion}.{e.destInput}"

/-- The error for a link that does not exist. -/
def Endpoints.missing (e : Endpoints) : EngineError := .notFound s!"link {e.text}"

/-- How a link number is written. -/
def linkName (id : Nat) : String := s!"link#{id}"

/-- A link of a network. -/
structure Link where
  id : Nat
  /-- The name the policy was asked for by. -/
  policyType : String
  /-- The policy's parameter text. -/
  params : String
  endpoints : Endpoints
  /-- The policy as made from the parameters. -/
  fresh : Link.LinkPolicy
  /-- The policy in its present state. -/
  policy : Link.LinkPolicy
  /-- The splitter map: for each destination node, the source elements it receives. -/
  routes : List (List Nat) := []
  offset : Nat := 0
  deriving DecidableEq, Repr

namespace Link

/-- Make a link with a policy of a kind. -/
def new (id : Nat) (policyType params : String) (kind : BuiltinPolicy) (endpoints : Endpoints) :
    Except EngineError Link := do
  let p ← kind.create params
  return { id, policyType, params, endpoints, fresh := p, policy := p }

/-- How a link is shown: its endpoints and its policy name. -/
def display (l : Link) : String := s!"{l.endpoints.text} ({l.policyType})"

/-- Forget the routing: a fresh policy, no splitter map, offset zero. -/
def reset (l : Link) : Link := { l with policy := l.fresh, routes := [], offset := 0 }

/-- Prepare the policy, then build the splitter map. A failure keeps what was done before it. -/
def prepare (l : Link) : Link × Except EngineError Unit :=
  match l.policy.prepare with
  | .error e => (l, .error e)
  | .ok p =>
    let l := { l with policy := p }
    match p.splitterMap with
    | .error e => (l, .error e)
    | .ok m => ({ l with routes := m }, .ok ())

/-- Whether the link is ready to route: a prepared policy and a splitter map. -/
def isInitialized (l : Link) : Bool := l.policy.ready && !l.routes.isEmpty

/-- Whether the link joins exactly these endpoints. -/
def connects (l : Link) (e : Endpoints) : Bool := l.endpoints == e

/-- A reset link routes nothing. -/
@[simp] theorem isInitialized_reset (l : Link) (h : l.fresh.ready = false) :
    l.reset.isInitialized = false := by
  simp [reset, isInitialized, h]

end Link

end RegionNet
