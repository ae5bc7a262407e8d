import RegionNet.Proofs.LinkTable

set_option mvcgen.warning false

namespace RegionNet

open Std.Do

/-!
# Reachable sessions

A caller changes a network only through its operations. A session is reachable when it starts
from a new, empty network and each later session is what one operation left, whether the
operation succeeded or failed; between operations the rest of the session (the host, its
factory and policies, the files) may change in any way.

Every reachable session has a link table (`Reachable.linkTable`): the invariant later proofs
about links start from.
-/

/-- An operation a caller makes on a network, with its arguments. -/
inductive Command where
  | addRegion (name typeName params : String)
  | addRegionFromBundle (name typeName : String) (dims : Dimensions) (path label : String)
  | removeRegion (name : String)
  | connect (src out dest inp policyType params : String)
  | disconnect (src out dest inp : String)
  | setRegionDimensions (name : String) (dims : Dimensions)
  | setPhases (name : String) (phases : List UInt32)
  | setMinEnabled (phase : UInt32)
  | setMaxEnabled (phase : UInt32)
  | propagate
  | setUp
  | run (count : Nat)
  | setParameter (name param : String) (value : ParameterValue)
  | executeCommand (name : String) (args : List String)
  | saveWithLabel (path label : String)
  | save (path : String)
  | load (path : String)
  | addCallback (name : String)
  | removeCallback (name : String)
  | enableProfiling
  | disableProfiling
  | resetProfiling

namespace Command

/-- The operation a command makes, its result set aside. -/
def op : Command → Op Unit
  | addRegion name typeName params => Op.addRegion name typeName params
  | addRegionFromBundle name typeName dims path label =>
      discard (Op.addRegionFromBundle name typeName dims path label)
  | removeRegion name => Op.removeRegion name
  | connect src out dest inp policyType params =>
      discard (Op.connect src out dest inp policyType params)
  | disconnect src out dest inp => Op.disconnect src out dest inp
  | setRegionDimensions name dims => Op.setRegionDimensions name dims
  | setPhases name phases => Op.setPhases name phases
  | setMinEnabled phase => Op.setMinEnabled phase
  | setMaxEnabled phase => Op.setMaxEnabled phase
  | propagate => Op.propagate
  | setUp => Op.setUp
  | run count => Op.run count
  | setParameter name param value => Op.setParameter name param value
  | executeCommand name args => discard (Op.executeCommand name args)
  | saveWithLabel path label => Op.saveWithLabel path label
  | save path => Op.save path
  | load path => Op.load path
  | addCallback name => Op.addCallback name
  | removeCallback name => Op.removeCallback name
  | enableProfiling => Op.enableProfiling
  | disableProfiling => Op.disableProfiling
  | resetProfiling => Op.resetProfiling

/-- The session commands leave, one after the other. -/
def leavesAll (cs : List Command) (s : Session) : Session :=
  cs.foldl (fun s c => c.op.leaves s) s

/-- Every command keeps the link table, whether it succeeds or fails. -/
theorem op_keeps (c : Command) :
    ⦃fun s => ⌜s.network.LinkTable⌝⦄ c.op ⦃Op.always (·.network.LinkTable)⦄ := by
  cases c <;>
    mvcgen [op, Op.discard_eq, Op.enableProfiling, Op.disableProfiling, Op.resetProfiling,
      Op.setMinEnabled, Op.setMaxEnabled] with
      exact Network.LinkTable.of_links_eq (by assumption) (by rfl) (by simp +zetaDelta)

end Command

/--
The sessions a caller can reach: a new network, then what each command leaves, with the rest of
the session free to change between commands.
-/
inductive Reachable : Session → Prop where
  | fresh {s : Session} (empty : s.network = { id := s.network.id }) : Reachable s
  | command {s : Session} (c : Command) (before : Reachable s) : Reachable (c.op.leaves s)
  | environment {s s' : Session} (before : Reachable s) (same : s'.network = s.network) :
      Reachable s'

/-- Commands run from a reachable session leave a reachable session. -/
theorem Reachable.leavesAll {s : Session} (reachable : Reachable s) (cs : List Command) :
    Reachable (Command.leavesAll cs s) := by
  induction cs generalizing s with
  | nil => exact reachable
  | cons c rest inductionHypothesis => exact inductionHypothesis (.command c reachable)

/-- A name that is not empty and holds no path separator passes validation. The kernel does not
reduce the separator search, so sessions built by adding regions are evaluated after rewriting
with this. -/
theorem Op.validateRegionName_of_plain
    {name : String}
    (plain : (name.isEmpty || name.contains '/' || name.contains '\\') = false) :
    Op.validateRegionName name = pure () := by
  simp only [Op.validateRegionName, plain, Bool.false_eq_true, ↓reduceIte]

/-- Every reachable session has a link table. -/
theorem Reachable.linkTable {s : Session} (reachable : Reachable s) : s.network.LinkTable := by
  induction reachable with
  | fresh empty => exact Network.linkTable_of_links_nil (by rw [empty])
  | command c _ table => exact Op.leaves_of_keeps c.op_keeps table
  | environment _ same table => exact same ▸ table

end RegionNet
