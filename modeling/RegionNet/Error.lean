import RegionNet.DataError

namespace RegionNet

/-!
# Errors of the engine

The failures of building, running, saving and loading networks. Each error belongs to one of
five categories; an error of the data layer keeps its own text and falls in the category of its
kind. Two errors wrap the error that caused them: a region that could not be constructed, and a
region that failed while running.
-/

/-- The five groups errors fall in. -/
inductive ErrorCategory where
  /-- A name, parameter or policy given by the caller is wrong. -/
  | configuration
  /-- The regions and links do not fit together. -/
  | topology
  /-- A buffer is in the wrong state or of the wrong type. -/
  | resource
  /-- An operation came at the wrong time, or a region failed. -/
  | lifecycle
  /-- Reading or writing saved state failed. -/
  | io
  deriving DecidableEq, Repr

/-- The name of a category. -/
def ErrorCategory.name : ErrorCategory → String
  | .configuration => "Configuration"
  | .topology => "Topology"
  | .resource => "Resource"
  | .lifecycle => "Lifecycle"
  | .io => "Io"

/-- A failure of an engine operation. -/
inductive EngineError where
  /-- A name is already taken. -/
  | duplicateName (what : String)
  /-- A name is malformed. -/
  | invalidName (detail : String)
  /-- An input or output named by a link does not exist. -/
  | unknownEndpoint (detail : String)
  /-- No region type of that name is known. -/
  | unknownRegionType (detail : String)
  /-- Something named is absent. -/
  | notFound (detail : String)
  /-- An index or count is outside its range. -/
  | outOfRange (detail : String)
  /-- A parameter value or parameter text is wrong. -/
  | invalidParameter (detail : String)
  /-- A link policy is unknown or its parameters are wrong. -/
  | invalidLinkPolicy (detail : String)
  /-- A region cannot be removed while links leave it. -/
  | regionHasOutgoingLinks (region : String) (links : Nat)
  /-- Dimensions could not be worked out. -/
  | dimensionsUnresolvable (detail : String)
  /-- Two dimensions do not fit together. -/
  | incompatibleDimensions (detail : String)
  /-- The runtime is not running. -/
  | notInitialized
  /-- The runtime cannot stop while networks exist. -/
  | networksStillAlive (count : Nat)
  /-- A region of a type could not be constructed. -/
  | constructionFailed (typeName : String) (cause : EngineError)
  /-- The region factory's cache is still in use. -/
  | outstandingReferences (specs modules : Nat)
  /-- An operation came in a state that does not allow it. -/
  | invalidState (detail : String)
  /-- A region failed while running. -/
  | runFailed (region : String) (iteration : Nat) (cause : EngineError)
  /-- A region's computation failed. -/
  | compute (detail : String)
  /-- A checkpoint stream was opened twice. -/
  | streamAlreadyOpen (detail : String)
  /-- A checkpoint stream was used against its mode. -/
  | wrongStreamMode (detail : String)
  /-- A saved network is malformed. -/
  | badCheckpoint (detail : String)
  /-- Encoding or decoding saved state failed. -/
  | serialization (detail : String)
  /-- A file operation failed. -/
  | io (detail : String)
  /-- An error of the data layer. -/
  | data (e : DataError)
  deriving DecidableEq, Repr

namespace EngineError

/-- The text of an error; a wrapping error shows its cause's text after its own. -/
def message : EngineError → String
  | .duplicateName what => s!"Duplicate name: {what}"
  | .invalidName d => s!"Invalid name: {d}"
  | .unknownEndpoint d => s!"Unknown endpoint: {d}"
  | .unknownRegionType d => s!"Unknown region type: {d}"
  | .notFound d => s!"Not found: {d}"
  | .outOfRange d => s!"Out of range: {d}"
  | .invalidParameter d => s!"Invalid parameter: {d}"
  | .invalidLinkPolicy d => s!"Invalid link policy: {d}"
  | .regionHasOutgoingLinks region links => s!"Region '{region}' still feeds {links} link(s)"
  | .dimensionsUnresolvable d => s!"Dimensions unresolvable: {d}"
  | .incompatibleDimensions d => s!"Incompatible dimensions: {d}"
  | .notInitialized => "Runtime not initialized"
  | .networksStillAlive count => s!"Cannot shut down: {count} network(s) still alive"
  | .constructionFailed typeName cause =>
      s!"Failed to construct region type '{typeName}': " ++ cause.message
  | .outstandingReferences specs modules =>
      s!"Factory cache still referenced: {specs} spec(s), {modules} module(s)"
  | .invalidState d => s!"Invalid state: {d}"
  | .runFailed region iteration cause =>
      s!"Region '{region}' failed at iteration {iteration}: " ++ cause.message
  | .compute d => s!"Region computation failed: {d}"
  | .streamAlreadyOpen d => s!"Checkpoint stream already open: {d}"
  | .wrongStreamMode d => s!"Checkpoint stream mode mismatch: {d}"
  | .badCheckpoint d => s!"Bad checkpoint: {d}"
  | .serialization d => s!"Serialization error: {d}"
  | .io d => s!"I/O error: {d}"
  | .data e => e.message

/-- The name of an error's kind; errors of the data layer are named under `Types`. -/
def kind : EngineError → String
  | .duplicateName _ => "DuplicateName"
  | .invalidName _ => "InvalidName"
  | .unknownEndpoint _ => "UnknownEndpoint"
  | .unknownRegionType _ => "UnknownRegionType"
  | .notFound _ => "NotFound"
  | .outOfRange _ => "OutOfRange"
  | .invalidParameter _ => "InvalidParameter"
  | .invalidLinkPolicy _ => "InvalidLinkPolicy"
  | .regionHasOutgoingLinks _ _ => "RegionHasOutgoingLinks"
  | .dimensionsUnresolvable _ => "DimensionsUnresolvable"
  | .incompatibleDimensions _ => "IncompatibleDimensions"
  | .notInitialized => "NotInitialized"
  | .networksStillAlive _ => "NetworksStillAlive"
  | .constructionFailed _ _ => "ImplementationConstructionFailed"
  | .outstandingReferences _ _ => "OutstandingReferences"
  | .invalidState _ => "InvalidState"
  | .runFailed _ _ _ => "RunFailed"
  | .compute _ => "Compute"
  | .streamAlreadyOpen _ => "StreamAlreadyOpen"
  | .wrongStreamMode _ => "WrongStreamMode"
  | .badCheckpoint _ => "BadCheckpoint"
  | .serialization _ => "Serialization"
  | .io _ => "Io"
  | .data e => "Types." ++ e.kind

/-- The category of an error of the data layer. A panic is never shown with a category: it ends
the request. -/
def dataCategory : DataError → ErrorCategory
  | .duplicateName _ | .notFound _ | .outOfRange _ _ | .tooLarge _ _ => .configuration
  | .invalidDimensions _ => .topology
  | .alreadyBound | .invalidType _ | .typeMismatch _ _ | .readOnly | .unbound => .resource
  | .panicked _ => .lifecycle

/-- The category of an error. -/
def category : EngineError → ErrorCategory
  | .duplicateName _ | .invalidName _ | .unknownEndpoint _ | .unknownRegionType _ | .notFound _
  | .outOfRange _ | .invalidParameter _ | .invalidLinkPolicy _ => .configuration
  | .regionHasOutgoingLinks _ _ | .dimensionsUnresolvable _ | .incompatibleDimensions _ => .topology
  | .notInitialized | .networksStillAlive _ | .constructionFailed _ _ | .outstandingReferences _ _
  | .invalidState _ | .runFailed _ _ _ | .compute _ => .lifecycle
  | .streamAlreadyOpen _ | .wrongStreamMode _ | .badCheckpoint _ | .serialization _ | .io _ => .io
  | .data e => dataCategory e

/-- The message of a panic, for the outcome that stands for one. -/
def panicMessage? : EngineError → Option String
  | .data (.panicked message) => some message
  | _ => none

/-- The error that caused this one, for the two errors that wrap another. -/
def cause? : EngineError → Option EngineError
  | .constructionFailed _ cause => some cause
  | .runFailed _ _ cause => some cause
  | _ => none

end EngineError

/-- Lift a data-layer result into an engine result. -/
def liftData {α : Type} : Except DataError α → Except EngineError α
  | .ok a => .ok a
  | .error e => .error (.data e)

/-- A lifted result succeeds exactly when the data result does. -/
theorem liftData_eq_ok {α : Type} {x : Except DataError α} {a : α} :
    liftData x = .ok a ↔ x = .ok a := by
  cases x <;> simp [liftData]

end RegionNet
