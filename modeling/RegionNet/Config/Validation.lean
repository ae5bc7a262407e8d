import RegionNet.Config.Settings
import RegionNet.Text.Case
import RegionNet.Text.Alphanumeric

namespace RegionNet.Config

/-!
# Checking settings

Settings that were read may still be unusable. The checks, in this order:

* the bundle extension is given, starts with `.` and names something after it;
* the default checkpoint label is given and holds no path separator (`/` or `\`);
* the log level is one of `trace`, `debug`, `info`, `warn`, `error`, and the format one of
  `text`, `json`, in any case;
* the module separator is neither a letter or digit nor a path separator.

Every failed check is reported, one per line.
-/

/-- A failed check of one setting. -/
inductive Violation where
  | missing (field : String)
  | invalid (field reason : String)
  deriving DecidableEq, Repr

/-- The text of a failed check. -/
def Violation.message : Violation → String
  | .missing field => s!"Missing required configuration: {field}"
  | .invalid field reason => s!"Invalid configuration value for {field}: {reason}"

/-- The log levels, most verbose first. -/
def logLevels : List String := ["trace", "debug", "info", "warn", "error"]

/-- The log formats. -/
def logFormats : List String := ["text", "json"]

/-- Whether a text holds a path separator. -/
def hasPathSeparator (s : String) : Bool := s.any fun c => c = '/' || c = '\\'

/-- The failed checks of the network settings. -/
def networkViolations (n : NetworkSettings) : List Violation :=
  let ext := n.bundleExtension
  let extension :=
    if ext.isEmpty then [Violation.missing "network.bundle_extension"]
    else if !ext.startsWith "." || ext.utf8ByteSize < 2 then
      [.invalid "network.bundle_extension" s!"'{ext}' must start with '.' and name an extension"]
    else []
  let label :=
    if n.checkpointLabel.isEmpty then [Violation.missing "network.default_checkpoint_label"]
    else if hasPathSeparator n.checkpointLabel then
      [.invalid "network.default_checkpoint_label" "must not contain path separators"]
    else []
  extension ++ label

/-- A setting that must be one of some names, in any case. -/
def choiceViolation (field value : String) (names : List String) : List Violation :=
  if names.contains (Text.toLower value) then []
  else
    let allowed := ", ".intercalate names
    [.invalid field s!"'{value}' is not one of {allowed}"]

/-- The failed checks of the logging settings. -/
def loggingViolations (l : LogSettings) : List Violation :=
  choiceViolation "logging.level" l.level logLevels ++
    choiceViolation "logging.format" l.format logFormats

/-- The failed checks of the module settings. -/
def moduleViolations (m : ModuleSettings) : List Violation :=
  let c := m.separator
  if Text.isAlphanumeric c || c = '/' || c = '\\' then
    [.invalid "runtime.module_separator" s!"'{c}' cannot separate module and type names"]
  else []

/-- Every failed check of a set of settings. -/
def EngineConfig.violations (c : EngineConfig) : List Violation :=
  networkViolations c.network ++ loggingViolations c.logging ++ moduleViolations c.runtime

/-- The report of failed checks, one per line, or nothing when all pass. -/
def EngineConfig.validate (c : EngineConfig) : Except String Unit :=
  match c.violations with
  | [] => .ok ()
  | vs =>
    let lines := "\n".intercalate (vs.map fun v => "  - " ++ v.message)
    .error s!"Configuration validation failed:\n{lines}"

end RegionNet.Config
