import RegionNet.Text.Blank
import RegionNet.Text.Case

namespace RegionNet.Logging

/-!
# Debug flags

Debug logging is switched on per component, by command-line arguments `--debug-<name>` (or
`--debug-all` for every known component) and by a comma-separated list in an environment
variable (or the single word `all`). The flags become a log filter: one `<name>=debug` directive
per enabled component, in code point order, then the base level.
-/

/-- The components that emit logs. -/
def knownComponents : List String := ["nupic-engine", "nupic-config", "nupic-types", "nupic-run"]

/-- The components with debug logging switched on, as a set in code point order. -/
structure DebugFlags where
  enabled : List String := []
  deriving DecidableEq, Repr

/-- Insert a name into a list in code point order, once. -/
def insertSorted (name : String) : List String → List String
  | [] => [name]
  | n :: rest =>
    if name = n then n :: rest
    else if name < n then name :: n :: rest
    else n :: insertSorted name rest

namespace DebugFlags

/-- Switch one component on. -/
def enable (f : DebugFlags) (name : String) : DebugFlags := ⟨insertSorted name f.enabled⟩

/-- Switch every known component on. -/
def enableAll (f : DebugFlags) : DebugFlags := knownComponents.foldl enable f

/-- The flags given by command-line arguments; other arguments are ignored. -/
def ofArgs (args : List String) : DebugFlags :=
  args.foldl (fun f arg =>
    if arg == "--debug-all" then f.enableAll
    else if arg.startsWith "--debug-" then f.enable (arg.drop 8).toString
    else f) {}

/-- Add the components listed in the environment variable's value, if it is set. -/
def withEnvironment (f : DebugFlags) : Option String → DebugFlags
  | none => f
  | some "all" => f.enableAll
  | some value =>
    (value.splitOn ",").foldl (fun f part =>
      let name := Text.trimBlanks part
      if name.isEmpty then f else f.enable name) f

/-- Whether a component has debug logging. -/
def isEnabled (f : DebugFlags) (name : String) : Bool := f.enabled.contains name

/-- Whether any component has debug logging. -/
def anyEnabled (f : DebugFlags) : Bool := !f.enabled.isEmpty

/-- The level a component logs at. -/
def level (f : DebugFlags) (name : String) : String := if f.isEnabled name then "DEBUG" else "INFO"

/-- The log filter over a base level. -/
def filterWith (f : DebugFlags) (base : String) : String :=
  let directives := (f.enabled.map (· ++ "=debug")).mergeSort fun a b => decide (a ≤ b)
  ",".intercalate (directives ++ [base])

/-- The log filter over the `info` level. -/
def filter (f : DebugFlags) : String := f.filterWith "info"

/-- The log filter for a configured level, which is lowercased first. -/
def directive (f : DebugFlags) (level : String) : String := f.filterWith (Text.toLower level)

end DebugFlags

/-- The help text describing the debug flags. -/
def debugFlagsHelp : String :=
  "Debug Flags:\n" ++
  "  --debug-all                    Enable debug logging for all crates\n" ++
  "  --debug-\x7bcrate-name\x7d          Enable debug logging for specific crate\n\n" ++
  "Available crates:\n  " ++ ", ".intercalate knownComponents ++ "\n\n" ++
  "Environment Variable:\n" ++
  "  NUPIC_DEBUG=\x7bcrate-name\x7d[,\x7bcrate-name\x7d]  Enable debug for crates (comma-separated)\n" ++
  "  NUPIC_DEBUG=all                               Enable debug for all crates\n"

/-- The output format of log lines. -/
inductive LogFormat where
  | text
  | json
  deriving DecidableEq, Repr

/-- The format a name selects: `json` in any ASCII case, else text. -/
def LogFormat.ofName (name : String) : LogFormat :=
  if name.toList.map Char.toLower == "json".toList then .json else .text

/-- The name of a format. -/
def LogFormat.name : LogFormat → String
  | .text => "Text"
  | .json => "Json"

end RegionNet.Logging
