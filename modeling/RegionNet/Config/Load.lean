import RegionNet.Config.Decode
import RegionNet.Config.Validation
import RegionNet.Files.Tree

namespace RegionNet.Config

/-!
# Finding and loading the settings file

The settings file is `nupic_engine.toml`. Unless the environment names it (`NUPIC_CONFIG_PATH`),
it is looked for in the working directory and then in up to five directories above it; the first
that exists wins. Loading reads it, then lets environment variables and then command-line
options override single settings. Numbers given as overrides count only when they are a valid
32-bit unsigned integer; module paths are split at `:`, keeping empty parts.
-/

open Files

/-- Why settings could not be had. -/
inductive ConfigError where
  | fileNotFound (detail : String)
  | io (e : IoError)
  | parse (detail : String)
  | validation (detail : String)
  deriving Repr

namespace ConfigError

/-- The name of the kind of failure. -/
def kind : ConfigError → String
  | .fileNotFound _ => "FileNotFound"
  | .io _ => "IoError"
  | .parse _ => "ParseError"
  | .validation _ => "ValidationError"

/-- The text of a failure. -/
def message : ConfigError → String
  | .fileNotFound d => s!"Config file not found. Searched: {d}"
  | .io e => "Failed to read config file: " ++ e.message
  | .parse d => s!"Invalid TOML syntax: {d}"
  | .validation d => s!"Validation failed: {d}"

end ConfigError

/-- Environment variables, by name. -/
abbrev Environment := List (String × String)

/-- The name of the settings file. -/
def configFileName : String := "nupic_engine.toml"

/-- A 32-bit unsigned integer in decimal, with an optional `+`. -/
def parseWord? (s : String) : Option UInt32 :=
  let digits := match s.toList with
    | '+' :: rest => rest
    | cs => cs
  if digits.isEmpty || !digits.all Char.isDigit then none
  else
    let n : Nat := digits.foldl (fun acc c => acc * 10 + (c.toNat - 48)) 0
    if n < pow2 32 then some n.toUInt32 else none

/-- A list of paths joined by `:`. -/
def splitPaths (s : String) : List String := s.splitOn ":"

/-- The override of each setting that may be overridden, by its own key. -/
def applyOverride (c : EngineConfig) (key value : String) : EngineConfig :=
  match key with
  | "log_level" => { c with logging.level := value }
  | "log_format" => { c with logging.format := value }
  | "module_path" => { c with runtime.searchPaths := splitPaths value }
  | "bundle_extension" => { c with network.bundleExtension := value }
  | "checkpoint_label" => { c with network.checkpointLabel := value }
  | "max_phase_jump" =>
    match parseWord? value with
    | some n => { c with network.maxPhaseJump := n }
    | none => c
  | _ => c

/-- The overridable settings, in the order they are applied. -/
def overrideKeys : List String :=
  ["log_level", "log_format", "module_path", "bundle_extension", "checkpoint_label",
    "max_phase_jump"]

/-- The environment variable that overrides a setting. -/
def environmentName (key : String) : String :=
  match key with
  | "log_level" => "NUPIC_LOG_LEVEL"
  | "log_format" => "NUPIC_LOG_FORMAT"
  | "module_path" => "NUPIC_MODULE_PATH"
  | "bundle_extension" => "NUPIC_BUNDLE_EXTENSION"
  | "checkpoint_label" => "NUPIC_CHECKPOINT_LABEL"
  | _ => "NUPIC_MAX_PHASE_JUMP"

/-- Apply the options given, each by its key. -/
def EngineConfig.applyOptions (c : EngineConfig) (options : List (String × String)) : EngineConfig :=
  overrideKeys.foldl (fun acc key =>
    match options.lookup key with
    | some v => applyOverride acc key v
    | none => acc) c

/-- Apply the environment's overrides. -/
def EngineConfig.applyEnvironment (c : EngineConfig) (env : Environment) : EngineConfig :=
  overrideKeys.foldl (fun acc key =>
    match env.lookup (environmentName key) with
    | some v => applyOverride acc key v
    | none => acc) c

/-- The directories searched for the settings file: the working directory and up to five
above it. -/
def searchDirectories (cwd : List String) : List (List String) :=
  (List.range 6).filterMap fun i =>
    if i ≤ cwd.length then some (cwd.take (cwd.length - i)) else none

/-- The settings file: the one the environment names, which must exist, or the first found. -/
def findConfigFile (fs : FileSystem) (env : Environment) : Except ConfigError String :=
  match env.lookup "NUPIC_CONFIG_PATH" with
  | some p =>
    if fs.pathExists p then .ok p
    else .error (.fileNotFound s!"Config file specified by NUPIC_CONFIG_PATH not found: {p}")
  | none =>
    let candidates := (searchDirectories fs.cwd).map fun dir =>
      "/" ++ "/".intercalate (dir ++ [configFileName])
    match candidates.find? fs.pathExists with
    | some p => .ok p
    | none =>
      let listed := "\n".intercalate (candidates.map ("  - " ++ ·))
      .error (.fileNotFound (s!"'{configFileName}' not found in any of these locations:\n" ++
        listed ++ "\n\nSet NUPIC_CONFIG_PATH environment variable to specify custom location."))

/-- Settings from a settings text, with the environment's and then the options' overrides. -/
def EngineConfig.load (text : String) (env : Environment) (options : List (String × String)) :
    Except ConfigError EngineConfig :=
  match EngineConfig.ofToml text with
  | .ok c => .ok ((c.applyEnvironment env).applyOptions options)
  | .error e => .error (.parse e)

/-- Settings from a file, with the environment's and then the options' overrides. -/
def loadFile (fs : FileSystem) (env : Environment) (path : String)
    (options : List (String × String)) : Except ConfigError EngineConfig :=
  match fs.readText path with
  | .ok text => EngineConfig.load text env options
  | .error e => .error (.io e)

/-- Settings from the file found by searching, with the overrides. -/
def loadFound (fs : FileSystem) (env : Environment) (options : List (String × String)) :
    Except ConfigError EngineConfig := do
  let path ← findConfigFile fs env
  loadFile fs env path options

end RegionNet.Config
