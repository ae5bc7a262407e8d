import RegionNet.Config.Load

namespace RegionNet.Config

/-!
# Layers of settings

Settings come from three sources: the settings file, the environment and the command line. The
environment and the command line each give a value for some of the six overridable settings,
under names of their own; the command line is laid over the environment, and both over the
file. A number counts only when it reads as a 32-bit unsigned integer, so one that does not lets
the layer below show through.

The loader applies the overrides one key at a time, first the environment's, then the options'.
This module shows that this is the same as laying one `Layer` over another
(`applyEnvironment_eq_overlay`, `applyOptions_eq_overlay`), and from that, that every loaded
setting comes from the highest source that gives it (`loaded_settings_follow_precedence`).
-/

/-- What one source of settings gives: a value for each overridable setting it sets. -/
structure Layer where
  level : Option String := none
  format : Option String := none
  searchPaths : Option (List String) := none
  bundleExtension : Option String := none
  checkpointLabel : Option String := none
  maxPhaseJump : Option UInt32 := none

namespace Layer

/-- The layer of a source looked up by the overridable settings' keys: module paths are split,
and a number counts only when it is a 32-bit unsigned integer. -/
def read (find : String → Option String) : Layer where
  level := find "log_level"
  format := find "log_format"
  searchPaths := (find "module_path").map splitPaths
  bundleExtension := find "bundle_extension"
  checkpointLabel := find "checkpoint_label"
  maxPhaseJump := (find "max_phase_jump").bind parseWord?

/-- The layer a source gives under one key alone. -/
def only (key : String) (value : Option String) : Layer :=
  read fun k => if key = k then value else none

/-- One layer over another: each setting from the upper layer where it gives one. -/
def atop (upper lower : Layer) : Layer where
  level := upper.level <|> lower.level
  format := upper.format <|> lower.format
  searchPaths := upper.searchPaths <|> lower.searchPaths
  bundleExtension := upper.bundleExtension <|> lower.bundleExtension
  checkpointLabel := upper.checkpointLabel <|> lower.checkpointLabel
  maxPhaseJump := upper.maxPhaseJump <|> lower.maxPhaseJump

/-- The command line's layer: options by their own keys. -/
def ofOptions (options : List (String × String)) : Layer := read fun key => options.lookup key

/-- The environment's layer: each setting under its variable. -/
def ofEnvironment (env : Environment) : Layer := read fun key => env.lookup (environmentName key)

end Layer

/-- Settings with a layer laid over them: each setting the layer gives replaces the one below. -/
def EngineConfig.overlay (c : EngineConfig) (l : Layer) : EngineConfig where
  runtime := { c.runtime with searchPaths := l.searchPaths.getD c.runtime.searchPaths }
  network :=
    { bundleExtension := l.bundleExtension.getD c.network.bundleExtension
      checkpointLabel := l.checkpointLabel.getD c.network.checkpointLabel
      maxPhaseJump := l.maxPhaseJump.getD c.network.maxPhaseJump }
  logging :=
    { level := l.level.getD c.logging.level
      format := l.format.getD c.logging.format }

namespace EngineConfig

/-- Reading through two optional values is reading through the first one given. -/
theorem getD_or_getD
    {α : Type}
    (upper lower : Option α)
    (fallback : α) :
    (upper.or lower).getD fallback = upper.getD (lower.getD fallback) := by
  cases upper <;> rfl

/-- An empty layer changes nothing. -/
@[simp]
theorem overlay_empty
    (c : EngineConfig) :
    c.overlay {} = c := by
  rfl

/-- Laying two layers one after the other is laying the later one over the earlier. -/
theorem overlay_overlay
    (c : EngineConfig)
    (lower upper : Layer) :
    (c.overlay lower).overlay upper = c.overlay (upper.atop lower) := by
  simp only [overlay, Layer.atop, Option.orElse_eq_orElse, Option.orElse_eq_or, getD_or_getD]

/-- One override is the layer of its key alone. -/
theorem applyOverride_eq_overlay
    (c : EngineConfig)
    (key value : String) :
    applyOverride c key value = c.overlay (Layer.only key (some value)) := by
  unfold applyOverride
  -- each known key sets its own setting; any other key is the empty layer
  split
  case h_6 =>
    cases word : parseWord? value <;> simp_all [Layer.only, Layer.read, overlay]
  all_goals simp_all [Layer.only, Layer.read, overlay]

/-- An override looked up in a source, present or not, is the layer of its key alone. -/
theorem lookupOverride_eq_overlay
    (c : EngineConfig)
    (key : String)
    (found : Option String) :
    (match found with
      | some v => applyOverride c key v
      | none => c) = c.overlay (Layer.only key found) := by
  cases found with
  | none =>
      have empty : Layer.only key none = {} := by simp [Layer.only, Layer.read]
      rw [empty, overlay_empty]
  | some v =>
      exact applyOverride_eq_overlay c key v

/-- Overrides looked up key by key, over settings that already carry a layer, lay each key's
layer over that one in turn. -/
theorem foldl_lookupOverride
    (find : String → Option String)
    (keys : List String)
    (c : EngineConfig)
    (l : Layer) :
    keys.foldl (fun acc key =>
        match find key with
        | some v => applyOverride acc key v
        | none => acc) (c.overlay l) =
      c.overlay (keys.foldl (fun below key => (Layer.only key (find key)).atop below) l) := by
  induction keys generalizing l with
  | nil =>
      rfl
  | cons key rest inductionHypothesis =>
      simp only [List.foldl_cons]
      rw [lookupOverride_eq_overlay, overlay_overlay, inductionHypothesis]

/-- The overridable keys, each laid in turn, give the whole layer of a source. -/
theorem foldl_only_overrideKeys
    (find : String → Option String) :
    overrideKeys.foldl (fun below key => (Layer.only key (find key)).atop below) {} =
      Layer.read find := by
  simp [overrideKeys, Layer.only, Layer.read, Layer.atop]

/-- The overrides of a source, applied key by key, lay its whole layer over the settings. -/
theorem foldl_overrides_eq_overlay
    (find : String → Option String)
    (c : EngineConfig) :
    overrideKeys.foldl (fun acc key =>
        match find key with
        | some v => applyOverride acc key v
        | none => acc) c = c.overlay (Layer.read find) := by
  have start := foldl_lookupOverride find overrideKeys c {}
  rw [overlay_empty, foldl_only_overrideKeys] at start
  exact start

/-- The environment's overrides lay the environment's layer over the settings. -/
theorem applyEnvironment_eq_overlay
    (c : EngineConfig)
    (env : Environment) :
    c.applyEnvironment env = c.overlay (Layer.ofEnvironment env) :=
  foldl_overrides_eq_overlay _ c

/-- The command line's overrides lay the command line's layer over the settings. -/
theorem applyOptions_eq_overlay
    (c : EngineConfig)
    (options : List (String × String)) :
    c.applyOptions options = c.overlay (Layer.ofOptions options) :=
  foldl_overrides_eq_overlay _ c

/-- Loading settings from a text lays the command line over the environment over what the
text gives, or reports why the text cannot be read. -/
theorem load_eq_overlay
    (text : String)
    (env : Environment)
    (options : List (String × String)) :
    EngineConfig.load text env options =
      match EngineConfig.ofToml text with
      | .ok c => .ok (c.overlay ((Layer.ofOptions options).atop (Layer.ofEnvironment env)))
      | .error e => .error (.parse e) := by
  unfold EngineConfig.load
  cases EngineConfig.ofToml text with
  | ok c =>
      dsimp only
      rw [applyEnvironment_eq_overlay, applyOptions_eq_overlay, overlay_overlay]
  | error e =>
      rfl

end EngineConfig

/-- Settings loaded from a file follow a fixed precedence. When the file reads as settings `c`,
each of the six overridable settings is the command line's value when an option gives it, else
the environment's when its variable is set, else `c`'s; a number counts only when it reads as a
32-bit unsigned integer, and module paths are split at `:`. The module separator is always
`c`'s. A file that does not read as settings is a parse error. -/
theorem loaded_settings_follow_precedence
    (fs : Files.FileSystem)
    (path : String)
    (env : Environment)
    (options : List (String × String)) :
    (∀ text c, fs.readText path = .ok text → EngineConfig.ofToml text = .ok c →
      ∃ r, loadFile fs env path options = .ok r ∧
        r.logging.level =
          (options.lookup "log_level" <|> env.lookup "NUPIC_LOG_LEVEL").getD c.logging.level ∧
        r.logging.format =
          (options.lookup "log_format" <|> env.lookup "NUPIC_LOG_FORMAT").getD c.logging.format ∧
        r.runtime.searchPaths =
          ((options.lookup "module_path").map splitPaths <|>
            (env.lookup "NUPIC_MODULE_PATH").map splitPaths).getD c.runtime.searchPaths ∧
        r.network.bundleExtension =
          (options.lookup "bundle_extension" <|> env.lookup "NUPIC_BUNDLE_EXTENSION").getD
            c.network.bundleExtension ∧
        r.network.checkpointLabel =
          (options.lookup "checkpoint_label" <|> env.lookup "NUPIC_CHECKPOINT_LABEL").getD
            c.network.checkpointLabel ∧
        r.network.maxPhaseJump =
          ((options.lookup "max_phase_jump").bind parseWord? <|>
            (env.lookup "NUPIC_MAX_PHASE_JUMP").bind parseWord?).getD c.network.maxPhaseJump ∧
        r.runtime.separator = c.runtime.separator) ∧
    (∀ text e, fs.readText path = .ok text → EngineConfig.ofToml text = .error e →
      loadFile fs env path options = .error (.parse e)) := by
  constructor
  · intro text c read parsed
    refine ⟨c.overlay ((Layer.ofOptions options).atop (Layer.ofEnvironment env)), ?_, ?_⟩
    · simp only [loadFile, read, EngineConfig.load_eq_overlay, parsed]
    · simp [EngineConfig.overlay, Layer.atop, Layer.ofOptions, Layer.ofEnvironment, Layer.read,
        environmentName]
  · intro text e read refused
    simp only [loadFile, read, EngineConfig.load_eq_overlay, refused]

end RegionNet.Config
