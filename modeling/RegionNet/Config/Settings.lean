import RegionNet.Json

namespace RegionNet.Config

/-!
# Engine settings

The settings an engine runs with, in three groups, each with its defaults:

* module resolution: the directories searched for region modules (none) and the character that
  separates a module name from a type name (`.`);
* networks: the extension that saved bundles must carry (`.nta`), the label of a save without an
  explicit label (`network`), and how far a new phase may lie beyond the next free one (3);
* logging: the level (`info`) and the output format (`text`).

Settings are shown as JSON objects with the field names of the settings file.
-/

/-- Where region modules are found and how their names are split. -/
structure ModuleSettings where
  searchPaths : List String := []
  separator : Char := '.'
  deriving DecidableEq, Repr

/-- Checkpoint and scheduling settings of networks. -/
structure NetworkSettings where
  bundleExtension : String := ".nta"
  checkpointLabel : String := "network"
  maxPhaseJump : UInt32 := 3
  deriving DecidableEq, Repr

/-- Logging settings. -/
structure LogSettings where
  level : String := "info"
  format : String := "text"
  deriving DecidableEq, Repr

/-- All settings of an engine. -/
structure EngineConfig where
  runtime : ModuleSettings := {}
  network : NetworkSettings := {}
  logging : LogSettings := {}
  deriving DecidableEq, Repr

namespace EngineConfig

/-- The settings as a JSON object, with the names of the settings file. -/
def toJson (c : EngineConfig) : Json :=
  .object [
    ("runtime", .object [
      ("module_search_paths", .array (c.runtime.searchPaths.map Json.string)),
      ("module_separator", .string c.runtime.separator.toString)]),
    ("network", .object [
      ("bundle_extension", .string c.network.bundleExtension),
      ("default_checkpoint_label", .string c.network.checkpointLabel),
      ("max_phase_jump", .number (.nat c.network.maxPhaseJump.toNat))]),
    ("logging", .object [
      ("level", .string c.logging.level),
      ("format", .string c.logging.format)])]

end EngineConfig

end RegionNet.Config
