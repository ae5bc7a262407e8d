import RegionNet.Config.Settings
import RegionNet.Toml.Parser
import RegionNet.Text.Quoted

namespace RegionNet.Config

/-!
# Reading settings from a TOML document

Each setting has a kind of value it accepts, and a value of another kind is refused with what
was found and what was expected:

```text
invalid type: string "3", expected u32
invalid value: integer `-1`, expected u32
```

A group of settings is read from a table, setting by setting in the order the document gives
them, skipping names it does not know; or from an array, position by position; a date stands for
an empty table. Settings that are not given keep their defaults. A refusal points at the value
refused, or, for a table that has no bytes of its own, at the key that names it.
-/

open Toml

/-- How a value found in the document is named in a refusal. -/
def describeFound : Node → String
  | .string s _ => "string " ++ Text.quoted s
  | .integer n _ => s!"integer `{n}`"
  | .float x _ => "floating point `" ++ Decimal.write64 Decimal.Layout.described x ++ "`"
  | .boolean b _ => s!"boolean `{b}`"
  | .datetime .. | .table .. => "map"
  | .array .. | .tables .. => "sequence"

/-- A refusal of a value of the wrong kind. -/
def wrongKind {α : Type} (found : Node) (expected : String) : Except Report α :=
  let what := describeFound found
  .error ⟨s!"invalid type: {what}, expected {expected}", none, []⟩

/-- A refusal of a value of the right kind. -/
def wrongValue {α : Type} (found : Node) (expected : String) : Except Report α :=
  let what := describeFound found
  .error ⟨s!"invalid value: {what}, expected {expected}", none, []⟩

/-- Let a refusal that points nowhere yet point at a node. -/
def pointAt {α : Type} (node : Node) (r : Except Report α) : Except Report α :=
  r.mapError fun e => if e.span.isNone then { e with span := node.span? } else e

/-- A 32-bit unsigned integer. -/
def readWord (node : Node) : Except Report UInt32 :=
  pointAt node <| match node with
    | .integer n _ => if 0 ≤ n && n < (pow2 32 : Int) then .ok n.toNat.toUInt32 else wrongValue node "u32"
    | _ => wrongKind node "u32"

/-- A string. -/
def readString (node : Node) : Except Report String :=
  pointAt node <| match node with
    | .string s _ => .ok s
    | _ => wrongKind node "a string"

/-- A path, written as a string. -/
def readPath (node : Node) : Except Report String :=
  pointAt node <| match node with
    | .string s _ => .ok s
    | _ => wrongKind node "path string"

/-- A single character, written as a string of one character. -/
def readChar (node : Node) : Except Report Char :=
  pointAt node <| match node with
    | .string s _ =>
      match s.toList with
      | [c] => .ok c
      | _ => wrongValue node "a character"
    | _ => wrongKind node "a character"

/-- A sequence of items, written as an array. -/
def readSequence {α : Type} (item : Node → Except Report α) (node : Node) :
    Except Report (List α) :=
  pointAt node <| match node with
    | .array items _ | .tables items _ => items.mapM item
    | _ => wrongKind node "a sequence"

/-- A setting of a group: its name and how its value changes the group. -/
structure Field (α : Type) where
  name : String
  set : Node → α → Except Report α

/-- The refusal of a table entry's value, pointing at the value or else the key, under the key. -/
def underKey {α : Type} (key : Key) (value : Node) (r : Except Report α) : Except Report α :=
  r.mapError fun e =>
    let e := if e.span.isNone then { e with span := value.span? <|> some key.span } else e
    { e with keys := key.name :: e.keys }

/-- A group of settings, from a table by name or from an array by position. -/
def readGroup {α : Type} (name : String) (fields : List (Field α)) (defaults : α) (node : Node) :
    Except Report α :=
  pointAt node <| match node with
    | .table _ entries _ =>
      entries.foldlM (fun acc (entry : Key × Node) =>
        match fields.find? (·.name == entry.1.name) with
        | some f => underKey entry.1 entry.2 (f.set entry.2 acc)
        | none => .ok acc) defaults
    | .datetime .. => .ok defaults
    | .array items _ | .tables items _ =>
      (fields.zip (List.range fields.length)).foldlM (fun acc (fi : Field α × Nat) =>
        match items[fi.2]? with
        | some item => fi.1.set item acc
        | none => .ok acc) defaults
    | _ => wrongKind node ("struct " ++ name)

/-- The module settings group. -/
def readModuleSettings : Node → Except Report ModuleSettings :=
  readGroup "RuntimeConfig" [
    ⟨"module_search_paths", fun v s => do return { s with searchPaths := ← readSequence readPath v }⟩,
    ⟨"module_separator", fun v s => do return { s with separator := ← readChar v }⟩] {}

/-- The network settings group. -/
def readNetworkSettings : Node → Except Report NetworkSettings :=
  readGroup "NetworkConfig" [
    ⟨"bundle_extension", fun v s => do return { s with bundleExtension := ← readString v }⟩,
    ⟨"default_checkpoint_label", fun v s => do return { s with checkpointLabel := ← readString v }⟩,
    ⟨"max_phase_jump", fun v s => do return { s with maxPhaseJump := ← readWord v }⟩] {}

/-- The logging settings group. -/
def readLogSettings : Node → Except Report LogSettings :=
  readGroup "LoggingConfig" [
    ⟨"level", fun v s => do return { s with level := ← readString v }⟩,
    ⟨"format", fun v s => do return { s with format := ← readString v }⟩] {}

/-- All settings, from a document's root. -/
def readEngineConfig : Node → Except Report EngineConfig :=
  readGroup "EngineConfig" [
    ⟨"runtime", fun v c => do return { c with runtime := ← readModuleSettings v }⟩,
    ⟨"network", fun v c => do return { c with network := ← readNetworkSettings v }⟩,
    ⟨"logging", fun v c => do return { c with logging := ← readLogSettings v }⟩] {}

/-- The settings written in a TOML text, or the report of why they cannot be read, shown against
the text. -/
def EngineConfig.ofToml (text : String) : Except String EngineConfig :=
  match Toml.parse text >>= fun root => readEngineConfig root.toNode with
  | .ok c => .ok c
  | .error r => .error (r.render text)

end RegionNet.Config
