import RegionNet.Ieee

namespace RegionNet.Toml

/-!
# TOML documents

A parsed document is a tree of nodes. Every value remembers the bytes it was written in, so that
a reader of settings can point at the value it refuses. Tables also remember how they came to
be, because that decides which later definitions may still add to them:

* a table named by a header `[a.b]` is closed to a second header of the same name;
* a table created only as the parent of a header (`a` for `[a.b]`) may still be named once;
* a table created by a dotted key (`a.b = 1`) may be extended by more dotted keys only;
* an inline table `{ … }` is complete as written.

The edits at the end of the module walk a path of keys down such a tree, creating the missing
parents, and refuse the walks that would redefine something.
-/

/-- The bytes `[start, stop)` of the document. -/
structure Span where
  start : Nat
  stop : Nat
  deriving DecidableEq, Repr, Inhabited

/-- A key as written: its name and the bytes of its spelling. -/
structure Key where
  name : String
  span : Span
  deriving DecidableEq, Repr, Inhabited

/-- How a table came to be. -/
inductive TableOrigin where
  /-- Named by a header, or the document root. -/
  | header
  /-- Created as the parent of a header. -/
  | implicit
  /-- Created by a dotted key outside an inline table. -/
  | dotted
  /-- Written inline. -/
  | inline
  /-- Created by a dotted key inside an inline table. -/
  | inlineDotted
  deriving DecidableEq, Repr, Inhabited

namespace TableOrigin

/-- Tables that nothing has named yet. -/
def isImplicit : TableOrigin → Bool
  | .implicit | .dotted | .inlineDotted => true
  | _ => false

/-- Tables made by dotted keys. -/
def isDotted : TableOrigin → Bool
  | .dotted | .inlineDotted => true
  | _ => false

/-- Tables that are values inside an inline table or a key-value line. -/
def isInline : TableOrigin → Bool
  | .inline | .inlineDotted => true
  | _ => false

end TableOrigin

/-- A value of the document with the bytes it was written in. Header tables keep the span of
their header, stretched to the last value written under it; implicit tables have none. -/
inductive Node where
  | string (text : String) (span : Span)
  | integer (value : Int) (span : Span)
  | float (value : Binary64) (span : Span)
  | boolean (value : Bool) (span : Span)
  | datetime (text : String) (span : Span)
  | array (items : List Node) (span : Span)
  | table (origin : TableOrigin) (entries : List (Key × Node)) (span : Option Span)
  /-- An array of tables, made by `[[name]]` headers. -/
  | tables (items : List Node) (span : Option Span)
  deriving Repr, Inhabited

/-- The entries of a table, in the order they were made. -/
abbrev Entries := List (Key × Node)

namespace Node

/-- The bytes a node was written in, when it has them. -/
def span? : Node → Option Span
  | .string _ s | .integer _ s | .float _ s | .boolean _ s | .datetime _ s | .array _ s => some s
  | .table _ _ s | .tables _ s => s

/-- The name of a node's kind, as messages about the document use it. -/
def typeName : Node → String
  | .string .. => "string"
  | .integer .. => "integer"
  | .float .. => "float"
  | .boolean .. => "boolean"
  | .datetime .. => "datetime"
  | .array .. => "array"
  | .table origin .. => if origin.isInline then "inline table" else "table"
  | .tables .. => "array of tables"

end Node

/-- Whether a byte may appear in a key written without quotes. -/
def isBareKeyByte (b : UInt8) : Bool :=
  (b ≥ 65 && b ≤ 90) || (b ≥ 97 && b ≤ 122) || (b ≥ 48 && b ≤ 57) || b == 45 || b == 95

/-- The hexadecimal digits of a code point, upper case, at least four. -/
def upperHex4 (n : Nat) : String :=
  let digits := (Nat.toDigits 16 n).map Char.toUpper
  String.ofList (List.replicate (4 - digits.length) '0' ++ digits)

/-- A character inside a quoted key: escapes for quotes, backslashes and controls. -/
def escapeKeyChar (c : Char) : String :=
  match c with
  | '\x08' => "\\b"
  | '\t' => "\\t"
  | '\n' => "\\n"
  | '\x0c' => "\\f"
  | '\r' => "\\r"
  | '"' => "\\\""
  | '\\' => "\\\\"
  | c => if c.toNat ≤ 0x1F || c.toNat == 0x7F then "\\u" ++ upperHex4 c.toNat else c.toString

/-- How a key is spelled in messages: bare when it may be, otherwise in double quotes. -/
def keySpelling (name : String) : String :=
  if !name.isEmpty && name.toUTF8.data.all isBareKeyByte then name
  else "\"" ++ String.join (name.toList.map escapeKeyChar) ++ "\""

/-- A definition that the tables already written refuse. -/
inductive Clash where
  /-- The key is already defined; `table` names the table (empty for the root) when known. -/
  | duplicateKey (key : String) (table : Option (List String))
  /-- A dotted key runs through a value that is not a table. -/
  | extendsNonTable (path : List String) (kind : String)
  deriving DecidableEq, Repr

/-- The text of a clash. -/
def Clash.message : Clash → String
  | .duplicateKey key none => s!"duplicate key `{key}`"
  | .duplicateKey key (some []) => s!"duplicate key `{key}` in document root"
  | .duplicateKey key (some path) =>
    let dotted := ".".intercalate path
    s!"duplicate key `{key}` in table `{dotted}`"
  | .extendsNonTable path kind =>
    let dotted := ".".intercalate path
    s!"dotted key `{dotted}` attempted to extend non-table type ({kind})"

/-- A table being edited: how it came to be, its entries and its span. -/
structure Table where
  origin : TableOrigin
  entries : Entries
  span : Option Span
  deriving Repr, Inhabited

namespace Table

/-- The table as a node. -/
def toNode (t : Table) : Node := .table t.origin t.entries t.span

/-- The entry of a name. -/
def find? (t : Table) (name : String) : Option Node :=
  (t.entries.find? fun e => e.1.name == name).map Prod.snd

/-- Replace the node of an existing name, keeping its key and place. -/
def replace (t : Table) (name : String) (node : Node) : Table :=
  { t with entries := t.entries.map fun e => if e.1.name == name then (e.1, node) else e }

/-- Add an entry at the end. -/
def append (t : Table) (key : Key) (node : Node) : Table :=
  { t with entries := t.entries ++ [(key, node)] }

/-- Remove the entry of a name; the others keep their order. -/
def erase (t : Table) (name : String) : Table :=
  { t with entries := t.entries.filter fun e => e.1.name != name }

end Table

/-- The names of the first `n` keys of a path. -/
def pathNames (path : List Key) (n : Nat) : List String := (path.take n).map Key.name

/-- Walk `rest` down from `t` and hand the table reached to `edit`, then put every table on the
way back together. Missing tables are created: inside an inline table (`inline`) as dotted
inline tables, elsewhere as dotted or implicit tables as `dotted` says. A walk through a value
that is not a table, or with a dotted key through a table that a header or an inline value has
already closed, is refused. An array of tables is entered at its last table. `full` is the whole
path and `depth` the number of its keys already walked, for messages. -/
def descend {β : Type} (inline dotted : Bool) (full : List Key) (edit : Table → Except Clash (Table × β)) :
    Nat → List Key → Table → Except Clash (Table × β)
  | _, [], t => edit t
  | depth, key :: rest, t =>
    let refuseKind (node : Node) : Except Clash (Table × β) :=
      .error (.extendsNonTable (pathNames full (depth + 1)) node.typeName)
    match t.find? key.name with
    | none => do
      let origin : TableOrigin := if inline then .inlineDotted else if dotted then .dotted else .implicit
      let (child, b) ← descend inline dotted full edit (depth + 1) rest ⟨origin, [], none⟩
      return (t.append key child.toNode, b)
    | some (.table origin entries span) =>
      if origin.isInline != inline then refuseKind (.table origin entries span)
      else if dotted && !origin.isImplicit then .error (.duplicateKey key.name none)
      else do
        let (child, b) ← descend inline dotted full edit (depth + 1) rest ⟨origin, entries, span⟩
        return (t.replace key.name child.toNode, b)
    | some (.tables items span) =>
      match items.getLast? with
      | some (.table origin entries tspan) => do
        let (child, b) ← descend inline dotted full edit (depth + 1) rest ⟨origin, entries, tspan⟩
        return (t.replace key.name (.tables (items.dropLast ++ [child.toNode]) span), b)
      | _ => refuseKind (.tables items span)
    | some node => refuseKind node

/-- Define `key = value` in the table reached by `path` from `t`. `headerPath` names the table
of the section, for the message of a duplicate. -/
def defineAt (inline : Bool) (headerPath : Option (List String)) (t : Table) (path : List Key)
    (key : Key) (value : Node) : Except Clash Table := do
  let (t', _) ← descend inline true path (fun target => do
      -- a dotted key reaches only dotted tables, and a plain key only the section itself
      if target.origin.isDotted == path.isEmpty then throw (.duplicateKey key.name none)
      match target.find? key.name with
      | some _ => throw (.duplicateKey key.name headerPath)
      | none => return (target.append key value, ())) 0 path t
  return t'

end RegionNet.Toml
