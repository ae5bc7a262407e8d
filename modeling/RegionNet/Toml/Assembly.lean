import RegionNet.Toml.Document

namespace RegionNet.Toml

/-!
# Assembling a document from its lines

A document is read line by line. Key-value lines go into the *section* opened by the last
header (the root before any header); a new header first puts the finished section into the tree
and then opens the next one. The rules that make a document well-formed live here:

* a key is defined once in its table;
* a header names a table once, though it may name a table that so far exists only as the parent
  of another header, which it then takes over with its children;
* `[[name]]` adds a table to an array of tables, and the array must not be anything else;
* dotted keys create and extend their own tables, and only those.

A finished section goes back to the end of its parent's entries, so a table that a header takes
over moves behind the entries made since.
-/

/-- A line of a document, as far as the tree is concerned. -/
inductive Line where
  /-- `a.b.key = value`, with the dotted prefix apart. -/
  | keyval (path : List Key) (key : Key) (value : Node)
  /-- `[a.b]`, with the bytes of the header. -/
  | header (path : List Key) (span : Span)
  /-- `[[a.b]]`, with the bytes of the header. -/
  | arrayHeader (path : List Key) (span : Span)
  /-- A comment or an empty line. -/
  | blank
  deriving Repr

/-- The clash of a header that names something already defined: the key as spelled and the
names of the keys before it. -/
def redefinition (path : List Key) : Clash :=
  let i := path.length - 1
  .duplicateKey (keySpelling ((path.getD i default).name)) (some (pathNames path i))

/-- The span from the first to the last of a list of tables, when both have one. -/
def spanOfTables (items : List Node) : Option Span :=
  match items.head?.bind Node.span?, items.getLast?.bind Node.span? with
  | some first, some last => some ⟨first.start, last.stop⟩
  | _, _ => none

/-- The state of reading a document: the tree of finished sections and the open section. -/
structure Assembly where
  root : Table
  current : Table
  /-- The header path of the open section; empty for the root. -/
  path : List Key
  /-- Whether the open section is a table of an array of tables. -/
  isArray : Bool
  deriving Repr, Inhabited

namespace Assembly

/-- Before the first line: the root is open and spans nothing yet. -/
def initial : Assembly := ⟨⟨.header, [], none⟩, ⟨.header, [], some ⟨0, 0⟩⟩, [], false⟩

/-- Define a key in the open section; the section's span grows to the end of the value. -/
def define (a : Assembly) (path : List Key) (key : Key) (value : Node) : Except Clash Assembly := do
  let span := match a.current.span, value.span? with
    | some s, some v => some ⟨s.start, v.stop⟩
    | s, _ => s
  let current ← defineAt false (some (a.path.map Key.name)) { a.current with span := span } path
    key value
  return { a with current := current }

/-- Put the open section into the tree and return the tree. -/
def finish (a : Assembly) : Except Clash Table :=
  match a.path.getLast? with
  | none => return a.current
  | some last => do
    let done := a.current.toNode
    let (root, _) ← descend false false a.path (fun parent =>
        match parent.find? last.name, a.isArray with
        | none, true => return (parent.append last (.tables [done] (spanOfTables [done])), ())
        | some (.tables items _), true =>
          let items' := items ++ [done]
          return (parent.replace last.name (.tables items' (spanOfTables items')), ())
        | none, false => return (parent.append last done, ())
        | some (.table origin _ _), false =>
          if origin.isImplicit then return (parent.replace last.name done, ())
          else throw (redefinition a.path)
        | some _, _ => throw (redefinition a.path)) 0 a.path.dropLast a.root
    return root

/-- Open the section of a header `[path]` over a finished tree. -/
def openTable (root : Table) (path : List Key) (span : Span) : Except Clash Assembly := do
  let last := path.getLastD default
  let (root', taken) ← descend false false path (fun parent =>
      match parent.find? last.name with
      | none => return (parent, [])
      | some (.table .implicit entries _) => return (parent.erase last.name, entries)
      | some _ => throw (redefinition path)) 0 path.dropLast root
  return ⟨root', ⟨.header, taken, some span⟩, path, false⟩

/-- Open the section of a header `[[path]]` over a finished tree. -/
def openArrayTable (root : Table) (path : List Key) (span : Span) : Except Clash Assembly := do
  let last := path.getLastD default
  let (root', _) ← descend false false path (fun parent =>
      match parent.find? last.name with
      | none => return (parent.append last (.tables [] none), ())
      | some (.tables _ _) => return (parent, ())
      | some _ => throw (redefinition path)) 0 path.dropLast root
  return ⟨root', ⟨.header, [], some span⟩, path, true⟩

/-- Take in one line. -/
def apply (a : Assembly) : Line → Except Clash Assembly
  | .keyval path key value => a.define path key value
  | .header path span => do openTable (← a.finish) path span
  | .arrayHeader path span => do openArrayTable (← a.finish) path span
  | .blank => return a

end Assembly

end RegionNet.Toml
