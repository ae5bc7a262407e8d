import Std.Data.HashMap
import RegionNet.Collection

namespace RegionNet

/-!
# Collections with a name index

The engine stores a collection's entries in order and finds them by name through a hash index
from each name to its entry's position. Adding records the position the new entry takes;
removing erases the name from the index, removes the entry and moves every later position in the
index down by one. Lookups by name go through the index and then to the entry at that position;
lookups by position go to the entries directly.
-/

/-- A collection as the engine stores it: the entries in order, and an index from each name to a
position among them. -/
structure IndexedCollection (α : Type) where
  entries : List (String × α)
  index : Std.HashMap String Nat

namespace IndexedCollection

variable {α : Type}

/-- The collection with no entries and an empty index. -/
def empty : IndexedCollection α := ⟨[], ∅⟩

/-- The entries, read as a collection in order. -/
def toCollection (c : IndexedCollection α) : Collection α := ⟨c.entries⟩

/-- The number of entries. -/
def count (c : IndexedCollection α) : Nat := c.entries.length

/-- Whether there are no entries. -/
def isEmpty (c : IndexedCollection α) : Bool := c.entries.isEmpty

/-- Whether the index holds a name. -/
def contains (c : IndexedCollection α) (name : String) : Bool := c.index.contains name

/-- The position the index gives a name. -/
def position (c : IndexedCollection α) (name : String) : Option Nat := c.index[name]?

/-- The position the index gives a name, with the item stored there. An index that points past
the entries finds nothing; no operation leaves one that does. -/
def lookup (c : IndexedCollection α) (name : String) : Option (Nat × α) := do
  let p ← c.index[name]?
  let e ← c.entries[p]?
  return (p, e.2)

/-- Where a position of the index goes when the entry at `removed` is taken out: later positions
move down by one. -/
def shiftDown (removed slot : Nat) : Nat := if slot > removed then slot - 1 else slot

/-- Append an entry under a name the index does not hold, recording its position. -/
def add (c : IndexedCollection α) (name : String) (item : α) :
    Except DataError (IndexedCollection α) :=
  if c.index.contains name then .error (.duplicateName name)
  else .ok ⟨c.entries ++ [(name, item)], c.index.insert name c.entries.length⟩

/-- Take out the entry under a name, returning its item; every later position moves down. -/
def remove (c : IndexedCollection α) (name : String) : Except DataError (α × IndexedCollection α) :=
  match c.lookup name with
  | some (p, item) =>
      .ok (item, ⟨c.entries.eraseIdx p, (c.index.erase name).map fun _ slot => shiftDown p slot⟩)
  | none => .error (.notFound name)

/-- The item stored under a name. -/
def get (c : IndexedCollection α) (name : String) : Except DataError α :=
  match c.lookup name with
  | some (_, item) => .ok item
  | none => .error (.notFound name)

/-- Replace the item under a name by `f` of it, in place. -/
def modify (c : IndexedCollection α) (name : String) (f : α → α) :
    Except DataError (IndexedCollection α) :=
  match c.lookup name with
  | some (p, _) => .ok ⟨c.entries.modify p (fun e => (e.1, f e.2)), c.index⟩
  | none => .error (.notFound name)

/-- The name and item at a position. -/
def getByIndex (c : IndexedCollection α) (index : Nat) : Except DataError (String × α) :=
  match c.entries[index]? with
  | some e => .ok e
  | none => .error (.outOfRange index c.count)

end IndexedCollection

end RegionNet
