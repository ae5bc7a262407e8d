import RegionNet.DataError

namespace RegionNet

/-!
# Named collections

A collection holds items under unique names and keeps them in the order they were added.
Removing an item closes the gap, so positions always run from zero to the count.
-/

/-- Items under unique names, in insertion order. -/
structure Collection (α : Type) where
  entries : List (String × α)
  deriving Repr, Inhabited, DecidableEq

namespace Collection

variable {α : Type}

/-- The collection with no items. -/
def empty : Collection α := ⟨[]⟩

/-- The names, in order. -/
def names (c : Collection α) : List String := c.entries.map (·.1)

/-- The items, in order. -/
def items (c : Collection α) : List α := c.entries.map (·.2)

/-- The number of items. -/
def count (c : Collection α) : Nat := c.entries.length

/-- Whether there are no items. -/
def isEmpty (c : Collection α) : Bool := c.entries.isEmpty

/-- The item stored under a name, if any. -/
def find? (c : Collection α) (name : String) : Option α :=
  (c.entries.find? (·.1 == name)).map (·.2)

/-- Whether an item is stored under a name. -/
def contains (c : Collection α) (name : String) : Bool := c.entries.any (·.1 == name)

/-- The position of a name, if present. -/
def position (c : Collection α) (name : String) : Option Nat := c.entries.findIdx? (·.1 == name)

/-- Append an item under a new name. -/
def add (c : Collection α) (name : String) (item : α) : Except DataError (Collection α) :=
  if c.contains name then .error (.duplicateName name)
  else .ok ⟨c.entries ++ [(name, item)]⟩

/-- Remove the item under a name, returning it and the rest in their order. -/
def remove (c : Collection α) (name : String) : Except DataError (α × Collection α) :=
  match c.find? name with
  | some item => .ok (item, ⟨c.entries.filter (·.1 != name)⟩)
  | none => .error (.notFound name)

/-- The item stored under a name. -/
def get (c : Collection α) (name : String) : Except DataError α :=
  match c.find? name with
  | some item => .ok item
  | none => .error (.notFound name)

/-- Replace the item under a name by `f` of it. -/
def modify (c : Collection α) (name : String) (f : α → α) : Except DataError (Collection α) :=
  if c.contains name then
    .ok ⟨c.entries.map fun e => if e.1 == name then (e.1, f e.2) else e⟩
  else .error (.notFound name)

/-- The name and item at a position. -/
def getByIndex (c : Collection α) (index : Nat) : Except DataError (String × α) :=
  match c.entries[index]? with
  | some e => .ok e
  | none => .error (.outOfRange index c.count)

theorem count_add {c c' : Collection α} {name : String} {item : α}
    (h : c.add name item = .ok c') : c'.count = c.count + 1 := by
  unfold add at h
  split at h
  · cases h
  · cases h; simp [count]

end Collection

end RegionNet
