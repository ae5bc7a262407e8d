import RegionNet.Bytes
import RegionNet.DataError

namespace RegionNet

/-!
# Typed buffers

A typed buffer holds `count` elements of one element type. Its backing storage is in one of
three states: none yet (`unset`), bytes of its own (`owned`), or bytes it borrows and may only
read (`borrowed`). Allocation goes from unset to owned, binding from unset to borrowed, and
release always back to unset with no elements.

```text
unset --allocate--> owned --release--> unset
unset --bindExternal--> borrowed --release--> unset
```

A borrowed block may be longer than the elements need; only its first `count · size` bytes are
the buffer's contents. Reading elements of an unbound buffer gives no elements for one-byte types
and fails for wider ones, whose empty view is not aligned.
-/

/-- The backing storage of a buffer. -/
inductive Backing where
  /-- No storage. -/
  | unset
  /-- Storage the buffer owns and may write. -/
  | owned (bytes : Bytes)
  /-- A block the buffer reads but does not own. -/
  | borrowed (bytes : Bytes)
  deriving DecidableEq, Repr

/-- The three ownership states, as they are named. -/
inductive Ownership where
  | unset
  | owned
  | borrowed
  deriving DecidableEq, Repr

/-- The name of an ownership state. -/
def Ownership.name : Ownership → String
  | .unset => "Unset"
  | .owned => "Owned"
  | .borrowed => "Borrowed"

/-- A buffer of `count` elements of one type over its backing storage. -/
structure Buffer where
  elementType : ElementType
  count : Nat
  backing : Backing
  deriving DecidableEq, Repr

/-- The text of a buffer that cannot be allocated because its byte length overflows. -/
def allocationOverflowText (t : ElementType) (count : Nat) : String :=
  s!"{count} elements of {t.name} overflow usize"

namespace Buffer

/-- An unbound buffer of a type. -/
def new (t : ElementType) : Buffer := ⟨t, 0, .unset⟩

/-- The byte length that `count` elements of the buffer's type need, if it fits in a word. -/
def byteLenFor (b : Buffer) (count : Nat) : Except DataError Nat :=
  match checkedMul count b.elementType.size with
  | some n => .ok n
  | none => .error (.tooLarge count b.elementType.size)

/-- An owned zero-filled buffer of `count` elements; fails with the overflow text when the byte
length does not fit in a word. -/
def allocated (t : ElementType) (count : Nat) : Except String Buffer :=
  match checkedMul count t.size with
  | some n => .ok ⟨t, count, .owned (Bytes.zeros n)⟩
  | none => .error (allocationOverflowText t count)

/-- An owned buffer holding elements. -/
def ofElements (t : ElementType) (xs : List Element) : Buffer :=
  ⟨t, xs.length, .owned (Element.writeAll t xs)⟩

/-- Whether the buffer has backing storage. -/
def isBound (b : Buffer) : Bool :=
  match b.backing with
  | .unset => false
  | _ => true

/-- The ownership state. -/
def ownership (b : Buffer) : Ownership :=
  match b.backing with
  | .unset => .unset
  | .owned _ => .owned
  | .borrowed _ => .borrowed

/-- The number of bytes the elements occupy. -/
def byteLen (b : Buffer) : Nat := b.count * b.elementType.size

/-- Give an unbound buffer `count` zero elements of its own. -/
def allocate (b : Buffer) (count : Nat) : Except DataError Buffer := do
  if b.isBound then throw .alreadyBound
  let n ← b.byteLenFor count
  return ⟨b.elementType, count, .owned (Bytes.zeros n)⟩

/-- Let an unbound buffer read `count` elements from the start of a block. -/
def bindExternal (b : Buffer) (data : Bytes) (count : Nat) : Except DataError Buffer := do
  if b.isBound then throw .alreadyBound
  let needed ← b.byteLenFor count
  if needed > data.size then throw (.outOfRange needed data.size)
  return ⟨b.elementType, count, .borrowed data⟩

/-- Drop the backing storage; the buffer keeps its type and has no elements. -/
def release (b : Buffer) : Buffer := ⟨b.elementType, 0, .unset⟩

/-- The bytes of the elements (none when unbound). -/
def raw (b : Buffer) : Bytes :=
  match b.backing with
  | .unset => #[]
  | .owned bytes => bytes.extract 0 b.byteLen
  | .borrowed bytes => bytes.extract 0 b.byteLen

/-- Whether the buffer's bytes may be written: only owned storage may. -/
def writable (b : Buffer) : Except DataError Unit :=
  match b.backing with
  | .unset => .error .unbound
  | .borrowed _ => .error .readOnly
  | .owned _ => .ok ()

/-- Replace the bytes of an owned buffer (the caller gives exactly `byteLen` bytes). -/
def overwrite (b : Buffer) (bytes : Bytes) : Except DataError Buffer := do
  b.writable
  return { b with backing := .owned bytes }

/-- Check that the buffer holds elements of type `t`. -/
def checkType (b : Buffer) (t : ElementType) : Except DataError Unit :=
  if b.elementType = t then .ok () else .error (.typeMismatch t b.elementType)

/-- The elements, read as type `t`. An unbound buffer of a type wider than one byte has no
aligned view. -/
def read (b : Buffer) (t : ElementType) : Except DataError (List Element) := do
  b.checkType t
  if !b.isBound && t.size > 1 then throw (.invalidType "TargetAlignmentGreaterAndInputNotAligned")
  return Element.readAll t b.raw

/-- The number of elements of a writable view as type `t`. -/
def writableCount (b : Buffer) (t : ElementType) : Except DataError Nat := do
  b.checkType t
  b.writable
  return b.count

/-- Set every byte of an owned buffer to zero. -/
def zero (b : Buffer) : Except DataError Buffer := do
  b.writable
  return { b with backing := .owned (Bytes.zeros b.byteLen) }

/-- An owned copy of the elements, whatever the buffer's ownership. -/
def toOwnedCopy (b : Buffer) : Buffer := ⟨b.elementType, b.count, .owned b.raw⟩

/-- Write every element of `src` into the buffer from element `offset` on. The end of the
window is word arithmetic that panics on overflow; the byte positions after the range check lie
within the buffer's bytes. -/
def copyFromAt (b : Buffer) (offset : Nat) (src : Buffer) : Except DataError Buffer := do
  if src.elementType ≠ b.elementType then throw (.typeMismatch b.elementType src.elementType)
  let stop ← addOrPanic 64 offset src.count
  if stop > b.count then throw (.outOfRange stop b.count)
  b.writable
  let size := b.elementType.size
  let bytes := b.raw
  let written := bytes.extract 0 (offset * size) ++ src.raw ++ bytes.extract (stop * size) bytes.size
  return { b with backing := .owned written }

/-- Buffers are equal when type, count and element bytes agree. -/
def sameContents (a b : Buffer) : Bool :=
  a.elementType == b.elementType && a.count == b.count && a.raw == b.raw

end Buffer

/-- A read-only view of a buffer: it can be bound to a block or released, never written. -/
structure ArrayView where
  buffer : Buffer
  deriving DecidableEq, Repr

namespace ArrayView

/-- An unbound view of a type. -/
def new (t : ElementType) : ArrayView := ⟨Buffer.new t⟩

/-- A view over a snapshot of a buffer's elements. -/
def ofBuffer (b : Buffer) : ArrayView := ⟨⟨b.elementType, b.count, .borrowed b.raw⟩⟩

/-- Bind the view to a block. -/
def bindExternal (v : ArrayView) (data : Bytes) (count : Nat) : Except DataError ArrayView :=
  (v.buffer.bindExternal data count).map ArrayView.mk

/-- Release the view's block. -/
def release (v : ArrayView) : ArrayView := ⟨v.buffer.release⟩

end ArrayView

end RegionNet
