import RegionNet.Elements

namespace RegionNet

/-!
# Errors of the data layer

The failures of element types, dimensions, named collections and typed buffers. Each constructor
carries exactly the data its message shows; `DataError.message` holds all the wording.

One constructor is not an error the engine returns: `panicked` stands for a panic, which the
engine's overflow-checked arithmetic raises and which ends the whole request. Word arithmetic that
the engine does not check itself is `addOrPanic` and `mulOrPanic`, and a vector that would need
more than `isizeMax` bytes is `reserveOrPanic`.
-/

/-- A failure of an element-type, dimension, collection or buffer operation. -/
inductive DataError where
  /-- A name is already present in a collection. -/
  | duplicateName (name : String)
  /-- A name is absent from a collection. -/
  | notFound (name : String)
  /-- An index is not below the count it addresses. -/
  | outOfRange (index count : Nat)
  /-- A buffer that already has backing storage was given more. -/
  | alreadyBound
  /-- The byte length of `count` elements of `elementSize` bytes does not fit in a word. -/
  | tooLarge (count elementSize : Nat)
  /-- A type name, tag or byte view that is not valid. -/
  | invalidType (detail : String)
  /-- A buffer holds `actual` elements where `expected` elements were requested. -/
  | typeMismatch (expected actual : ElementType)
  /-- A borrowed buffer was asked for writable bytes. -/
  | readOnly
  /-- A buffer without backing storage was asked for writable bytes. -/
  | unbound
  /-- Dimensions that are malformed or do not address a coordinate. -/
  | invalidDimensions (detail : String)
  /-- The operation panicked with this message. -/
  | panicked (message : String)
  deriving DecidableEq, Repr

namespace DataError

/-- The text of an error. -/
def message : DataError → String
  | .duplicateName name => s!"Duplicate name: {name}"
  | .notFound name => s!"Not found: {name}"
  | .outOfRange index count => s!"Index {index} out of range (count {count})"
  | .alreadyBound => "Buffer already has a backing allocation"
  | .tooLarge count elementSize => s!"{count} elements of {elementSize} bytes exceed the address space"
  | .invalidType detail => s!"Invalid basic type: {detail}"
  | .typeMismatch expected actual =>
      s!"Type mismatch: buffer holds {actual.name}, requested {expected.name}"
  | .readOnly => "Buffer is borrowed and cannot be written"
  | .unbound => "Buffer has no backing allocation"
  | .invalidDimensions detail => s!"Invalid dimensions: {detail}"
  | .panicked message => message

/-- The constructor name of an error, as the error kinds are listed. -/
def kind : DataError → String
  | .duplicateName _ => "DuplicateName"
  | .notFound _ => "NotFound"
  | .outOfRange _ _ => "OutOfRange"
  | .alreadyBound => "AlreadyBound"
  | .tooLarge _ _ => "TooLarge"
  | .invalidType _ => "InvalidType"
  | .typeMismatch _ _ => "TypeMismatch"
  | .readOnly => "ReadOnly"
  | .unbound => "Unbound"
  | .invalidDimensions _ => "InvalidDimensions"
  | .panicked _ => "Panic"

end DataError

/-- Unsigned addition in `bits`-bit words with overflow checks: a sum that does not fit panics. -/
def addOrPanic (bits a b : Nat) : Except DataError Nat :=
  if a + b < pow2 bits then .ok (a + b) else .error (.panicked "attempt to add with overflow")

/-- Unsigned multiplication in `bits`-bit words with overflow checks: a product that does not fit
panics. -/
def mulOrPanic (bits a b : Nat) : Except DataError Nat :=
  if a * b < pow2 bits then .ok (a * b) else .error (.panicked "attempt to multiply with overflow")

/-- Room for `count` values of `size` bytes each in one vector; more than `isizeMax` bytes
panics. -/
def reserveOrPanic (size count : Nat) : Except DataError Unit :=
  if count * size ≤ isizeMax then .ok () else .error (.panicked "capacity overflow")

@[simp]
theorem addOrPanic_of_lt {bits a b : Nat} (fits : a + b < pow2 bits) :
    addOrPanic bits a b = .ok (a + b) := by
  simp [addOrPanic, fits]

@[simp]
theorem mulOrPanic_of_lt {bits a b : Nat} (fits : a * b < pow2 bits) :
    mulOrPanic bits a b = .ok (a * b) := by
  simp [mulOrPanic, fits]

theorem addOrPanic_of_le {bits a b : Nat} (overflows : pow2 bits ≤ a + b) :
    addOrPanic bits a b = .error (.panicked "attempt to add with overflow") := by
  simp [addOrPanic, Nat.not_lt.mpr overflows]

theorem mulOrPanic_of_le {bits a b : Nat} (overflows : pow2 bits ≤ a * b) :
    mulOrPanic bits a b = .error (.panicked "attempt to multiply with overflow") := by
  simp [mulOrPanic, Nat.not_lt.mpr overflows]

@[simp]
theorem reserveOrPanic_of_le {size count : Nat} (fits : count * size ≤ isizeMax) :
    reserveOrPanic size count = .ok () := by
  simp [reserveOrPanic, fits]

/-- A checked sum that succeeds is the sum, and it fits. -/
theorem addOrPanic_eq_ok {bits a b n : Nat} :
    addOrPanic bits a b = .ok n ↔ n = a + b ∧ a + b < pow2 bits := by
  unfold addOrPanic
  split <;> simp_all [eq_comm]

/-- A checked product that succeeds is the product, and it fits. -/
theorem mulOrPanic_eq_ok {bits a b n : Nat} :
    mulOrPanic bits a b = .ok n ↔ n = a * b ∧ a * b < pow2 bits := by
  unfold mulOrPanic
  split <;> simp_all [eq_comm]

/-- A checked sum either gives the sum or panics. -/
theorem addOrPanic_ok_or_panics (bits a b : Nat) :
    addOrPanic bits a b = .ok (a + b) ∨
      addOrPanic bits a b = .error (.panicked "attempt to add with overflow") := by
  unfold addOrPanic
  split <;> simp

/-- A checked product either gives the product or panics. -/
theorem mulOrPanic_ok_or_panics (bits a b : Nat) :
    mulOrPanic bits a b = .ok (a * b) ∨
      mulOrPanic bits a b = .error (.panicked "attempt to multiply with overflow") := by
  unfold mulOrPanic
  split <;> simp

namespace ElementType

/-- The type with a given tag, or the error naming the tag. -/
def ofTag (tag : Nat) : Except DataError ElementType :=
  match ofTag? tag with
  | some t => .ok t
  | none => .error (.invalidType s!"tag {tag}")

/-- The type with a given name, or the error naming the text. -/
def ofName (text : String) : Except DataError ElementType :=
  match ofName? text with
  | some t => .ok t
  | none => .error (.invalidType text)

end ElementType

end RegionNet
