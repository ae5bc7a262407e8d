import RegionNet.Word

namespace RegionNet

/-!
# Element types

Every buffer, port and parameter holds values of one element type. A type has a stable tag (its
position in the list below, used in saved data), a byte size, and a name that is also its text.
-/

/-- The element types of buffers, ports and parameters, in tag order. -/
inductive ElementType where
  | byte
  | int16
  | uint16
  | int32
  | uint32
  | int64
  | uint64
  | real32
  | real64
  | handle
  deriving DecidableEq, Repr, Inhabited

namespace ElementType

/-- Every element type, in tag order. -/
def all : List ElementType :=
  [.byte, .int16, .uint16, .int32, .uint32, .int64, .uint64, .real32, .real64, .handle]

/-- The stable numeric tag of a type: its position in `all`. -/
def tag : ElementType → Nat
  | .byte => 0
  | .int16 => 1
  | .uint16 => 2
  | .int32 => 3
  | .uint32 => 4
  | .int64 => 5
  | .uint64 => 6
  | .real32 => 7
  | .real64 => 8
  | .handle => 9

/-- The number of bytes one element occupies. -/
def size : ElementType → Nat
  | .byte => 1
  | .int16 | .uint16 => 2
  | .int32 | .uint32 | .real32 => 4
  | .int64 | .uint64 | .real64 | .handle => 8

/-- Whether the type holds floating-point values. -/
def isReal : ElementType → Bool
  | .real32 | .real64 => true
  | _ => false

/-- Whether the type holds signed integers. -/
def isSigned : ElementType → Bool
  | .int16 | .int32 | .int64 => true
  | _ => false

/-- The name of a type, which is also how it is written. -/
def name : ElementType → String
  | .byte => "Byte"
  | .int16 => "Int16"
  | .uint16 => "UInt16"
  | .int32 => "Int32"
  | .uint32 => "UInt32"
  | .int64 => "Int64"
  | .uint64 => "UInt64"
  | .real32 => "Real32"
  | .real64 => "Real64"
  | .handle => "Handle"

instance : ToString ElementType := ⟨name⟩

/-- The type with a given tag, if the tag is one of the ten. -/
def ofTag? (tag : Nat) : Option ElementType :=
  all.find? (·.tag == tag)

/-- The type with a given name; names are matched exactly, case included. -/
def ofName? (text : String) : Option ElementType :=
  all.find? (·.name == text)

/-- The smallest value of an integer type (zero for unsigned types and reals). -/
def intMin : ElementType → Int
  | .int16 => -(pow2 15 : Int)
  | .int32 => -(pow2 31 : Int)
  | .int64 => -(pow2 63 : Int)
  | _ => 0

/-- The largest value of an integer type (the word maximum for reals, which have no such bound). -/
def intMax : ElementType → Int
  | .byte => (pow2 8 : Int) - 1
  | .int16 => (pow2 15 : Int) - 1
  | .uint16 => (pow2 16 : Int) - 1
  | .int32 => (pow2 31 : Int) - 1
  | .uint32 => (pow2 32 : Int) - 1
  | .int64 => (pow2 63 : Int) - 1
  | _ => (pow2 64 : Int) - 1

theorem tag_lt_ten (t : ElementType) : t.tag < 10 := by
  cases t <;> decide

theorem ofTag?_tag (t : ElementType) : ofTag? t.tag = some t := by
  cases t <;> decide

theorem ofName?_name (t : ElementType) : ofName? t.name = some t := by
  cases t <;> decide

theorem size_pos (t : ElementType) : 0 < t.size := by
  cases t <;> decide

end ElementType

end RegionNet
