import RegionNet.Ieee
import RegionNet.Elements

namespace RegionNet

/-!
# Bytes

Byte strings, their hexadecimal text (two lowercase digits per byte), and the little-endian
layout of element values: an integer of `n` bytes is stored lowest byte first, in two's
complement when its type is signed; a real is stored as its bit pattern.
-/

/-- A byte string. -/
abbrev Bytes := Array UInt8

namespace Bytes

/-- The lowercase hexadecimal digit of a nibble. -/
def hexChar (n : Nat) : Char := if n < 10 then Char.ofNat (48 + n) else Char.ofNat (87 + n)

/-- Two lowercase hexadecimal digits per byte. -/
def toHex (b : Bytes) : String :=
  String.ofList (b.toList.flatMap fun x => [hexChar (x.toNat / 16), hexChar (x.toNat % 16)])

/-- The value of a hexadecimal digit, either case. -/
def hexValue (c : Char) : Option Nat :=
  if '0' ≤ c && c ≤ '9' then some (c.toNat - 48)
  else if 'a' ≤ c && c ≤ 'f' then some (c.toNat - 87)
  else if 'A' ≤ c && c ≤ 'F' then some (c.toNat - 55)
  else none

/-- Read pairs of hexadecimal digits. -/
def ofHexChars : List Char → Option (List UInt8)
  | [] => some []
  | a :: b :: rest => do
    let hi ← hexValue a
    let lo ← hexValue b
    let tail ← ofHexChars rest
    return (hi * 16 + lo).toUInt8 :: tail
  | [_] => none

/-- The bytes of a hexadecimal text, if it is one. -/
def ofHex? (text : String) : Option Bytes := (ofHexChars text.toList).map List.toArray

/-- `n` zero bytes. -/
def zeros (n : Nat) : Bytes := Array.replicate n 0

/-- The little-endian bytes of the low `width` bytes of a natural. -/
def littleEndian (width : Nat) (n : Nat) : Bytes :=
  (List.range width).toArray.map fun i => (n / pow2 (8 * i) % 256).toUInt8

/-- The natural stored little-endian in `width` bytes from `offset`. -/
def readLittleEndian (b : Bytes) (offset width : Nat) : Nat :=
  (List.range width).foldr (fun i acc => acc * 256 + (b.getD (offset + i) 0).toNat) 0

/-- The bytes of a UTF-8 text. -/
def ofString (s : String) : Bytes := s.toUTF8.data

/-- The text of UTF-8 bytes, if they are valid. -/
def toString? (b : Bytes) : Option String := String.fromUTF8? ⟨b⟩

end Bytes

/-- The bit pattern of a double as 16 lowercase hexadecimal digits, most significant first. -/
def Binary64.bitsHex (x : Binary64) : String := Bytes.toHex (Bytes.littleEndian 8 x.bits.toNat).reverse

/-- The bit pattern of a single as 8 lowercase hexadecimal digits, most significant first. -/
def Binary32.bitsHex (x : Binary32) : String := Bytes.toHex (Bytes.littleEndian 4 x.bits.toNat).reverse

/-- The double whose bit pattern is written in hexadecimal, most significant digit first. -/
def Binary64.ofBitsHex? (text : String) : Option Binary64 :=
  (Bytes.ofHex? text).bind fun b =>
    if b.size = 8 then some ⟨(Bytes.readLittleEndian b.reverse 0 8).toUInt64⟩ else none

/-- The single whose bit pattern is written in hexadecimal, most significant digit first. -/
def Binary32.ofBitsHex? (text : String) : Option Binary32 :=
  (Bytes.ofHex? text).bind fun b =>
    if b.size = 4 then some ⟨(Bytes.readLittleEndian b.reverse 0 4).toUInt32⟩ else none

/-- One element value, as read from or written to a buffer. -/
inductive Element where
  /-- A value of an integer type or a handle. -/
  | integer (n : Int)
  /-- A single-precision value. -/
  | single (x : Binary32)
  /-- A double-precision value. -/
  | double (x : Binary64)
  deriving DecidableEq, Repr

namespace Element

/-- The element of type `t` stored at byte `offset`. -/
def read (t : ElementType) (b : Bytes) (offset : Nat) : Element :=
  let raw := b.readLittleEndian offset t.size
  match t with
  | .real32 => .single ⟨raw.toUInt32⟩
  | .real64 => .double ⟨raw.toUInt64⟩
  | t => if t.isSigned && raw ≥ pow2 (8 * t.size - 1) then .integer (raw - (pow2 (8 * t.size) : Int))
         else .integer raw

/-- The little-endian bytes of an element of type `t`. -/
def write (t : ElementType) : Element → Bytes
  | .integer n => Bytes.littleEndian t.size (n % (pow2 (8 * t.size) : Int)).toNat
  | .single x => Bytes.littleEndian t.size x.bits.toNat
  | .double x => Bytes.littleEndian t.size x.bits.toNat

/-- All elements of type `t` in a byte string, in order. -/
def readAll (t : ElementType) (b : Bytes) : List Element :=
  (List.range (b.size / t.size)).map fun i => read t b (i * t.size)

/-- The bytes of elements of type `t`, in order. -/
def writeAll (t : ElementType) (xs : List Element) : Bytes :=
  xs.foldl (fun acc x => acc ++ write t x) #[]

end Element

end RegionNet
