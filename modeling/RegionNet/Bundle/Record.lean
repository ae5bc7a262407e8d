import RegionNet.Text.Utf8
import RegionNet.Files.Error

namespace RegionNet.Record

/-!
# Fixed-width records

The byte layout of a region's saved state: fields follow each other with no tags. An integer
field takes a fixed number of bytes, least significant first, in two's complement when signed;
a real takes the bytes of its bit pattern; a text or a sequence is its length as an 8-byte
field followed by its bytes or its items.

Decoding reads the fields in order from a stream. Running out of bytes, or a stream whose reads
fail, ends decoding with an error that names the failed read; a text must be valid UTF-8.
-/

/-- Why decoding a record failed. -/
inductive DecodeError where
  /-- A read of the stream failed; running out of bytes is `unexpectedEnd`. -/
  | read (e : Files.IoError)
  /-- A text field is not UTF-8: where its valid prefix ends, and the fault's length. -/
  | invalidText (fault : Nat × Option Nat)
  deriving DecidableEq, Repr

/-- The text of a decoding error. -/
def DecodeError.message : DecodeError → String
  | .read e => "io error: " ++ e.message
  | .invalidText fault => "string is not valid utf8: " ++ Text.utf8FaultText fault

/-- An unsigned field of `width` bytes. -/
def word (width n : Nat) : Bytes := Bytes.littleEndian width n

/-- A signed field of `width` bytes, in two's complement. -/
def signed (width : Nat) (n : Int) : Bytes :=
  Bytes.littleEndian width (n % (pow2 (8 * width) : Int)).toNat

/-- A length, as an 8-byte field. -/
def length (n : Nat) : Bytes := word 8 n

/-- A text: its byte length, then its UTF-8 bytes. -/
def text (s : String) : Bytes := length s.utf8ByteSize ++ Bytes.ofString s

/-- A sequence: its item count, then each item. -/
def sequence {α : Type} (item : α → Bytes) (xs : List α) : Bytes :=
  xs.foldl (fun acc x => acc ++ item x) (length xs.length)

/-- A decoder reads fields from a stream (the bytes its reads give, or the error every read
gives) at a position. -/
abbrev Decoder := ReaderT (Except Files.IoError Bytes) (StateT Nat (Except DecodeError))

/-- Read `n` bytes. -/
def take (n : Nat) : Decoder Bytes := do
  match ← read with
  | .error e => throw (.read e)
  | .ok bytes =>
    let pos ← get
    if pos + n > bytes.size then throw (.read .unexpectedEnd)
    set (pos + n)
    return bytes.extract pos (pos + n)

/-- Read an unsigned field of `width` bytes. -/
def readWord (width : Nat) : Decoder Nat := do
  let b ← take width
  return Bytes.readLittleEndian b 0 width

/-- Read a signed field of `width` bytes. -/
def readSigned (width : Nat) : Decoder Int := do
  let n ← readWord width
  return if n ≥ pow2 (8 * width - 1) then (n : Int) - (pow2 (8 * width) : Int) else n

/-- Read a text field. -/
def readText : Decoder String := do
  let n ← readWord 8
  let b ← take n
  match Bytes.toString? b with
  | some s => return s
  | none => throw (.invalidText ((Text.utf8Fault b).getD (0, none)))

/-- Read `n` items. -/
def readItems {α : Type} (item : Decoder α) : Nat → Decoder (List α)
  | 0 => pure []
  | n + 1 => do
    let x ← item
    let rest ← readItems item n
    return x :: rest

/-- Read a sequence field. -/
def readSequence {α : Type} (item : Decoder α) : Decoder (List α) := do
  readItems item (← readWord 8)

/-- Decode a record from the start of a stream; bytes after it are ignored. -/
def Decoder.decode {α : Type} (d : Decoder α) (stream : Except Files.IoError Bytes) :
    Except DecodeError α :=
  (ReaderT.run d stream |>.run 0).map (·.1)

/-- A text field takes eight bytes more than the text's UTF-8 bytes. -/
theorem text_size (s : String) : (text s).size = 8 + s.utf8ByteSize := by
  simp [text, length, word, Bytes.littleEndian, Bytes.ofString, String.size_toByteArray]

end RegionNet.Record
