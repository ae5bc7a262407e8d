import RegionNet.Json

namespace RegionNet.JsonText

/-!
# Reading JSON text: tokens and errors

The lexical layer of the JSON reader: a cursor over the UTF-8 bytes of the text, the error
codes with their texts, and the readers of string and number tokens. Positions are reported as
a line (from one) and a column counted in bytes: an error at the cursor points just behind the
last byte read, an error at the next byte points at that byte.

Numbers follow one rule set. An integer without fraction or exponent is exact when it fits a
64-bit word (non-negative) or a signed word (negative); any other number becomes a double made
from at most 19 significant digits and a decimal exponent, by one multiplication or division by
an exactly rounded power of ten. Exponents too large for the double are an error, too small ones
give zero.
-/

/-- What went wrong while reading JSON text. -/
inductive ErrorCode where
  | eofWhileParsingList
  | eofWhileParsingObject
  | eofWhileParsingString
  | eofWhileParsingValue
  | expectedColon
  | expectedListCommaOrEnd
  | expectedObjectCommaOrEnd
  | expectedSomeIdent
  | expectedSomeValue
  | invalidEscape
  | invalidNumber
  | numberOutOfRange
  | controlCharacterWhileParsingString
  | keyMustBeAString
  | loneLeadingSurrogateInHexEscape
  | trailingComma
  | trailingCharacters
  | unexpectedEndOfHexEscape
  | recursionLimitExceeded
  /-- A failure found by the reader of a typed value, with its text. -/
  | message (text : String)
  deriving DecidableEq, Repr

namespace ErrorCode

/-- The text of an error code. -/
def text : ErrorCode → String
  | .eofWhileParsingList => "EOF while parsing a list"
  | .eofWhileParsingObject => "EOF while parsing an object"
  | .eofWhileParsingString => "EOF while parsing a string"
  | .eofWhileParsingValue => "EOF while parsing a value"
  | .expectedColon => "expected `:`"
  | .expectedListCommaOrEnd => "expected `,` or `]`"
  | .expectedObjectCommaOrEnd => "expected `,` or `\x7d`"
  | .expectedSomeIdent => "expected ident"
  | .expectedSomeValue => "expected value"
  | .invalidEscape => "invalid escape"
  | .invalidNumber => "invalid number"
  | .numberOutOfRange => "number out of range"
  | .controlCharacterWhileParsingString =>
      "control character (\\u0000-\\u001F) found while parsing a string"
  | .keyMustBeAString => "key must be a string"
  | .loneLeadingSurrogateInHexEscape => "lone leading surrogate in hex escape"
  | .trailingComma => "trailing comma"
  | .trailingCharacters => "trailing characters"
  | .unexpectedEndOfHexEscape => "unexpected end of hex escape"
  | .recursionLimitExceeded => "recursion limit exceeded"
  | .message text => text

end ErrorCode

/-- A reading error; `line = 0` means the error has no position yet. -/
structure Error where
  code : ErrorCode
  line : Nat
  column : Nat
  deriving DecidableEq, Repr

/-- The text of a reading error, with its position when it has one. -/
def Error.message (e : Error) : String :=
  if e.line = 0 then e.code.text
  else s!"{e.code.text} at line {e.line} column {e.column}"

/-- A cursor over the bytes of a text. -/
structure Cursor where
  bytes : ByteArray
  index : Nat

/-- A reading step: it moves the cursor or fails. A failure keeps the cursor where it stopped,
so that a caller can finish the enclosing bracket before it reports the error. -/
abbrev Parse := EStateM Error Cursor

/-- Run a reading step from the start of a text. -/
def Parse.runOn {α : Type} (step : Parse α) (bytes : ByteArray) : Except Error α :=
  match step.run ⟨bytes, 0⟩ with
  | .ok a _ => .ok a
  | .error e _ => .error e

/-- The line (from one) and byte column of a byte offset. -/
def positionOf (bytes : ByteArray) (i : Nat) : Nat × Nat :=
  let before := (bytes.extract 0 i).toList
  let lineStart := match before.reverse.findIdx? (· == 10) with
    | some back => i - back
    | none => 0
  (1 + (before.take lineStart).count 10, i - lineStart)

/-- The byte under the cursor. -/
def peek? : Parse (Option UInt8) := do
  let c ← get
  return c.bytes[c.index]?

/-- The byte under the cursor, or zero at the end. -/
def peekOrNull : Parse UInt8 := do
  return (← peek?).getD 0

/-- Step over one byte. -/
def eat : Parse Unit := modify fun c => { c with index := c.index + 1 }

/-- Read one byte. -/
def next? : Parse (Option UInt8) := do
  let b ← peek?
  if b.isSome then eat
  return b

/-- The position just behind the last byte read. -/
def position : Parse (Nat × Nat) := do
  let c ← get
  return positionOf c.bytes c.index

/-- The position of the next byte (or the end). -/
def peekPosition : Parse (Nat × Nat) := do
  let c ← get
  return positionOf c.bytes (min c.bytes.size (c.index + 1))

/-- Fail at the position behind the last byte read. -/
def fail {α : Type} (code : ErrorCode) : Parse α := do
  let (l, col) ← position
  throw ⟨code, l, col⟩

/-- Fail at the position of the next byte. -/
def failPeek {α : Type} (code : ErrorCode) : Parse α := do
  let (l, col) ← peekPosition
  throw ⟨code, l, col⟩

/-- Give a positionless error the position behind the last byte read. -/
def fixPosition (e : Error) : Parse Error := do
  if e.line = 0 then
    let (l, col) ← position
    return { e with line := l, column := col }
  else return e

/-- An upper bound on the steps left: every step reads at least one byte. -/
def fuelLeft : Parse Nat := do
  let c ← get
  return 2 * (c.bytes.size - c.index) + 4

/-- Skip blanks (space, tab, line feed, carriage return) and look at the next byte. -/
def skipBlanks : Parse (Option UInt8) := do
  let rec go : Nat → Parse (Option UInt8)
    | 0 => peek?
    | fuel + 1 => do
      match ← peek? with
      | some b =>
        if b == 32 || b == 9 || b == 10 || b == 13 then eat; go fuel
        else return some b
      | none => return none
  go (← fuelLeft)

/-- Read the rest of a keyword whose first byte was read. -/
def expectIdent (rest : List UInt8) : Parse Unit := do
  for expected in rest do
    match ← next? with
    | none => fail .eofWhileParsingValue
    | some b => if b != expected then fail .expectedSomeIdent

/-- The value of a hexadecimal digit. -/
def hexValue (b : UInt8) : Option Nat :=
  if 48 ≤ b && b ≤ 57 then some (b.toNat - 48)
  else if 97 ≤ b && b ≤ 102 then some (b.toNat - 87)
  else if 65 ≤ b && b ≤ 70 then some (b.toNat - 55)
  else none

/-- Read the four hexadecimal digits of a `\u` escape. -/
def hexEscape : Parse Nat := do
  let c ← get
  if c.index + 4 ≤ c.bytes.size then
    let digits := (c.bytes.extract c.index (c.index + 4)).toList.map hexValue
    set { c with index := c.index + 4 }
    match digits with
    | [some a, some b, some d, some e] => return ((a * 16 + b) * 16 + d) * 16 + e
    | _ => fail .invalidEscape
  else
    set { c with index := c.bytes.size }
    fail .eofWhileParsingString

/-- The UTF-8 bytes of a code point. -/
def utf8 (n : Nat) : ByteArray := (String.singleton (Char.ofNat n)).toUTF8

/-- Read a `\u` escape (the `\u` already read), pairing surrogates. -/
def unicodeEscape : Parse ByteArray := do
  let n ← hexEscape
  if 0xDC00 ≤ n && n ≤ 0xDFFF then fail .loneLeadingSurrogateInHexEscape
  else if n < 0xD800 || n > 0xDBFF then return utf8 n
  else
    -- a leading surrogate must be followed by an escaped trailing one
    match ← peek? with
    | none => fail .eofWhileParsingString
    | some b =>
      if b != 92 then eat; fail .unexpectedEndOfHexEscape
      else
        eat
        match ← peek? with
        | none => fail .eofWhileParsingString
        | some b =>
          if b != 117 then eat; fail .unexpectedEndOfHexEscape
          else
            eat
            let n2 ← hexEscape
            if n2 < 0xDC00 || n2 > 0xDFFF then fail .loneLeadingSurrogateInHexEscape
            else return utf8 ((((n - 0xD800) * 1024) ||| (n2 - 0xDC00)) + 0x10000)

/-- Read an escape (the backslash already read). -/
def escape : Parse ByteArray := do
  match ← next? with
  | none => fail .eofWhileParsingString
  | some b =>
    if b == 34 then return ⟨#[34]⟩
    else if b == 92 then return ⟨#[92]⟩
    else if b == 47 then return ⟨#[47]⟩
    else if b == 98 then return ⟨#[8]⟩
    else if b == 102 then return ⟨#[12]⟩
    else if b == 110 then return ⟨#[10]⟩
    else if b == 114 then return ⟨#[13]⟩
    else if b == 116 then return ⟨#[9]⟩
    else if b == 117 then unicodeEscape
    else fail .invalidEscape

/-- Read the rest of a string token (the opening quote already read). -/
def stringToken : Parse String := do
  let rec go (acc : ByteArray) : Nat → Parse ByteArray
    | 0 => fail .eofWhileParsingString
    | fuel + 1 => do
      match ← peek? with
      | none => fail .eofWhileParsingString
      | some b =>
        if b == 34 then eat; return acc
        else if b == 92 then eat; let e ← escape; go (acc ++ e) fuel
        else if b < 32 then eat; fail .controlCharacterWhileParsingString
        else eat; go (acc.push b) fuel
  let bytes ← go ByteArray.empty (← fuelLeft)
  return (String.fromUTF8? bytes).getD ""

/-- The value of a decimal digit byte. -/
def digit? (b : UInt8) : Option Nat :=
  if 48 ≤ b && b ≤ 57 then some (b.toNat - 48) else none

/-- The doubles `10^0` to `10^308`, each exactly rounded. -/
def powersOfTen : Array Float :=
  (List.range 309).toArray.map fun i => (Binary64.ofNat (pow10 i)).toFloat

/-- The largest 32-bit signed integer, the range of decimal exponents. -/
def exponentMax : Int := (pow2 31 : Int) - 1

/-- Clamp an exponent to the 32-bit signed range. -/
def saturate (e : Int) : Int := max (-(pow2 31 : Int)) (min exponentMax e)

/-- The double `±significand · 10^exponent`, by one multiplication or division with an exactly
rounded power of ten (exponents beyond `±308` are first brought in range by dividing by
`10^308`). Too large a result is an error. -/
def fromParts (positive : Bool) (significand : Nat) (exponent : Int) : Parse Binary64 := do
  let rec scale (f : Float) (e : Int) : Nat → Parse Float
    | 0 => return f
    | fuel + 1 =>
      if e.natAbs ≤ 308 then
        let pow := powersOfTen.getD e.natAbs 1
        if e ≥ 0 then
          let g := f * pow
          if g.isInf then fail .numberOutOfRange else return g
        else return f / pow
      else if f == 0 then return f
      else if e ≥ 0 then fail .numberOutOfRange
      else scale (f / powersOfTen.getD 308 1) (e + 308) fuel
  let f ← scale (Binary64.ofNat significand).toFloat exponent 8
  let x := Binary64.ofFloat f
  return if positive then x else x.negate

/-- Skip decimal digits. -/
def skipDigits : Parse Unit := do
  let rec go : Nat → Parse Unit
    | 0 => return
    | fuel + 1 => do
      match (← peek?).bind digit? with
      | some _ => eat; go fuel
      | none => return
  go (← fuelLeft)

/-- Read an exponent (at the `e`), for a significand with a decimal exponent already known. -/
def exponentPart (positive : Bool) (significand : Nat) (start : Int) : Parse Binary64 := do
  eat
  let positiveExp ← do
    let b ← peekOrNull
    if b == 43 then eat; pure true
    else if b == 45 then eat; pure false
    else pure true
  let first ← match ← next? with
    | none => fail .eofWhileParsingValue
    | some b => match digit? b with
      | some d => pure d
      | none => fail .invalidNumber
  let rec go (exp : Nat) : Nat → Parse (Option Nat)
    | 0 => return some exp
    | fuel + 1 => do
      match (← peek?).bind digit? with
      | some d =>
        eat
        if exp * 10 + d > exponentMax.toNat then return none else go (exp * 10 + d) fuel
      | none => return some exp
  match ← go first (← fuelLeft) with
  | some exp =>
    let final := if positiveExp then saturate (start + exp) else saturate (start - exp)
    fromParts positive significand final
  | none =>
    -- the exponent overflows: an error for a large non-zero value, otherwise zero
    if significand != 0 && positiveExp then fail .numberOutOfRange
    else
      skipDigits
      return if positive then Binary64.zero else Binary64.zero.negate

/-- Read a fraction (at the `.`) and an optional exponent. -/
def fractionPart (positive : Bool) (significand : Nat) (before : Int) : Parse Binary64 := do
  eat
  let rec go (sig : Nat) (after : Int) : Nat → Parse (Nat × Int × Bool)
    | 0 => return (sig, after, false)
    | fuel + 1 => do
      match (← peek?).bind digit? with
      | some d =>
        if sig * 10 + d > wordMax then return (sig, after, true)
        else eat; go (sig * 10 + d) (after - 1) fuel
      | none => return (sig, after, false)
  let (sig, after, overflow) ← go significand 0 (← fuelLeft)
  if overflow then
    skipDigits
    let b ← peekOrNull
    if b == 101 || b == 69 then exponentPart positive sig (before + after)
    else fromParts positive sig (before + after)
  else
    if after == 0 then
      match ← peek? with
      | some _ => failPeek .invalidNumber
      | none => failPeek .eofWhileParsingValue
    else
      let b ← peekOrNull
      if b == 101 || b == 69 then exponentPart positive sig (before + after)
      else fromParts positive sig (before + after)

/-- Continue a number after its integer digits. -/
def numberTail (positive : Bool) (significand : Nat) : Parse JsonNumber := do
  let b ← peekOrNull
  if b == 46 then return .float (← fractionPart positive significand 0)
  else if b == 101 || b == 69 then return .float (← exponentPart positive significand 0)
  else if positive then return .nat significand
  else if significand == 0 || significand > pow2 63 then
    return .float (Binary64.ofNat significand).negate
  else return .negative (-(significand : Int))

/-- Continue an integer too long for a word: further digits only scale it. -/
def longInteger (positive : Bool) (significand : Nat) : Parse Binary64 := do
  let rec go (exponent : Int) : Nat → Parse Binary64
    | 0 => fromParts positive significand exponent
    | fuel + 1 => do
      let b ← peekOrNull
      match digit? b with
      | some _ => eat; go (exponent + 1) fuel
      | none =>
        if b == 46 then fractionPart positive significand exponent
        else if b == 101 || b == 69 then exponentPart positive significand exponent
        else fromParts positive significand exponent
  go 0 (← fuelLeft)

/-- Read a number whose sign (if any) was read. -/
def numberToken (positive : Bool) : Parse JsonNumber := do
  match ← next? with
  | none => fail .eofWhileParsingValue
  | some b =>
    if b == 48 then
      match digit? (← peekOrNull) with
      | some _ => failPeek .invalidNumber
      | none => numberTail positive 0
    else match digit? b with
      | some d =>
        let rec go (sig : Nat) : Nat → Parse JsonNumber
          | 0 => numberTail positive sig
          | fuel + 1 => do
            match (← peek?).bind digit? with
            | some d =>
              if sig * 10 + d > wordMax then return .float (← longInteger positive sig)
              else eat; go (sig * 10 + d) fuel
            | none => numberTail positive sig
        go d (← fuelLeft)
      | none => fail .invalidNumber

end RegionNet.JsonText
