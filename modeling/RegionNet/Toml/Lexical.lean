import RegionNet.Toml.Scan
import RegionNet.Decimal.Nearest

namespace RegionNet.Toml

/-!
# The words of TOML

Blanks, comments and line ends; keys; the four spellings of strings; integers in four bases,
floating-point numbers and dates and times. Each scan follows the grammar of TOML 1.0 and, where
the text cannot be right any more, commits with the context that its messages name.
-/

open Scan

/-- The byte of an ASCII character. -/
def asciiByte (c : Char) : UInt8 := c.toUInt8

/-- Spaces and tabs. -/
def isBlankByte (b : UInt8) : Bool := b == 32 || b == 9

/-- The bytes a comment may hold: tab, printable ASCII, and anything beyond ASCII. -/
def isCommentByte (b : UInt8) : Bool := b == 9 || (b ≥ 0x20 && b ≤ 0x7E) || b ≥ 0x80

/-- Decimal digits. -/
def isDigitByte (b : UInt8) : Bool := b ≥ 48 && b ≤ 57

/-- Hexadecimal digits, either case. -/
def isHexByte (b : UInt8) : Bool :=
  isDigitByte b || (b ≥ 65 && b ≤ 70) || (b ≥ 97 && b ≤ 102)

/-- The value of a hexadecimal digit. -/
def hexDigitValue (b : UInt8) : Nat :=
  if isDigitByte b then b.toNat - 48 else if b ≥ 97 then b.toNat - 87 else b.toNat - 55

/-- Skip spaces and tabs. -/
def blanks : Scan Unit := do let _ ← takeWhile isBlankByte

/-- A comment, up to the end of its line. -/
def comment : Scan Unit := do
  byte (asciiByte '#')
  let _ ← takeWhile isCommentByte

/-- A line feed, or a carriage return and a line feed. -/
def newline : Scan Unit := do
  let b ← anyByte
  if b == 10 then return ()
  else if b == 13 then byte 10
  else fail

/-- The end of a line or of the text. -/
def lineEnding : Scan Unit := orElse newline eof

/-- What may follow a value or header on its line: blanks, a comment, the line's end. -/
def lineTrailing : Scan Unit := do
  blanks
  let _ ← attempt comment
  lineEnding

/-- Blanks, comments and line ends, as many as there are (inside arrays). -/
def blankLinesSteps : Nat → Scan Unit
  | 0 => pure ()
  | fuel + 1 => do
    let start ← here
    blanks
    match ← peek with
    | some 35 => comment; newline
    | some 10 => newline
    | some 13 => newline
    | _ => return ()
    if (← here) == start then return () else blankLinesSteps fuel

/-- Blanks, comments and line ends, as many as there are (inside arrays). -/
def blankLines : Scan Unit := fun input pos => blankLinesSteps (input.size + 1 - pos) input pos

/-! ## Strings -/

/-- The bytes a basic string holds as they are. -/
def isBasicByte (b : UInt8) : Bool :=
  isBlankByte b || b == 0x21 || (b ≥ 0x23 && b ≤ 0x5B) || (b ≥ 0x5D && b ≤ 0x7E) || b ≥ 0x80

/-- The bytes a literal string holds. -/
def isLiteralByte (b : UInt8) : Bool :=
  b == 9 || (b ≥ 0x20 && b ≤ 0x26) || (b ≥ 0x28 && b ≤ 0x7E) || b ≥ 0x80

/-- Whether a natural is the code point of a character. -/
def isScalarValue (n : Nat) : Bool := n < 0xD800 || (0xE000 ≤ n && n ≤ 0x10FFFF)

/-- Exactly `n` hexadecimal digits naming a character. -/
def hexEscape (n : Nat) : Scan Char := do
  let start ← here
  let count ← takeWhileUpTo n isHexByte
  if count ≠ n then
    moveTo start
    fail
  else
    let digits ← fun input pos => EStateM.Result.ok (input.extract start (start + n)) pos
    let v := digits.data.foldl (fun acc b => acc * 16 + hexDigitValue b) 0
    if isScalarValue v then return Char.ofNat v
    else
      moveTo start
      refuse .outOfRange

/-- The escapes after a backslash, spelled for messages. -/
def escapeLetters : List String :=
  ["`b`", "`f`", "`n`", "`r`", "`t`", "`u`", "`U`", "`\\`", "`\"`"]

/-- What follows a backslash in a basic string. -/
def escapeSequence : Scan Char := do
  let b ← anyByte
  match Char.ofNat b.toNat with
  | 'b' => return '\x08'
  | 'f' => return '\x0c'
  | 'n' => return '\n'
  | 'r' => return '\r'
  | 't' => return '\t'
  | '\\' => return '\\'
  | '"' => return '"'
  | 'u' => labelled "unicode 4-digit hex code" (commit (hexEscape 4))
  | 'U' => labelled "unicode 8-digit hex code" (commit (hexEscape 8))
  | _ => expecting escapeLetters (labelled "escape sequence" (commit fail))

/-- A backslash escape. -/
def escaped : Scan Char := do
  byte (asciiByte '\\')
  escapeSequence

/-- A run of bytes that pass a test, at least one, as text. -/
def chunk (p : UInt8 → Bool) : Scan String := do
  let start ← here
  let _ ← takeWhile1 p
  text start (← here)

/-- A piece of a basic string: plain bytes or one escape. -/
def basicPiece : Scan String := orElse (chunk isBasicByte) (do return (← escaped).toString)

/-- A basic string `"…"`. -/
def basicString : Scan String := do
  byte 34
  let pieces ← many basicPiece
  labelled "basic string" (commit (byte 34))
  return String.join pieces

/-- A literal string `'…'`. -/
def literalString : Scan String := labelled "literal string" do
  byte 39
  let start ← here
  let _ ← takeWhile isLiteralByte
  let stop ← here
  commit (byte 39)
  text start stop

/-- One or two quote bytes inside a multi-line string, when `after` follows them. -/
def innerQuotes (quote : UInt8) (after : Scan Unit) : Scan String := do
  let q := Char.ofNat quote.toNat
  orElse
    (do byte quote; byte quote; lookAhead after; return String.ofList [q, q])
    (do byte quote; lookAhead after; return q.toString)

/-- A backslash ending a line, with the line breaks and blanks after it. -/
def lineContinuationOnce : Scan Unit := do
  byte (asciiByte '\\')
  blanks
  newline
  let _ ← many (orElse newline (do let _ ← takeWhile1 isBlankByte))

/-- Backslashes at lines' ends: they remove the line breaks and the blanks after them. -/
def lineContinuation : Scan Unit := do
  lineContinuationOnce
  let _ ← many lineContinuationOnce

/-- A piece of a multi-line basic string. -/
def multilineBasicPiece : Scan String :=
  firstOf [chunk isBasicByte, (do lineContinuation; return ""), (do return (← escaped).toString),
    (do newline; return "\n")]

/-- The body of a multi-line basic string. -/
def multilineBasicBody : Scan String := do
  let first ← many multilineBasicPiece
  let rest ← many (do
    let q ← innerQuotes 34 (do let _ ← satisfy (· != 34))
    let p ← multilineBasicPiece
    let ps ← many multilineBasicPiece
    return q ++ p ++ String.join ps)
  let tail ← attempt (innerQuotes 34 (word "\"\"\""))
  return String.join first ++ String.join rest ++ tail.getD ""

/-- A multi-line basic string `"""…"""`. -/
def multilineBasicString : Scan String := labelled "multiline basic string" do
  word "\"\"\""
  let _ ← attempt newline
  let body ← commit multilineBasicBody
  commit (word "\"\"\"")
  return body

/-- A piece of a multi-line literal string: one byte or a line break. -/
def multilineLiteralPiece : Scan Unit := orElse (do let _ ← satisfy isLiteralByte) newline

/-- The body of a multi-line literal string, with its line breaks made line feeds. -/
def multilineLiteralBody : Scan String := do
  let start ← here
  let _ ← many multilineLiteralPiece
  let _ ← many (do
    let _ ← innerQuotes 39 (do let _ ← satisfy (· != 39))
    multilineLiteralPiece
    let _ ← many multilineLiteralPiece)
  let _ ← attempt (innerQuotes 39 (word "'''"))
  let raw ← text start (← here)
  return raw.replace "\r\n" "\n"

/-- A multi-line literal string `'''…'''`. -/
def multilineLiteralString : Scan String := labelled "multiline literal string" do
  word "'''"
  let _ ← attempt newline
  let body ← commit multilineLiteralBody
  commit (word "'''")
  return body

/-- A string in any of its four spellings. -/
def string : Scan String :=
  firstOf [multilineBasicString, basicString, multilineLiteralString, literalString]

/-! ## Keys -/

/-- A key without quotes. -/
def bareKey : Scan String := chunk isBareKeyByte

/-- One key: quoted, literal or bare. -/
def simpleKey : Scan Key := do
  let start ← here
  let name ← match ← peek with
    | some 34 => basicString
    | some 39 => literalString
    | some _ => bareKey
    | none => fail
  return ⟨name, ⟨start, ← here⟩⟩

/-- The most keys a dotted key may have, and the deepest nesting of values. -/
def nestingLimit : Nat := 80

/-- A dotted key: keys joined by `.`, blanks allowed around each. -/
def dottedKey : Scan (List Key) :=
  checked
    (labelled "key" (separated1 (do blanks; let k ← simpleKey; blanks; return k)
      (byte (asciiByte '.'))))
    fun keys => if keys.length < nestingLimit then .ok keys else .error .recursionLimit

/-! ## Numbers -/

/-- Digits that may be split by single underscores, after a first digit. -/
def moreDigits (p : UInt8 → Bool) : Scan Unit := do
  let _ ← many (orElse (do let _ ← satisfy p)
    (do byte 95; note (.expected "digit") (commit (do let _ ← satisfy p))))

/-- The text of a decimal integer: a sign, then `0` or digits not starting with `0`. -/
def decimalIntegerText : Scan String := labelled "integer" do
  let start ← here
  let _ ← attempt (satisfy fun b => b == 43 || b == 45)
  orElse (do let _ ← satisfy (fun b => b ≥ 49 && b ≤ 57); moreDigits isDigitByte)
    (do let _ ← satisfy isDigitByte)
  text start (← here)

/-- Digits where a leading zero is allowed. -/
def digitRun : Scan Unit := do
  let _ ← satisfy isDigitByte
  moreDigits isDigitByte

/-- An exponent part. -/
def exponentPart : Scan Unit := do
  let _ ← satisfy fun b => b == 101 || b == 69
  let _ ← attempt (satisfy fun b => b == 43 || b == 45)
  commit digitRun

/-- A fraction part. -/
def fractionPart : Scan Unit := do
  byte 46
  note (.expected "digit") (commit digitRun)

/-- The text of a decimal floating-point number. -/
def floatText : Scan String := do
  let start ← here
  let _ ← decimalIntegerText
  orElse exponentPart (do fractionPart; let _ ← attempt exponentPart)
  text start (← here)

/-- The signed infinities and NaNs. -/
def specialFloat : Scan Binary64 := do
  let sign ← attempt (satisfy fun b => b == 43 || b == 45)
  let negative := sign == some 45
  orElse (do word "inf"; return Decimal.infinity negative)
    (do word "nan"; return Decimal.notANumber negative)

/-- Whether a value is the positive infinity. -/
def isPositiveInfinity (x : Binary64) : Bool := x.bits == 0x7FF0000000000000

/-- A floating-point number. A decimal too large for the format is refused, unless negative. -/
def float : Scan Binary64 := labelled "floating-point number" <| orElse
  (do
    let start ← here
    let t ← floatText
    let x := (Decimal.readFloat? (t.replace "_" "")).getD Binary64.zero
    if isPositiveInfinity x then
      moveTo start
      commit fail
    else return x)
  specialFloat

/-- The integers a 64-bit signed word holds, or why a value is not one. -/
def fitInteger (n : Int) : Except Problem Int :=
  if n > int64Max then .error .integerTooLarge
  else if n < int64Min then .error .integerTooSmall
  else .ok n

/-- The value of digits in a base, underscores skipped. -/
def digitsIn (base : Nat) (s : String) : Nat :=
  s.toList.foldl (fun acc c => if c = '_' then acc else acc * base + hexDigitValue c.toUInt8) 0

/-- An integer with a base prefix (`0x`, `0o`, `0b`). -/
def prefixedInteger (pfx label : String) (base : Nat) (isDigit : UInt8 → Bool) : Scan Int :=
  commit <| checked
    (labelled label do
      word pfx
      commit do
        let start ← here
        let _ ← satisfy isDigit
        moreDigits isDigit
        text start (← here))
    (fun digits => fitInteger (digitsIn base digits))

/-- The value of a decimal integer's text. -/
def decimalValue (t : String) : Int :=
  let (negative, rest) := Decimal.signOf t.toList
  let n : Int := digitsIn 10 (String.ofList rest)
  if negative then -n else n

/-- An integer in any base. -/
def integer : Scan Int := do
  let two ← fun input pos => EStateM.Result.ok (input.extract pos (pos + 2)) pos
  if two == "0x".toUTF8 then prefixedInteger "0x" "hexadecimal integer" 16 isHexByte
  else if two == "0o".toUTF8 then
    prefixedInteger "0o" "octal integer" 8 (fun b => b ≥ 48 && b ≤ 55)
  else if two == "0b".toUTF8 then
    prefixedInteger "0b" "binary integer" 2 (fun b => b == 48 || b == 49)
  else do
    let start ← here
    let t ← decimalIntegerText
    match fitInteger (decimalValue t) with
    | .ok n => return n
    | .error e =>
      moveTo start
      commit (refuse e)

/-! ## Dates and times -/

/-- Exactly `n` decimal digits, as a number. -/
def fixedDigits (n : Nat) : Scan Nat := do
  let start ← here
  let count ← takeWhileUpTo n isDigitByte
  if count < n then
    moveTo start
    fail
  else
    let t ← text start (start + n)
    return digitsIn 10 t

/-- Exactly `n` digits whose value lies in `[lo, hi]`. -/
def rangedDigits (n lo hi : Nat) : Scan Nat :=
  checked (fixedDigits n) fun v => if lo ≤ v && v ≤ hi then .ok v else .error .outOfRange

/-- The number of days of a month. -/
def daysInMonth (year month : Nat) : Nat :=
  let leap := year % 4 == 0 && (year % 100 != 0 || year % 400 == 0)
  if month == 2 then (if leap then 29 else 28)
  else if month == 4 || month == 6 || month == 9 || month == 11 then 30
  else 31

/-- A date `YYYY-MM-DD`. -/
def fullDate : Scan Unit := do
  let year ← fixedDigits 4
  byte 45
  let month ← commit (rangedDigits 2 1 12)
  commit (byte 45)
  let dayStart ← here
  let day ← commit (rangedDigits 2 1 31)
  if day > daysInMonth year month then
    moveTo dayStart
    commit (refuse .outOfRange)

/-- Fractional seconds. -/
def secondFraction : Scan Unit := do
  byte 46
  let _ ← takeWhile1 isDigitByte

/-- A time `hh:mm:ss` with optional fractional seconds. -/
def partialTime : Scan Unit := do
  let _ ← rangedDigits 2 0 23
  byte 58
  commit do
    let _ ← rangedDigits 2 0 59
    byte 58
    let _ ← rangedDigits 2 0 60
    let _ ← attempt secondFraction

/-- A time offset `Z` or `±hh:mm`. -/
def timeOffset : Scan Unit := labelled "time offset" <| orElse
  (do let _ ← satisfy fun b => b == 90 || b == 122)
  (do
    let _ ← satisfy fun b => b == 43 || b == 45
    commit do
      let _ ← rangedDigits 2 0 23
      byte 58
      let _ ← rangedDigits 2 0 59)

/-- A date, a date with a time, or a time; the text as written. -/
def dateTime : Scan String := do
  let start ← here
  labelled "date-time" <| orElse
    (do
      fullDate
      let _ ← attempt do
        let _ ← satisfy fun b => b == 84 || b == 116 || b == 32
        partialTime
        let _ ← attempt timeOffset)
    partialTime
  text start (← here)

end RegionNet.Toml
