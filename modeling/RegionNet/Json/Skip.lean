import RegionNet.Json.Syntax

namespace RegionNet.JsonText

/-!
# Skipping a value

A reader of a typed value steps over the value of a field it does not know without building it.
Skipping checks less than reading: a number is not converted (so no exponent is out of range),
a `\u` escape needs four hexadecimal digits but no surrogate pairing, and brackets may nest
without limit. Brackets are tracked on a stack; a comma inside an array or object that has just
been opened is taken as the start of the next value, which is then refused.
-/

/-- Step over the digits under the cursor. -/
def skipDigitRun : Parse Unit := do
  let rec go : Nat → Parse Unit
    | 0 => pure ()
    | fuel + 1 => do
      if (digit? (← peekOrNull)).isSome then eat; go fuel else pure ()
  go (← fuelLeft)

/-- Step over an exponent (at its `e`): an optional sign and at least one digit. -/
def skipExponent : Parse Unit := do
  eat
  let b ← peekOrNull
  if b == 43 || b == 45 then eat
  match ← peek? with
  | some b =>
    if (digit? b).isSome then eat; skipDigitRun
    else eat; fail .invalidNumber
  | none => fail .invalidNumber

/-- Step over a number whose sign (if any) was read. -/
def skipNumber : Parse Unit := do
  match ← peek? with
  | some 48 =>
    eat
    if (digit? (← peekOrNull)).isSome then failPeek .invalidNumber
  | some b =>
    if (digit? b).isSome then eat; skipDigitRun
    else eat; fail .invalidNumber
  | none => fail .invalidNumber
  let b ← peekOrNull
  if b == 46 then
    eat
    if (digit? (← peekOrNull)).isNone then failPeek .invalidNumber
    skipDigitRun
    let e ← peekOrNull
    if e == 101 || e == 69 then skipExponent
  else if b == 101 || b == 69 then skipExponent

/-- Step over the rest of a string (the opening quote read), checking only its escapes. -/
def skipString : Parse Unit := do
  let rec go : Nat → Parse Unit
    | 0 => fail .eofWhileParsingString
    | fuel + 1 => do
      match ← peek? with
      | none => fail .eofWhileParsingString
      | some b =>
        if b == 34 then eat
        else if b == 92 then
          eat
          match ← next? with
          | none => fail .eofWhileParsingString
          | some e =>
            if e == 117 then let _ ← hexEscape; go fuel
            else if e == 34 || e == 92 || e == 47 || e == 98 || e == 102 || e == 110 ||
                e == 114 || e == 116 then go fuel
            else fail .invalidEscape
        else if b < 32 then fail .controlCharacterWhileParsingString
        else eat; go fuel
  go (← fuelLeft)

/-- Step over a scalar value starting with byte `b` (not yet read). -/
def skipScalar (b : UInt8) : Parse Unit := do
  if b == 110 then eat; expectIdent [117, 108, 108]
  else if b == 116 then eat; expectIdent [114, 117, 101]
  else if b == 102 then eat; expectIdent [97, 108, 115, 101]
  else if b == 45 then eat; skipNumber
  else if (digit? b).isSome then skipNumber
  else if b == 34 then eat; skipString
  else failPeek .expectedSomeValue

/-- The key and colon of the next member of an object. -/
def skipMemberKey : Parse Unit := do
  match ← skipBlanks with
  | some 34 => eat; skipString
  | some _ => failPeek .keyMustBeAString
  | none => failPeek .eofWhileParsingObject
  match ← skipBlanks with
  | some 58 => eat
  | some _ => failPeek .expectedColon
  | none => failPeek .eofWhileParsingObject

/-- After a value (or an opening bracket, when `afterValue` is false): close the brackets that
end here and step over a comma. `none` when the outermost value is complete, else the open
brackets, innermost first, with the cursor before the next value. -/
def closeBrackets : Nat → Bool → List UInt8 → Parse (Option (List UInt8))
  | _, _, [] => return none
  | 0, _, _ => failPeek .eofWhileParsingValue
  | fuel + 1, afterValue, frame :: rest => do
    let isArray := frame == 91
    match ← skipBlanks with
    | none => failPeek (if isArray then .eofWhileParsingList else .eofWhileParsingObject)
    | some c =>
      if c == 44 && afterValue then eat; return some (frame :: rest)
      else if (c == 93 && isArray) || (c == 125 && !isArray) then eat; closeBrackets fuel true rest
      else if afterValue then
        failPeek (if isArray then .expectedListCommaOrEnd else .expectedObjectCommaOrEnd)
      else return some (frame :: rest)

/-- Skip values until the brackets on the stack are closed. -/
def skipFrom : Nat → List UInt8 → Parse Unit
  | 0, _ => failPeek .eofWhileParsingValue
  | fuel + 1, frames => do
    let b ← match ← skipBlanks with
      | none => failPeek .eofWhileParsingValue
      | some b => pure b
    let opens := b == 91 || b == 123
    if opens then eat else skipScalar b
    let stack := if opens then b :: frames else frames
    match ← closeBrackets fuel (!opens) stack with
    | none => pure ()
    | some stack =>
      if stack.head? == some 123 then skipMemberKey
      skipFrom fuel stack

/-- Skip one value. -/
def skipValue : Parse Unit := do
  skipFrom (← fuelLeft) []

end RegionNet.JsonText
