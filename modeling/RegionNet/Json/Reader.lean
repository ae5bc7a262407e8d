import RegionNet.Json.Syntax

namespace RegionNet.JsonText

/-!
# Reading JSON text into values

`Json.parse` reads a whole text as one JSON value. Arrays and objects may nest 127 deep; object
members are sorted by key and a repeated key keeps its last value. After the value only blanks
may follow.
-/

/-- The nesting budget: the 128th open bracket is refused. -/
def depthLimit : Nat := 128

/-- Enter an array or object: refuse when the nesting budget is spent. -/
def enter (depth : Nat) : Parse Nat := do
  if depth ≤ 1 then failPeek .recursionLimitExceeded
  else eat; return depth - 1

/-- Close an array after its items: `]`, or the error for what stands there instead. -/
def closeArray : Parse Unit := do
  match ← skipBlanks with
  | some 93 => eat
  | some 44 =>
    eat
    match ← skipBlanks with
    | some 93 => failPeek .trailingComma
    | _ => failPeek .trailingCharacters
  | some _ => failPeek .trailingCharacters
  | none => failPeek .eofWhileParsingList

/-- Close an object after its members: `}`, or the error for what stands there instead. -/
def closeObject : Parse Unit := do
  match ← skipBlanks with
  | some 125 => eat
  | some 44 => failPeek .trailingComma
  | some _ => failPeek .trailingCharacters
  | none => failPeek .eofWhileParsingObject

/-- Before the next array item: `none` at the closing bracket, else the item's first byte. -/
def nextItem (first : Bool) : Parse (Option UInt8) := do
  match ← skipBlanks with
  | some 93 => return none
  | some b =>
    if b == 44 && !first then
      eat
      match ← skipBlanks with
      | some 93 => failPeek .trailingComma
      | some c => return some c
      | none => failPeek .eofWhileParsingValue
    else if first then return some b
    else failPeek .expectedListCommaOrEnd
  | none => failPeek .eofWhileParsingList

/-- Before the next object member: `none` at the closing brace, else the key (read). -/
def nextKey (first : Bool) : Parse (Option String) := do
  match ← skipBlanks with
  | some 125 => return none
  | some b =>
    let start ← if b == 44 && !first then do eat; skipBlanks
      else if first then pure (some b)
      else failPeek .expectedObjectCommaOrEnd
    match start with
    | some 34 => do eat; return some (← stringToken)
    | some 125 => failPeek .trailingComma
    | some _ => failPeek .keyMustBeAString
    | none => failPeek .eofWhileParsingValue
  | none => failPeek .eofWhileParsingObject

/-- The colon between a key and its value. -/
def colon : Parse Unit := do
  match ← skipBlanks with
  | some 58 => eat
  | some _ => failPeek .expectedColon
  | none => failPeek .eofWhileParsingObject

mutual

/-- Read one value. `depth` is the nesting budget left, `fuel` bounds the work. -/
def value (depth : Nat) : Nat → Parse Json
  | 0 => failPeek .eofWhileParsingValue
  | fuel + 1 => do
    match ← skipBlanks with
    | none => failPeek .eofWhileParsingValue
    | some b =>
      if b == 110 then do eat; expectIdent [117, 108, 108]; return .null
      else if b == 116 then do eat; expectIdent [114, 117, 101]; return .bool true
      else if b == 102 then do eat; expectIdent [97, 108, 115, 101]; return .bool false
      else if b == 45 then do eat; return .number (← numberToken false)
      else if 48 ≤ b && b ≤ 57 then return .number (← numberToken true)
      else if b == 34 then do eat; return .string (← stringToken)
      else if b == 91 then
        let inner ← enter depth
        let items ← arrayItems inner fuel true []
        closeArray
        return .array items
      else if b == 123 then
        let inner ← enter depth
        let members ← objectMembers inner fuel true []
        closeObject
        return .object members
      else failPeek .expectedSomeValue

/-- Read array items up to (not including) the closing bracket. -/
def arrayItems (depth : Nat) : Nat → Bool → List Json → Parse (List Json)
  | 0, _, acc => return acc.reverse
  | fuel + 1, first, acc => do
    match ← nextItem first with
    | none => return acc.reverse
    | some _ =>
      let item ← value depth fuel
      arrayItems depth fuel false (item :: acc)

/-- Read object members up to (not including) the closing brace. -/
def objectMembers (depth : Nat) : Nat → Bool → List (String × Json) → Parse (List (String × Json))
  | 0, _, acc => return acc
  | fuel + 1, first, acc => do
    match ← nextKey first with
    | none => return acc
    | some key =>
      colon
      let item ← value depth fuel
      objectMembers depth fuel false (Json.insertMember key item acc)

end

/-- Read a whole text as one value; only blanks may follow it. -/
def parseBytes (bytes : ByteArray) : Except Error Json :=
  let step : Parse Json := do
    let v ← value depthLimit (2 * bytes.size + 4)
    match ← skipBlanks with
    | some _ => failPeek .trailingCharacters
    | none => return v
  step.runOn bytes

end RegionNet.JsonText

namespace RegionNet.Json

/-- Read a text as one JSON value. -/
def parse (text : String) : Except JsonText.Error Json := JsonText.parseBytes text.toUTF8

end RegionNet.Json
