import RegionNet.Decimal.Text
import RegionNet.Word

namespace RegionNet

/-!
# JSON values

A JSON value as this library reads and writes it. Numbers keep the form they were read in: a
non-negative integer of at most 64 bits, a negative integer of at least `-2^63`, or a double.
Objects hold their members in a list and are written in that order: a value read from text holds
them sorted by key with one member per key, while a record written by this library holds its
fields in their declared order.

Writing is compact by default (`render`) or indented by two blanks (`renderPretty`). Strings
escape the quote, the backslash and control characters; everything else is written as is.
-/

/-- A JSON number in the form it was read. -/
inductive JsonNumber where
  /-- A non-negative integer below `2^64`. -/
  | nat (n : Nat)
  /-- A negative integer of at least `-2^63`. -/
  | negative (n : Int)
  /-- Any other number, as the nearest double. -/
  | float (x : Binary64)
  deriving DecidableEq, Repr

/-- A JSON value; object members are written in the order they are held. -/
inductive Json where
  | null
  | bool (b : Bool)
  | number (n : JsonNumber)
  | string (s : String)
  | array (items : List Json)
  | object (members : List (String × Json))
  deriving Repr, Inhabited

namespace JsonNumber

/-- The number as a signed 64-bit integer, if it is an integer in that range. -/
def toInt64? : JsonNumber → Option Int
  | .nat n => if n ≤ pow2 63 - 1 then some n else none
  | .negative n => some n
  | .float _ => none

/-- The number as an unsigned integer of `bits` bits, if it is an integer in that range. -/
def toUnsigned? (bits : Nat) : JsonNumber → Option Nat
  | .nat n => if n < pow2 bits then some n else none
  | _ => none

/-- The number as a double: integers are rounded to the nearest double. -/
def toBinary64 : JsonNumber → Binary64
  | .nat n => Binary64.ofNat n
  | .negative n => Binary64.ofInt n
  | .float x => x

/-- The text of a number: integers in decimal, doubles in the JSON layout. -/
def render : JsonNumber → String
  | .nat n => toString n
  | .negative n => toString n
  | .float x => Decimal.write64 Decimal.Layout.json x

/-- The number for an integer, in the form a reader would give it. -/
def ofInt (n : Int) : JsonNumber := if n < 0 then .negative n else .nat n.toNat

end JsonNumber

namespace Json

/-- A number member from a natural. -/
def nat (n : Nat) : Json := .number (.nat n)

/-- A number member from an integer. -/
def int (n : Int) : Json := .number (JsonNumber.ofInt n)

/-- An array of strings. -/
def strings (xs : List String) : Json := .array (xs.map .string)

/-- An array of naturals. -/
def nats (xs : List Nat) : Json := .array (xs.map nat)

/-- `null` for a missing value. -/
def optional {α : Type} (f : α → Json) : Option α → Json
  | some a => f a
  | none => .null

/-- Insert or replace a member, keeping members sorted by key. -/
def insertMember (key : String) (value : Json) : List (String × Json) → List (String × Json)
  | [] => [(key, value)]
  | (k, v) :: rest =>
    if key == k then (key, value) :: rest
    else if key < k then (key, value) :: (k, v) :: rest
    else (k, v) :: insertMember key value rest

/-- An object from members in any order; a later member replaces an earlier one of its key. -/
def obj (members : List (String × Json)) : Json :=
  .object (members.foldl (fun acc m => insertMember m.1 m.2 acc) [])

/-- The member under a key of an object. -/
def field? (j : Json) (key : String) : Option Json :=
  match j with
  | .object members => (members.find? (·.1 == key)).map (·.2)
  | _ => none

/-- The string of a string value. -/
def str? : Json → Option String
  | .string s => some s
  | _ => none

/-- The items of an array value. -/
def arr? : Json → Option (List Json)
  | .array items => some items
  | _ => none

/-- The members of an object value. -/
def members? : Json → Option (List (String × Json))
  | .object members => some members
  | _ => none

/-- The flag of a boolean value. -/
def bool? : Json → Option Bool
  | .bool b => some b
  | _ => none

/-- The value as a signed 64-bit integer. -/
def int64? : Json → Option Int
  | .number n => n.toInt64?
  | _ => none

/-- The value as an unsigned integer of `bits` bits. -/
def unsigned? (bits : Nat) : Json → Option Nat
  | .number n => n.toUnsigned? bits
  | _ => none

/-- The value as an unsigned 64-bit integer. -/
def nat64? : Json → Option Nat := unsigned? 64

/-- A number written from an integer of a width is read back at that width. -/
theorem unsigned?_nat {bits n : Nat} (fits : n < pow2 bits) : (nat n).unsigned? bits = some n := by
  simp [nat, unsigned?, JsonNumber.toUnsigned?, fits]

/-- A value read as an unsigned integer of a width is below its bound. -/
theorem unsigned?_lt {bits : Nat} {j : Json} {n : Nat} (read : j.unsigned? bits = some n) :
    n < pow2 bits := by
  unfold unsigned? at read
  split at read
  · unfold JsonNumber.toUnsigned? at read
    split at read
    · split at read
      · cases read
        assumption
      · cases read
    · cases read
  · cases read

/-- The value as a double, for any number. -/
def binary64? : Json → Option Binary64
  | .number n => some n.toBinary64
  | _ => none

/-- Whether the value is `null`. -/
def isNull : Json → Bool
  | .null => true
  | _ => false

/-- The hexadecimal digit of a nibble, lowercase. -/
def hexDigit (n : Nat) : Char :=
  if n < 10 then Char.ofNat (48 + n) else Char.ofNat (87 + n)

/-- Escape one character of a JSON string. -/
def escapeChar (c : Char) : String :=
  match c with
  | '"' => "\\\""
  | '\\' => "\\\\"
  | '\n' => "\\n"
  | '\r' => "\\r"
  | '\t' => "\\t"
  | c =>
    if c.toNat = 8 then "\\b"
    else if c.toNat = 12 then "\\f"
    else if c.toNat < 32 then
      "\\u00" ++ String.singleton (hexDigit (c.toNat / 16)) ++ String.singleton (hexDigit (c.toNat % 16))
    else String.singleton c

/-- A string as a JSON string literal. -/
def quote (s : String) : String :=
  "\"" ++ String.join (s.toList.map escapeChar) ++ "\""

mutual

/-- The compact text of a value: no blanks between tokens. -/
def render : Json → String
  | .null => "null"
  | .bool b => if b then "true" else "false"
  | .number n => n.render
  | .string s => quote s
  | .array items => "[" ++ renderItems items ++ "]"
  | .object members => "\x7b" ++ renderMembers members ++ "\x7d"

/-- The compact text of array items, separated by commas. -/
def renderItems : List Json → String
  | [] => ""
  | [x] => render x
  | x :: rest => render x ++ "," ++ renderItems rest

/-- The compact text of object members, separated by commas. -/
def renderMembers : List (String × Json) → String
  | [] => ""
  | [(k, v)] => quote k ++ ":" ++ render v
  | (k, v) :: rest => quote k ++ ":" ++ render v ++ "," ++ renderMembers rest

end

/-- The indentation of a nesting level: two blanks per level. -/
def indent (level : Nat) : String := String.ofList (List.replicate (2 * level) ' ')

mutual

/-- The indented text of a value at a nesting level. -/
def renderPrettyAt (level : Nat) : Json → String
  | .array [] => "[]"
  | .object [] => "\x7b\x7d"
  | .array items => "[\n" ++ renderPrettyItems (level + 1) items ++ "\n" ++ indent level ++ "]"
  | .object members =>
      "\x7b\n" ++ renderPrettyMembers (level + 1) members ++ "\n" ++ indent level ++ "\x7d"
  | j => render j

/-- Indented array items, one per line. -/
def renderPrettyItems (level : Nat) : List Json → String
  | [] => ""
  | [x] => indent level ++ renderPrettyAt level x
  | x :: rest => indent level ++ renderPrettyAt level x ++ ",\n" ++ renderPrettyItems level rest

/-- Indented object members, one per line. -/
def renderPrettyMembers (level : Nat) : List (String × Json) → String
  | [] => ""
  | [(k, v)] => indent level ++ quote k ++ ": " ++ renderPrettyAt level v
  | (k, v) :: rest =>
      indent level ++ quote k ++ ": " ++ renderPrettyAt level v ++ ",\n" ++
        renderPrettyMembers level rest

end

/-- The indented text of a value. -/
def renderPretty (j : Json) : String := renderPrettyAt 0 j

end Json

end RegionNet
