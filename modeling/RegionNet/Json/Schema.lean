import RegionNet.Json.Reader
import RegionNet.Json.Skip
import RegionNet.Text.Quoted

namespace RegionNet.JsonText

/-!
# Reading JSON text against a shape

A typed value is read from JSON text by its `Shape`: unsigned integers of a width, booleans,
strings, sequences, optional values, a choice of names, and records of named fields. The result
is a `Json` value in a normal form: a record becomes an object of all its fields in declared
order under their first names, with defaults filled in; an absent optional value is `null`.

A reader that meets a token of the wrong kind names what it found and what it expected
(`invalid type: string "a", expected a boolean`). Errors found by the reader of a value rather
than by the tokenizer have no position of their own; they take the position of the cursor when
the innermost string, number, boolean, sequence or record around them is left. A record stops
at the first unknown or repeated field, steps to its closing brace, and reports the error
there; a field missing at the end is reported after the brace.

A record may also be written as an array of its field values in declared order; missing trailing
values take their defaults, and a missing value without one is an error.
-/

/-- A field of a record: its name, further names it is accepted under, its shape, and the value
it takes when absent, if it has one. -/
structure Field (σ : Type) where
  name : String
  aliases : List String
  shape : σ
  default : Option Json

/-- The shape of a typed value. -/
inductive Shape where
  /-- An unsigned integer below `2 ^ bits`, expected under `label` (such as `u32`). -/
  | unsigned (bits : Nat) (label : String)
  /-- `true` or `false`. -/
  | boolean
  /-- A string. -/
  | text
  /-- An array of values of one shape. -/
  | sequence (item : Shape)
  /-- `null`, or a value of the inner shape. -/
  | optional (inner : Shape)
  /-- One of a list of names, written as a string (or as an object `{"name": null}`). -/
  | choice (variants : List String)
  /-- A record of fields; a closed record refuses fields it does not know. -/
  | record (name : String) (fields : List (Field Shape)) (closed : Bool)

/-- What a reader found in place of the value it expected. -/
inductive Found where
  | null
  | boolean (b : Bool)
  | unsigned (n : Nat)
  | signed (n : Int)
  | float (x : Binary64)
  | text (s : String)
  | sequence
  | map

namespace Found

/-- A number token as what was found. -/
def ofNumber : JsonNumber → Found
  | .nat n => .unsigned n
  | .negative n => .signed n
  | .float x => .float x

/-- How messages name what was found. -/
def describe : Found → String
  | .null => "null"
  | .boolean b => s!"boolean `{b}`"
  | .unsigned n => s!"integer `{n}`"
  | .signed n => s!"integer `{n}`"
  | .float x => "floating point `" ++ Decimal.write64 Decimal.Layout.json x ++ "`"
  | .text s => "string " ++ Text.quoted s
  | .sequence => "sequence"
  | .map => "map"

end Found

/-- Names in backquotes as messages list alternatives: one, two joined by `or`, or a list. -/
def oneOf (names : List String) : String :=
  match names with
  | [a] => s!"`{a}`"
  | [a, b] => s!"`{a}` or `{b}`"
  | _ => "one of " ++ ", ".intercalate (names.map fun n => s!"`{n}`")

/-- A failure found by the reader of a typed value, without a position yet. -/
def refuse {α : Type} (text : String) : Parse α := throw ⟨.message text, 0, 0⟩

/-- Give a failure of `body` without a position the position where it stopped. -/
def positioned {α : Type} (body : Parse α) : Parse α :=
  tryCatch body fun e => do throw (← fixPosition e)

/-- Fail because the value under the cursor is not of the expected kind; the value is read so
that it can be named. -/
def unexpected {α : Type} (expected : String) : Parse α := positioned do
  let b ← peekOrNull
  let found : Found ←
    if b == 110 then do eat; expectIdent [117, 108, 108]; pure .null
    else if b == 116 then do eat; expectIdent [114, 117, 101]; pure (.boolean true)
    else if b == 102 then do eat; expectIdent [97, 108, 115, 101]; pure (.boolean false)
    else if b == 45 then do eat; pure (Found.ofNumber (← numberToken false))
    else if (digit? b).isSome then do pure (Found.ofNumber (← numberToken true))
    else if b == 34 then do eat; pure (.text (← stringToken))
    else if b == 91 then pure .sequence
    else if b == 123 then pure .map
    else failPeek .expectedSomeValue
  let what := found.describe
  refuse s!"invalid type: {what}, expected {expected}"

/-- The next byte after blanks, failing at the end of the text. -/
def valueStart : Parse UInt8 := do
  match ← skipBlanks with
  | some b => pure b
  | none => failPeek .eofWhileParsingValue

/-- Read an unsigned integer below `2 ^ bits`. -/
def readUnsigned (bits : Nat) (label : String) : Parse Json := positioned do
  let b ← valueStart
  let n ← if b == 45 then do eat; numberToken false
    else if (digit? b).isSome then numberToken true
    else unexpected label
  match n with
  | .nat v =>
    if v < pow2 bits then pure (.number (.nat v))
    else refuse s!"invalid value: integer `{v}`, expected {label}"
  | .negative v => refuse s!"invalid value: integer `{v}`, expected {label}"
  | .float x =>
    let what := (Found.float x).describe
    refuse s!"invalid type: {what}, expected {label}"

/-- Read a boolean. -/
def readBoolean : Parse Json := positioned do
  let b ← valueStart
  if b == 116 then eat; expectIdent [114, 117, 101]; pure (.bool true)
  else if b == 102 then eat; expectIdent [97, 108, 115, 101]; pure (.bool false)
  else unexpected "a boolean"

/-- Read a string. -/
def readText : Parse Json := positioned do
  let b ← valueStart
  if b == 34 then eat; pure (.string (← stringToken))
  else unexpected "a string"

/-- Read `null`. -/
def readUnit : Parse Unit := positioned do
  let b ← valueStart
  if b == 110 then eat; expectIdent [117, 108, 108]
  else unexpected "unit"

/-- Read one of a list of names. -/
def readVariantName (variants : List String) : Parse String := positioned do
  let b ← valueStart
  if b == 34 then
    eat
    let name ← stringToken
    if variants.contains name then pure name
    else if variants.isEmpty then refuse s!"unknown variant `{name}`, there are no variants"
    else
      let names := oneOf variants
      refuse s!"unknown variant `{name}`, expected {names}"
  else unexpected "variant identifier"

/-- Read a choice: a name as a string, or an object holding the name with `null`. -/
def readChoice (depth : Nat) (variants : List String) : Parse Json := do
  let b ← valueStart
  if b == 34 then pure (.string (← readVariantName variants))
  else if b == 123 then
    let _ ← enter depth
    let name ← readVariantName variants
    colon
    readUnit
    match ← skipBlanks with
    | some 125 => eat; pure (.string name)
    | some _ => fail .expectedSomeValue
    | none => fail .eofWhileParsingObject
  else failPeek .expectedSomeValue

/-- After a failure inside an array: step over blanks and the closing bracket (or a comma). -/
def settleArray : Parse Unit := do
  match ← skipBlanks with
  | some 93 => eat
  | some 44 => eat; let _ ← skipBlanks
  | _ => pure ()

/-- After a failure inside an object: step over blanks and the closing brace. -/
def settleObject : Parse Unit := do
  match ← skipBlanks with
  | some 125 => eat
  | _ => pure ()

/-- The names a record's fields are accepted under, as its errors list them: field by field,
each field's names in code point order. -/
def acceptedNames (fields : List (Field Shape)) : List String :=
  fields.flatMap fun f => (f.name :: f.aliases).mergeSort fun a b => decide (a ≤ b)

/-- The failure for a field name a closed record does not know. -/
def unknownField {α : Type} (key : String) (fields : List (Field Shape)) : Parse α :=
  match acceptedNames fields with
  | [] => refuse s!"unknown field `{key}`, there are no fields"
  | names =>
    let listed := oneOf names
    refuse s!"unknown field `{key}`, expected {listed}"

/-- How messages count the fields of a record written as an array. -/
def elementCount (name : String) (n : Nat) : String :=
  s!"struct {name} with {n} element" ++ (if n = 1 then "" else "s")

/-- The value of each field after all members were read: the value read, else the default,
else `null` for an optional field; the first field without any is missing. -/
def completeFields : List (Field Shape) → List (String × Json) → Parse (List (String × Json))
  | [], _ => pure []
  | f :: rest, found => do
    let v ← match found.lookup f.name, f.default, f.shape with
      | some v, _, _ => pure v
      | none, some d, _ => pure d
      | none, none, .optional _ => pure .null
      | none, none, _ => refuse s!"missing field `{f.name}`"
    pure ((f.name, v) :: (← completeFields rest found))

mutual

/-- Read a value of a shape. `depth` is the nesting budget left, `fuel` bounds the work. -/
def readShape (depth : Nat) : Nat → Shape → Parse Json
  | 0, _ => failPeek .eofWhileParsingValue
  | _ + 1, .unsigned bits label => readUnsigned bits label
  | _ + 1, .boolean => readBoolean
  | _ + 1, .text => readText
  | fuel + 1, .sequence item => readSequence depth fuel item
  | fuel + 1, .optional inner => do
    if (← skipBlanks) == some 110 then eat; expectIdent [117, 108, 108]; pure .null
    else readShape depth fuel inner
  | _ + 1, .choice variants => readChoice depth variants
  | fuel + 1, .record name fields closed => readRecord depth fuel name fields closed

/-- Read an array of values of one shape. -/
def readSequence (depth : Nat) : Nat → Shape → Parse Json
  | 0, _ => failPeek .eofWhileParsingValue
  | fuel + 1, item => positioned do
    let b ← valueStart
    if b == 91 then
      let inner ← enter depth
      let items ← tryCatch (sequenceItems inner fuel item true [])
        fun e => do settleArray; throw e
      closeArray
      pure (.array items)
    else unexpected "a sequence"

/-- Read the items of an array up to its closing bracket. -/
def sequenceItems (depth : Nat) : Nat → Shape → Bool → List Json → Parse (List Json)
  | 0, _, _, acc => pure acc.reverse
  | fuel + 1, item, first, acc => do
    match ← nextItem first with
    | none => pure acc.reverse
    | some _ =>
      let v ← readShape depth fuel item
      sequenceItems depth fuel item false (v :: acc)

/-- Read a record, written as an object or as an array. -/
def readRecord (depth : Nat) : Nat → String → List (Field Shape) → Bool → Parse Json
  | 0, _, _, _ => failPeek .eofWhileParsingValue
  | fuel + 1, name, fields, closed => positioned do
    let b ← valueStart
    if b == 91 then
      let inner ← enter depth
      let members ← tryCatch (recordItems inner fuel name fields.length fields 0 true)
        fun e => do settleArray; throw e
      closeArray
      pure (.object members)
    else if b == 123 then
      let inner ← enter depth
      let members ← tryCatch (do
          let found ← recordMembers inner fuel fields closed true []
          completeFields fields found)
        fun e => do settleObject; throw e
      closeObject
      pure (.object members)
    else unexpected s!"struct {name}"

/-- Read a record's field values from an array, in declared order. -/
def recordItems (depth : Nat) : Nat → String → Nat → List (Field Shape) → Nat → Bool →
    Parse (List (String × Json))
  | 0, _, _, _, _, _ => failPeek .eofWhileParsingValue
  | _ + 1, _, _, [], _, _ => pure []
  | fuel + 1, name, total, f :: rest, index, first => do
    match ← nextItem first with
    | some _ =>
      let v ← readShape depth fuel f.shape
      pure ((f.name, v) :: (← recordItems depth fuel name total rest (index + 1) false))
    | none =>
      match f.default with
      | some d => pure ((f.name, d) :: (← recordItems depth fuel name total rest (index + 1) first))
      | none =>
        let expected := elementCount name total
        refuse s!"invalid length {index}, expected {expected}"

/-- Read a record's members from an object up to its closing brace: the values read, under
their fields' names, latest first. -/
def recordMembers (depth : Nat) : Nat → List (Field Shape) → Bool → Bool → List (String × Json) →
    Parse (List (String × Json))
  | 0, _, _, _, acc => pure acc
  | fuel + 1, fields, closed, first, acc => do
    match ← nextKey first with
    | none => pure acc
    | some key =>
      match fields.find? fun f => f.name == key || f.aliases.contains key with
      | some f =>
        if (acc.lookup f.name).isSome then refuse s!"duplicate field `{f.name}`"
        colon
        let v ← readShape depth fuel f.shape
        recordMembers depth fuel fields closed false ((f.name, v) :: acc)
      | none =>
        if closed then unknownField key fields
        colon
        skipValue
        recordMembers depth fuel fields closed false acc

end

/-- Read a whole text as a value of a shape; only blanks may follow it. -/
def Shape.read (shape : Shape) (text : String) : Except Error Json :=
  let bytes := text.toUTF8
  let step : Parse Json := do
    let v ← readShape depthLimit (2 * bytes.size + 4) shape
    match ← skipBlanks with
    | some _ => failPeek .trailingCharacters
    | none => pure v
  step.runOn bytes

/-- The shape of a machine-word count. -/
def Shape.count : Shape := .unsigned 64 "usize"

end RegionNet.JsonText
