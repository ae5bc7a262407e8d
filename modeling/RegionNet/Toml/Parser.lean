import RegionNet.Toml.Lexical
import RegionNet.Toml.Assembly
import RegionNet.Toml.Report

namespace RegionNet.Toml

/-!
# Reading a TOML document

Values (strings, numbers, booleans, dates, arrays and inline tables), the lines of a document,
and the document itself. Arrays and inline tables may nest 79 deep; the next one is refused.

A document that cannot be read gives a report at the byte where reading stopped, marking that
byte (or nothing at the end of the text).
-/

open Scan

/-- The key-value pairs of an inline table put together. -/
def inlineEntries (pairs : List (List Key × Node)) : Except Problem Entries := do
  let t ← pairs.foldlM (fun (t : Table) (pair : List Key × Node) =>
      let (path, value) := pair
      (defineAt true none t path.dropLast (path.getLastD default) value).mapError Problem.clash)
    ⟨.inline, [], none⟩
  return t.entries

/-- `key = value` inside an inline table. -/
def inlinePair (item : Scan Node) : Scan (List Key × Node) := do
  let path ← dottedKey
  commit do
    expecting ["`.`", "`=`"] (byte (asciiByte '='))
    blanks
    let v ← item
    blanks
    return (path, v)

/-- An inline table `{ a = 1, b.c = 2 }`. -/
def inlineTable (item : Scan Node) : Scan Entries := do
  byte (asciiByte '{')
  let entries ← commit <| checked
    (do
      let pairs ← separated0 (inlinePair item) (byte (asciiByte ','))
      blanks
      return pairs)
    inlineEntries
  expecting ["`\x7d`"] (labelled "inline table" (commit (byte (asciiByte '}'))))
  return entries

/-- An array `[1, 2, 3]`; comments and line breaks may stand between items, and a comma may
follow the last. -/
def array (item : Scan Node) : Scan (List Node) := do
  byte (asciiByte '[')
  let items ← commit do
    let items ← attempt do
      let xs ← separated1 (do blankLines; let v ← item; blankLines; return v)
        (byte (asciiByte ','))
      let _ ← attempt (byte (asciiByte ','))
      return xs
    blankLines
    return items.getD []
  expecting ["`]`"] (labelled "array" (commit (byte (asciiByte ']'))))
  return items

/-- The context of values that start like a word: they were probably meant as strings. -/
def asString {α : Type} (p : Scan α) : Scan α := expecting ["`\"`", "`'`"] (labelled "string" p)

/-- A value, given the scans of arrays and inline tables at the next depth. -/
def valueWith (arrayScan : Scan (List Node)) (tableScan : Scan Entries) : Scan Node := do
  let start ← here
  let make : Span → Node ← match ← peek with
    | none => fail
    | some b =>
      if b == 34 || b == 39 then do pure (Node.string (← string))
      else if b == 91 then do pure (Node.array (← arrayScan))
      else if b == 123 then do
        let entries ← tableScan
        pure fun span => Node.table .inline entries (some span)
      else if b == 43 || b == 45 || isDigitByte b then
        firstOf [(do pure (Node.datetime (← dateTime))), (do pure (Node.float (← float))),
          (do pure (Node.integer (← integer)))]
      else if b == 95 then note (.expected "leading digit") (do pure (Node.integer (← integer)))
      else if b == 46 then note (.expected "leading digit") (do pure (Node.float (← float)))
      else if b == 116 then asString (do commit (word "true"); pure (Node.boolean true))
      else if b == 102 then asString (do commit (word "false"); pure (Node.boolean false))
      else if b == 105 then asString (do word "inf"; pure (Node.float (Decimal.infinity false)))
      else if b == 110 then asString (do word "nan"; pure (Node.float (Decimal.notANumber false)))
      else asString fail
  return make ⟨start, ← here⟩

/-- A value in which `depth` more arrays or inline tables may open. -/
def value : Nat → Scan Node
  | 0 => valueWith (commit (refuse .recursionLimit)) (commit (refuse .recursionLimit))
  | depth + 1 => valueWith (array (value depth)) (inlineTable (value depth))

/-- A value at the top of a key-value line. -/
def topValue : Scan Node := value (nestingLimit - 1)

/-- A key-value line. -/
def keyvalLine : Scan Line := do
  let path ← dottedKey
  commit do
    expecting ["`.`", "`=`"] (byte (asciiByte '='))
    blanks
    let v ← topValue
    expecting ["newline", "`#`"] lineTrailing
    return .keyval path.dropLast (path.getLastD default) v

/-- A header `[a.b]`. -/
def tableHeader : Scan Line := do
  let start ← here
  byte (asciiByte '[')
  let path ← commit dottedKey
  expecting ["`.`", "`]`"] (commit (byte (asciiByte ']')))
  let stop ← here
  expecting ["newline", "`#`"] (commit lineTrailing)
  return .header path ⟨start, stop⟩

/-- A header `[[a.b]]`. -/
def arrayTableHeader : Scan Line := do
  let start ← here
  word "[["
  let path ← commit dottedKey
  expecting ["`.`", "`]]`"] (commit (word "]]"))
  let stop ← here
  expecting ["newline", "`#`"] (commit lineTrailing)
  return .arrayHeader path ⟨start, stop⟩

/-- Either kind of header. -/
def header : Scan Line := labelled "table header" do
  match ← peekAt 1 with
  | none => fail
  | some b => if b == asciiByte '[' then arrayTableHeader else tableHeader

/-- One line of a document, without the blanks before it. -/
def line : Scan Line := do
  match ← peek with
  | none => fail
  | some 35 => commit (do comment; lineEnding; return .blank)
  | some 91 => commit header
  | some 10 => do newline; return .blank
  | some 13 => do newline; return .blank
  | some _ => commit keyvalLine

/-- The contexts of a line's clash with the lines before it. -/
def clashContext : Line → List Context
  | .header .. | .arrayHeader .. => [.label "table header"]
  | _ => []

/-- Read lines and take each into the assembly, until no line starts. -/
def linesLoop (input : ByteArray) : Nat → Nat → Assembly → EStateM.Result Failure Nat Assembly
  | 0, pos, a => .ok a pos
  | fuel + 1, pos, a =>
    match line input pos with
    | .ok l pos' =>
      match a.apply l with
      | .ok a' =>
        match blanks input pos' with
        | .ok () pos'' => linesLoop input fuel pos'' a'
        | .error f p => .error f p
      | .error c => .error ⟨true, clashContext l, some (.clash c)⟩ pos
    | .error f pos' => if f.committed then .error f pos' else .ok a pos

/-- A whole document, as the assembly after its last line. -/
def document : Scan Assembly := do
  let _ ← attempt (word "\uFEFF")
  blanks
  let a ← fun input pos => linesLoop input (input.size + 1) pos Assembly.initial
  eof
  return a

/-- The report of a failure at a byte of a text. -/
def failureReport (f : Failure) (size pos : Nat) : Report :=
  ⟨f.message, some (if pos = size then ⟨pos, pos⟩ else ⟨pos, pos + 1⟩), []⟩

/-- Read a document into its root table. -/
def parse (text : String) : Except Report Table :=
  let bytes := text.toUTF8
  match document.runOn bytes with
  | .error (f, pos) => .error (failureReport f bytes.size pos)
  | .ok a =>
    match a.finish with
    | .ok root => .ok root
    | .error c => .error ⟨c.message, none, []⟩

end RegionNet.Toml
