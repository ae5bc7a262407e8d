import RegionNet.Toml.Document

namespace RegionNet.Toml

/-!
# Reports on a document

A report is a message, the bytes of the document it is about when known, and the keys leading
to the value it is about. Shown against the document's text, a report with bytes names the line
and column of their start, repeats that line, and marks the bytes under it:

```text
TOML parse error at line 2, column 18
  |
2 | max_phase_jump = -1
  |                  ^^
invalid value: integer `-1`, expected u32
```

Lines count from one at each line feed. Columns count characters from one, except that when the
marked byte does not end a character the column counts bytes. The marks cover the report's
bytes but stop at the end of the line; there is always at least one.
-/

/-- A message about a document, with the bytes and keys it concerns. -/
structure Report where
  message : String
  span : Option Span
  keys : List String := []
  deriving Repr, Inhabited

/-- The line (from zero) and column (from zero) of a byte of a text. -/
def linePosition (input : ByteArray) (index : Nat) : Nat × Nat :=
  if input.size = 0 then (0, index)
  else
    let safe := min index (input.size - 1)
    let before := (input.extract 0 safe).data.toList
    let lineStart := match before.reverse.findIdx? (· == 10) with
      | some back => safe - back
      | none => 0
    let line := ((input.extract 0 lineStart).data.toList.filter (· == 10)).length
    let column := match String.fromUTF8? (input.extract lineStart (safe + 1)) with
      | some s => s.length - 1
      | none => safe - lineStart
    (line, column + (index - safe))

/-- `n` spaces. -/
def spaces (n : Nat) : String := String.ofList (List.replicate n ' ')

namespace Report

/-- A report shown against the document it is about. -/
def render (r : Report) (document : String) : String :=
  let located := match r.span with
    | none => ""
    | some span =>
      let (line, column) := linePosition document.toUTF8 span.start
      let lineNumber := toString (line + 1)
      let gutter := lineNumber.length
      let content := (document.splitOn "\n").getD line ""
      let marks := min (span.stop - span.start) (content.utf8ByteSize - column)
      let columnNumber := column + 1
      s!"TOML parse error at line {lineNumber}, column {columnNumber}\n" ++
        spaces (gutter + 1) ++ "|\n" ++
        s!"{lineNumber} | {content}\n" ++
        spaces (gutter + 1) ++ "|" ++ spaces (column + 1) ++ "^" ++
        String.ofList (List.replicate (marks - 1) '^') ++ "\n"
  let keys := if r.span.isNone && !r.keys.isEmpty then
      let path := ".".intercalate r.keys
      s!"in `{path}`\n"
    else ""
  located ++ r.message ++ "\n" ++ keys

end Report

end RegionNet.Toml
