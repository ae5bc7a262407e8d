import RegionNet.Toml.Document

namespace RegionNet.Toml

/-!
# Scanning TOML text

A scan reads the document's bytes from a position and either moves on with a result or fails.
A failure is *soft* when an enclosing choice may still try something else from where it began,
and *committed* once the text can only be wrong: after an opening quote, a `[`, a key and its
`=`, nothing but the rest of that construct may follow. As a failure travels outwards, the
constructs it passes add what they were reading (`invalid key`) and what they expected instead
(``expected `=` ``), innermost first; checks on a finished construct add a problem (`value is out
of range`).

Failures keep the position at which they happened: a choice starts each alternative from its
own beginning and reports the last one's failure, and a check that refuses a finished construct
moves back to the construct's first byte.
-/

/-- What a failure was reading, or what it expected in place of what it found. -/
inductive Context where
  /-- The construct being read, as in `invalid key`. -/
  | label (what : String)
  /-- Something that would have been accepted, already spelled for the message. -/
  | expected (what : String)
  deriving DecidableEq, Repr

/-- A problem found by a check on a construct that scanned well. -/
inductive Problem where
  | clash (c : Clash)
  | outOfRange
  | recursionLimit
  | integerTooLarge
  | integerTooSmall
  deriving DecidableEq, Repr

/-- The text of a problem. -/
def Problem.message : Problem → String
  | .clash c => c.message
  | .outOfRange => "value is out of range"
  | .recursionLimit => "recursion limit exceeded"
  | .integerTooLarge => "number too large to fit in target type"
  | .integerTooSmall => "number too small to fit in target type"

/-- A failed scan. -/
structure Failure where
  committed : Bool
  /-- Innermost first. -/
  context : List Context
  problem : Option Problem
  deriving DecidableEq, Repr

namespace Failure

/-- A soft failure with nothing to say. -/
def soft : Failure := ⟨false, [], none⟩

/-- The message: the innermost construct (`invalid …`), then everything expected, then the
problem, one per line. -/
def message (f : Failure) : String :=
  let label := f.context.findSome? fun | .label w => some w | .expected _ => none
  let expected := f.context.filterMap fun | .expected w => some w | .label _ => none
  let lines := (label.map ("invalid " ++ ·)).toList ++
    (if expected.isEmpty then [] else ["expected " ++ ", ".intercalate expected]) ++
    (f.problem.map Problem.message).toList
  "\n".intercalate lines

end Failure

/-- The spelling of an expected character in messages. -/
def expectedChar (c : Char) : String :=
  if c = '\n' then "newline" else "`" ++ c.toString ++ "`"

/-- A scan of the document's bytes from a position. -/
abbrev Scan := ReaderT ByteArray (EStateM Failure Nat)

namespace Scan

/-- The position. -/
def here : Scan Nat := fun _ pos => .ok pos pos

/-- Go to a position. -/
def moveTo (pos : Nat) : Scan Unit := fun _ _ => .ok () pos

/-- The byte `k` places ahead, if there is one. -/
def peekAt (k : Nat) : Scan (Option UInt8) := fun input pos => .ok input[pos + k]? pos

/-- The next byte, if there is one. -/
def peek : Scan (Option UInt8) := peekAt 0

/-- The bytes from one position to another, as text. -/
def text (start stop : Nat) : Scan String := fun input pos =>
  .ok ((String.fromUTF8? (input.extract start stop)).getD "") pos

/-- Fail with a given failure here. -/
def failWith {α : Type} (f : Failure) : Scan α := fun _ pos => .error f pos

/-- Fail softly here. -/
def fail {α : Type} : Scan α := failWith .soft

/-- Fail softly here with a problem. -/
def refuse {α : Type} (p : Problem) : Scan α := failWith ⟨false, [], some p⟩

/-- Take the next byte. -/
def anyByte : Scan UInt8 := fun input pos =>
  match input[pos]? with
  | some b => .ok b (pos + 1)
  | none => .error .soft pos

/-- Take the next byte if it passes a test. -/
def satisfy (p : UInt8 → Bool) : Scan UInt8 := fun input pos =>
  match input[pos]? with
  | some b => if p b then .ok b (pos + 1) else .error .soft pos
  | none => .error .soft pos

/-- Take one given byte. -/
def byte (b : UInt8) : Scan Unit := do let _ ← satisfy (· == b)

/-- Take the bytes of an ASCII word, all or none. -/
def word (w : String) : Scan Unit := fun input pos =>
  let bytes := w.toUTF8
  if input.extract pos (pos + bytes.size) == bytes then .ok () (pos + bytes.size)
  else .error .soft pos

/-- Whether the text ahead starts with an ASCII word. -/
def startsWith (w : String) : Scan Bool := fun input pos =>
  let bytes := w.toUTF8
  .ok (input.extract pos (pos + bytes.size) == bytes) pos

/-- The number of bytes from `pos` on that pass a test. -/
def runLength (p : UInt8 → Bool) (input : ByteArray) : Nat → Nat → Nat
  | 0, _ => 0
  | fuel + 1, pos =>
    match input[pos]? with
    | some b => if p b then runLength p input fuel (pos + 1) + 1 else 0
    | none => 0

/-- Take the bytes that pass a test, at most `limit`; returns how many. -/
def takeWhileUpTo (limit : Nat) (p : UInt8 → Bool) : Scan Nat := fun input pos =>
  let n := min limit (runLength p input (input.size - pos) pos)
  .ok n (pos + n)

/-- Take the bytes that pass a test; returns how many. -/
def takeWhile (p : UInt8 → Bool) : Scan Nat := fun input pos =>
  let n := runLength p input (input.size - pos) pos
  .ok n (pos + n)

/-- Take at least one byte that passes a test, and all that follow. -/
def takeWhile1 (p : UInt8 → Bool) : Scan Nat := do
  let n ← takeWhile p
  if n = 0 then fail else return n

/-- Succeed only at the end of the text. -/
def eof : Scan Unit := fun input pos => if pos ≥ input.size then .ok () pos else .error .soft pos

/-- Make the failures of a scan committed. -/
def commit {α : Type} (p : Scan α) : Scan α := fun input pos =>
  match p input pos with
  | .error f pos' => .error { f with committed := true } pos'
  | r => r

/-- Add a context to the failures of a scan. -/
def note {α : Type} (c : Context) (p : Scan α) : Scan α := fun input pos =>
  match p input pos with
  | .error f pos' => .error { f with context := f.context ++ [c] } pos'
  | r => r

/-- Add a label to the failures of a scan. -/
def labelled {α : Type} (what : String) (p : Scan α) : Scan α := note (.label what) p

/-- Add expected characters to the failures of a scan, in the order given. -/
def expecting {α : Type} (what : List String) (p : Scan α) : Scan α :=
  what.foldl (fun q w => note (.expected w) q) p

/-- Try a scan: a soft failure gives `none` and goes back to where it began. -/
def attempt {α : Type} (p : Scan α) : Scan (Option α) := fun input pos =>
  match p input pos with
  | .ok a pos' => .ok (some a) pos'
  | .error f pos' => if f.committed then .error f pos' else .ok none pos

/-- The first scan, or after its soft failure the second from the same place. -/
def orElse {α : Type} (p q : Scan α) : Scan α := fun input pos =>
  match p input pos with
  | .error f pos' => if f.committed then .error f pos' else q input pos
  | r => r

/-- The first of several scans that does not fail softly; the last one's failure otherwise. -/
def firstOf {α : Type} : List (Scan α) → Scan α
  | [] => fail
  | [p] => p
  | p :: ps => orElse p (firstOf ps)

/-- Look at what a scan would read, without moving. -/
def lookAhead {α : Type} (p : Scan α) : Scan α := fun input pos =>
  match p input pos with
  | .ok a _ => .ok a pos
  | r => r

/-- A scan whose result a check may refuse: then back to where it began, failing softly with
the problem. -/
def checked {α β : Type} (p : Scan α) (check : α → Except Problem β) : Scan β := fun input pos =>
  match p input pos with
  | .ok a pos' =>
    match check a with
    | .ok b => .ok b pos'
    | .error e => .error ⟨false, [], some e⟩ pos
  | .error f pos' => .error f pos'

/-- Repeat a scan while it succeeds and moves on; at most `fuel` times. -/
def repeatLoop {α : Type} (p : Scan α) (input : ByteArray) :
    Nat → Nat → List α → EStateM.Result Failure Nat (List α)
  | 0, pos, acc => .ok acc.reverse pos
  | fuel + 1, pos, acc =>
    match p input pos with
    | .ok a pos' => if pos' ≤ pos then .ok (a :: acc).reverse pos' else repeatLoop p input fuel pos' (a :: acc)
    | .error f pos' => if f.committed then .error f pos' else .ok acc.reverse pos

/-- Repeat a scan while it succeeds; a soft failure ends the repetition where that try began. -/
def many {α : Type} (p : Scan α) : Scan (List α) := fun input pos =>
  repeatLoop p input (input.size + 1 - pos) pos []

/-- Items and separators after the first item: a separator not followed by an item is left
unread. -/
def separatedLoop {α : Type} (p : Scan α) (sep : Scan Unit) (input : ByteArray) :
    Nat → Nat → List α → EStateM.Result Failure Nat (List α)
  | 0, pos, acc => .ok acc.reverse pos
  | fuel + 1, pos, acc =>
    match sep input pos with
    | .error f pos' => if f.committed then .error f pos' else .ok acc.reverse pos
    | .ok () afterSep =>
      match p input afterSep with
      | .ok a pos' => separatedLoop p sep input fuel pos' (a :: acc)
      | .error f pos' => if f.committed then .error f pos' else .ok acc.reverse pos

/-- One or more items with separators between them. -/
def separated1 {α : Type} (p : Scan α) (sep : Scan Unit) : Scan (List α) := fun input pos =>
  match p input pos with
  | .ok a pos' => separatedLoop p sep input (input.size + 1 - pos') pos' [a]
  | .error f pos' => .error f pos'

/-- Any number of items with separators between them. -/
def separated0 {α : Type} (p : Scan α) (sep : Scan Unit) : Scan (List α) := fun input pos =>
  match p input pos with
  | .ok a pos' => separatedLoop p sep input (input.size + 1 - pos') pos' [a]
  | .error f pos' => if f.committed then .error f pos' else .ok [] pos

/-- Run a scan over a whole text. -/
def runOn {α : Type} (p : Scan α) (input : ByteArray) : Except (Failure × Nat) α :=
  match p input 0 with
  | .ok a _ => .ok a
  | .error f pos => .error (f, pos)

end Scan

end RegionNet.Toml
