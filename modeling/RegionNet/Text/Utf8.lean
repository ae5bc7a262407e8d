import RegionNet.Bytes

namespace RegionNet.Text

/-!
# UTF-8 validity

A byte string is valid UTF-8 when it splits into well-formed sequences: a byte below `0x80`, or
a lead byte followed by the continuation bytes its range allows, with no overlong form, no
surrogate and nothing above `U+10FFFF`. The first fault is told by where the valid prefix ends
and how many bytes form the ill-formed sequence there (one to three), or by the text ending
inside a sequence. Lossy decoding writes `U+FFFD` for each ill-formed sequence and for an
unfinished one at the end.
-/

/-- The number of bytes of the sequence a lead byte opens; zero for a byte that opens none. -/
def sequenceWidth (b : UInt8) : Nat :=
  if b < 0x80 then 1
  else if b < 0xC2 then 0
  else if b < 0xE0 then 2
  else if b < 0xF0 then 3
  else if b < 0xF5 then 4
  else 0

/-- The range the second byte of a sequence must lie in, by its lead byte; it excludes overlong
forms, surrogates and code points above `U+10FFFF`. -/
def secondRange (lead : UInt8) : UInt8 × UInt8 :=
  if lead == 0xE0 then (0xA0, 0xBF)
  else if lead == 0xED then (0x80, 0x9F)
  else if lead == 0xF0 then (0x90, 0xBF)
  else if lead == 0xF4 then (0x80, 0x8F)
  else (0x80, 0xBF)

/-- What is found at the start of a sequence. -/
inductive SequenceCheck where
  /-- A well-formed sequence of that many bytes. -/
  | valid (width : Nat)
  /-- An ill-formed sequence of that many bytes. -/
  | invalid (length : Nat)
  /-- The bytes end inside a sequence. -/
  | unfinished
  deriving DecidableEq, Repr

/-- Check the continuation bytes after the lead byte at `start` against their ranges; `k` is
the offset of the next one. -/
def checkContinuations (b : Bytes) (start : Nat) : List (UInt8 × UInt8) → Nat → SequenceCheck
  | [], k => .valid k
  | (lo, hi) :: rest, k =>
    match b[start + k]? with
    | none => .unfinished
    | some x => if lo ≤ x && x ≤ hi then checkContinuations b start rest (k + 1) else .invalid k

/-- Check the sequence that starts at a position. -/
def checkSequence (b : Bytes) (start : Nat) : SequenceCheck :=
  let lead := b.getD start 0
  match sequenceWidth lead with
  | 0 => .invalid 1
  | 1 => .valid 1
  | width => checkContinuations b start (secondRange lead :: List.replicate (width - 2) (0x80, 0xBF)) 1

/-- The first fault from a position on: where the valid prefix ends and the length of the
ill-formed sequence there (`none` when the bytes end inside a sequence). -/
def faultFrom (b : Bytes) : Nat → Nat → Option (Nat × Option Nat)
  | 0, _ => none
  | fuel + 1, i =>
    if i ≥ b.size then none
    else match checkSequence b i with
      | .valid w => faultFrom b fuel (i + max w 1)
      | .invalid n => some (i, some n)
      | .unfinished => some (i, none)

/-- The first fault of a byte string, if it is not valid UTF-8. -/
def utf8Fault (b : Bytes) : Option (Nat × Option Nat) := faultFrom b (b.size + 1) 0

/-- How a fault is told: the length of the ill-formed sequence and where it starts, or where an
unfinished sequence starts. -/
def utf8FaultText : Nat × Option Nat → String
  | (start, some n) => s!"invalid utf-8 sequence of {n} bytes from index {start}"
  | (start, none) => s!"incomplete utf-8 byte sequence from index {start}"

/-- The replacement character written for an ill-formed sequence. -/
def replacement : Char := Char.ofNat 0xFFFD

/-- Lossy decoding from a position on, as characters. -/
def lossyFrom (b : Bytes) : Nat → Nat → List Char
  | 0, _ => []
  | fuel + 1, i =>
    if i ≥ b.size then []
    else match checkSequence b i with
      | .valid w =>
        let chars := ((Bytes.toString? (b.extract i (i + w))).map String.toList).getD [replacement]
        chars ++ lossyFrom b fuel (i + max w 1)
      | .invalid n => replacement :: lossyFrom b fuel (i + max n 1)
      | .unfinished => [replacement]

/-- The text of a byte string with every ill-formed sequence written as `U+FFFD`. -/
def decodeLossy (b : Bytes) : String := String.ofList (lossyFrom b (b.size + 1) 0)

end RegionNet.Text
