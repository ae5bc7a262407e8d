import RegionNet.Json.Schema

namespace RegionNet

/-!
# Reading back the tokens the writer produces

The JSON reader works on a cursor over bytes. This module views a cursor through the bytes it
has not read (`Cursor.rest`), and states what a reading step does as `Reads p c v n`: run at
`c`, the step `p` gives `v` and moves over `n` bytes. Such facts chain through `bind`, so the
readers of larger values are followed step by step from the facts about their parts.

On this view the module shows what the reader makes of the writer's tokens: blanks are skipped
(`reads_skipBlanks`), a string as `Json.quote` writes it is read back as that string
(`reads_stringToken`), and the decimal text of a natural that fits a word is read back as that
natural (`reads_decimal`).
-/

namespace ByteArray'

theorem toList_loop_eq (bs : ByteArray) (i : Nat) (r : List UInt8) :
    ByteArray.toList.loop bs i r = r.reverse ++ bs.data.toList.drop i := by
  fun_induction ByteArray.toList.loop bs i r with
  | case1 i r within ih =>
    have inList : i < bs.data.toList.length := by simpa using within
    rw [ih, @List.drop_eq_getElem_cons _ i bs.data.toList inList]
    simp [ByteArray.get!, within]
  | case2 i r past =>
    rw [List.drop_eq_nil_of_le (by simpa using Nat.le_of_not_lt past)]
    simp

/-- The list of a byte array is the list of its data. -/
theorem toList_eq (bs : ByteArray) : bs.toList = bs.data.toList := by
  simp [ByteArray.toList, toList_loop_eq]

end ByteArray'

namespace JsonText

namespace Cursor

/-- The bytes not read yet. -/
def rest (c : Cursor) : List UInt8 := c.bytes.data.toList.drop c.index

/-- The cursor moved on by `n` bytes. -/
def advance (c : Cursor) (n : Nat) : Cursor := { c with index := c.index + n }

variable {c : Cursor} {m n : Nat}

@[simp] theorem advance_bytes : (c.advance n).bytes = c.bytes := rfl

@[simp] theorem rest_advance : (c.advance n).rest = c.rest.drop n := by
  simp [rest, advance, List.drop_drop, Nat.add_comm]

@[simp] theorem advance_advance : (c.advance m).advance n = c.advance (m + n) := by
  simp [advance, Nat.add_assoc]

@[simp] theorem advance_zero : c.advance 0 = c := rfl

/-- The byte under the cursor is the first one not read. -/
theorem getElem?_index : c.bytes[c.index]? = c.rest.head? := by
  rw [rest, List.head?_drop, Array.getElem?_toList]
  by_cases within : c.index < c.bytes.size
  · rw [getElem?_pos c.bytes c.index within,
      getElem?_pos c.bytes.data c.index (by simpa [← ByteArray.size_data] using within)]
    rfl
  · rw [getElem?_neg c.bytes c.index within,
      getElem?_neg c.bytes.data c.index (by simpa [← ByteArray.size_data] using within)]

theorem size_sub_index : c.bytes.size - c.index = c.rest.length := by
  simp [rest, ByteArray.size_data]

/-- The next bytes of a cursor, as the array `extract` cuts out. -/
theorem extract_toList : (c.bytes.extract c.index (c.index + n)).toList = c.rest.take n := by
  rw [ByteArray'.toList_eq, ByteArray.data_extract, Array.toList_extract, rest,
    List.extract_eq_take_drop, Nat.add_sub_cancel_left]

end Cursor

/-- Run at `c`, the reading step `p` gives `v` and moves the cursor over `n` bytes. -/
def Reads {α : Type} (p : Parse α) (c : Cursor) (v : α) (n : Nat) : Prop :=
  p.run c = .ok v (c.advance n)

section Steps

variable {α β : Type} {c : Cursor} {v : α} {w : β} {m n : Nat}

theorem Reads.pure (c : Cursor) (v : α) : Reads (Pure.pure v) c v 0 := rfl

/-- Two reading steps read what the first reads, then what the second reads after it. -/
theorem Reads.bind {p : Parse α} {f : α → Parse β} (first : Reads p c v n)
    (next : Reads (f v) (c.advance n) w m) : Reads (p >>= f) c w (n + m) := by
  unfold Reads at *
  rw [EStateM.run_bind, first]
  simpa using next

/-- A step that goes through is not caught. -/
theorem Reads.tryCatch {p : Parse α} {handle : Error → Parse α} (through : Reads p c v n) :
    Reads (tryCatch p handle) c v n := by
  unfold Reads at *
  show EStateM.tryCatch p handle c = _
  unfold EStateM.tryCatch
  rw [show p c = _ from through]

theorem reads_peek? (c : Cursor) : Reads peek? c c.rest.head? 0 := by
  rw [Reads, ← Cursor.getElem?_index]; rfl

theorem reads_eat (c : Cursor) : Reads eat c () 1 := rfl

theorem reads_next? {b : UInt8} {r : List UInt8} (at_ : c.rest = b :: r) :
    Reads next? c (some b) 1 := by
  have peeked := reads_peek? c
  rw [at_] at peeked
  unfold Reads next? at *
  simp only [EStateM.run_bind, peeked, List.head?_cons, Option.isSome_some]
  rfl

theorem reads_peekOrNull {b : UInt8} {r : List UInt8} (at_ : c.rest = b :: r) :
    Reads peekOrNull c b 0 := by
  have peeked := reads_peek? c
  rw [at_] at peeked
  unfold Reads peekOrNull at *
  simp only [EStateM.run_bind, peeked]
  rfl

theorem reads_peekOrNull_end (at_ : c.rest = []) : Reads peekOrNull c 0 0 := by
  have peeked := reads_peek? c
  rw [at_] at peeked
  unfold Reads peekOrNull at *
  simp only [EStateM.run_bind, peeked]
  rfl

theorem reads_fuelLeft (c : Cursor) : Reads fuelLeft c (2 * c.rest.length + 4) 0 := by
  rw [Reads, ← Cursor.size_sub_index]; rfl

end Steps

/-!
## Blanks
-/

/-- The blanks the reader skips: space, tab, line feed and carriage return. -/
def IsBlank (b : UInt8) : Prop := b = 32 ∨ b = 9 ∨ b = 10 ∨ b = 13

instance : DecidablePred IsBlank := fun _ => inferInstanceAs (Decidable (_ ∨ _))

section Blanks

variable {c : Cursor} {b : UInt8} {fuel : Nat}

theorem skipBlanks_go_blank (at_ : c.rest.head? = some b) (blank : IsBlank b) :
    (skipBlanks.go (fuel + 1)).run c = (skipBlanks.go fuel).run (c.advance 1) := by
  have peeked := reads_peek? c
  rw [at_] at peeked
  unfold IsBlank at blank
  unfold Reads at peeked
  simp only [skipBlanks.go, EStateM.run_bind, peeked, Cursor.advance_zero]
  rw [if_pos (by simpa [or_assoc] using blank)]
  rfl

theorem skipBlanks_go_stop (at_ : c.rest.head? = some b) (stop : ¬IsBlank b) :
    Reads (skipBlanks.go (fuel + 1)) c (some b) 0 := by
  have peeked := reads_peek? c
  rw [at_] at peeked
  unfold IsBlank at stop
  unfold Reads at *
  simp only [skipBlanks.go, EStateM.run_bind, peeked, Cursor.advance_zero]
  rw [if_neg (by simpa [or_assoc] using stop)]
  rfl

theorem skipBlanks_go_end (at_ : c.rest = []) : Reads (skipBlanks.go fuel) c none 0 := by
  have peeked := reads_peek? c
  rw [at_] at peeked
  cases fuel with
  | zero => exact peeked
  | succ fuel =>
    unfold Reads at *
    simp only [skipBlanks.go, EStateM.run_bind, peeked, Cursor.advance_zero, List.head?_nil]
    rfl

theorem reads_skipBlanks_go {blanks r : List UInt8} (at_ : c.rest = blanks ++ r)
    (blank : ∀ b ∈ blanks, IsBlank b) (stop : ∀ b ∈ r.head?, ¬IsBlank b)
    (enough : blanks.length ≤ fuel) :
    Reads (skipBlanks.go fuel) c r.head? blanks.length := by
  -- one blank and one unit of fuel go at each step
  induction blanks generalizing c fuel with
  | nil =>
    rw [List.nil_append] at at_
    cases first : r.head? with
    | none => exact skipBlanks_go_end (by simpa [at_] using first)
    | some b =>
      cases fuel with
      | zero => simpa [Reads, skipBlanks.go, at_, first] using reads_peek? c
      | succ fuel => exact skipBlanks_go_stop (by rw [at_, first]) (stop b (by simp [first]))
  | cons b blanks ih =>
    cases fuel with
    | zero => simp at enough
    | succ fuel =>
      have skipped := ih (c := c.advance 1) (by simp [at_])
        (fun x member => blank x (by simp [member])) (by simpa using enough : blanks.length ≤ fuel)
      unfold Reads at *
      rw [skipBlanks_go_blank (by simp [at_]) (blank b (by simp)), skipped]
      simp [Nat.add_comm]

/-- Blanks are skipped up to the first byte that is not one, which is looked at. -/
theorem reads_skipBlanks {blanks r : List UInt8} (at_ : c.rest = blanks ++ r)
    (blank : ∀ b ∈ blanks, IsBlank b) (stop : ∀ b ∈ r.head?, ¬IsBlank b) :
    Reads skipBlanks c r.head? blanks.length := by
  have skipped := @reads_skipBlanks_go c (2 * c.rest.length + 4) blanks r at_ blank stop
    (by rw [at_, List.length_append]; omega)
  simpa [skipBlanks] using (reads_fuelLeft c).bind skipped

end Blanks

/-!
## Strings

The writer escapes a quote, a backslash and the control characters, and writes every other
character as its UTF-8 bytes; the reader takes those bytes one at a time and decodes each escape
to the bytes of the character it stands for. Either way the character's UTF-8 bytes are added,
and the bytes gathered up to the closing quote are the string's own.
-/

/-- The bytes the writer puts between the quotes of a string. -/
def escapedBytes (cs : List Char) : List UInt8 :=
  cs.flatMap fun ch => (Json.escapeChar ch).toByteArray.data.toList

theorem join_bytes (l : List String) :
    (String.join l).toByteArray.data.toList = l.flatMap fun s => s.toByteArray.data.toList := by
  induction l with
  | nil => rfl
  | cons s l ih => simp [String.join_cons, String.toByteArray_append, ih]

/-- A quoted string is its escaped characters between two quotes. -/
theorem quote_bytes (s : String) :
    (Json.quote s).toByteArray.data.toList = 34 :: escapedBytes s.toList ++ [34] := by
  have quoteByte : "\"".toByteArray.data.toList = [34] := by decide
  simp only [Json.quote, String.toByteArray_append, ByteArray.toList_data_append, join_bytes,
    escapedBytes, List.flatMap_map, quoteByte]
  rfl

/-- A byte a string token takes as it is: not a quote, a backslash or a control byte. -/
def PlainByte (b : UInt8) : Prop := b ≠ 34 ∧ b ≠ 92 ∧ ¬b < 32

/-- Every byte of a character that the writer does not escape is plain: an ASCII character
above the control range other than the quote and the backslash, or a byte of a longer
encoding, all of which are at least 128. -/
theorem plainByte_of_utf8EncodeChar {ch : Char} (high : 32 ≤ ch.toNat) (notQuote : ch ≠ '"')
    (notBackslash : ch ≠ '\\') : ∀ b ∈ String.utf8EncodeChar ch, PlainByte b := by
  intro b mem
  unfold String.utf8EncodeChar at mem
  have code : ch.toNat = ch.val.toNat := rfl
  by_cases ascii : ch.val.toNat ≤ 127
  · simp only [ascii, if_pos, List.mem_cons, List.not_mem_nil, or_false] at mem
    subst mem
    have quoteCode : ch.val.toNat ≠ 34 := fun same => notQuote (Char.ext (UInt32.toNat_inj.mp same))
    have backslashCode : ch.val.toNat ≠ 92 :=
      fun same => notBackslash (Char.ext (UInt32.toNat_inj.mp same))
    refine ⟨?_, ?_, ?_⟩ <;> simp [← UInt8.toNat_inj, UInt8.lt_iff_toNat_lt, UInt8.toNat_ofNat] <;>
      omega
  · rw [if_neg ascii] at mem
    have atLeast : 128 ≤ b.toNat := by
      generalize ch.val.toNat = v at ascii mem
      split at mem
      · simp only [List.mem_cons, List.not_mem_nil, or_false] at mem
        rcases mem with rfl | rfl <;> simp [UInt8.toNat_ofNat] <;> omega
      · split at mem
        · simp only [List.mem_cons, List.not_mem_nil, or_false] at mem
          rcases mem with rfl | rfl | rfl <;> simp [UInt8.toNat_ofNat] <;> omega
        · simp only [List.mem_cons, List.not_mem_nil, or_false] at mem
          rcases mem with rfl | rfl | rfl | rfl <;> simp [UInt8.toNat_ofNat] <;> omega
    refine ⟨?_, ?_, ?_⟩ <;> simp [← UInt8.toNat_inj, UInt8.lt_iff_toNat_lt] <;> omega

section Strings

variable {c : Cursor} {acc e : ByteArray} {b : UInt8} {fuel k : Nat} {more : List UInt8}

theorem stringToken_go_close (at_ : c.rest.head? = some 34) :
    Reads (stringToken.go acc (fuel + 1)) c acc 1 := by
  have peeked := reads_peek? c
  rw [at_] at peeked
  unfold Reads at *
  simp only [stringToken.go, EStateM.run_bind, peeked, Cursor.advance_zero]
  rfl

theorem stringToken_go_plain (at_ : c.rest.head? = some b) (plain : PlainByte b) :
    (stringToken.go acc (fuel + 1)).run c = (stringToken.go (acc.push b) fuel).run (c.advance 1) := by
  have peeked := reads_peek? c
  rw [at_] at peeked
  obtain ⟨notQuote, notBackslash, notControl⟩ := plain
  unfold Reads at peeked
  simp only [stringToken.go, EStateM.run_bind, peeked, Cursor.advance_zero]
  rw [if_neg (by simpa using notQuote), if_neg (by simpa using notBackslash),
    if_neg (by simpa using notControl)]
  rfl

theorem stringToken_go_escape (at_ : c.rest.head? = some 92)
    (escaped : Reads escape (c.advance 1) e k) :
    (stringToken.go acc (fuel + 1)).run c = (stringToken.go (acc ++ e) fuel).run (c.advance (1 + k)) := by
  have peeked := reads_peek? c
  rw [at_] at peeked
  unfold Reads at peeked escaped
  simp only [stringToken.go, EStateM.run_bind, peeked, Cursor.advance_zero]
  rw [if_neg (by decide), if_pos (by decide)]
  simp only [EStateM.run_bind]
  rw [show EStateM.run eat c = .ok () (c.advance 1) from rfl]
  simp only [escaped, Cursor.advance_advance]

/-- Plain bytes are taken one per step. -/
theorem stringToken_go_plainBytes {bs : List UInt8} (at_ : c.rest = bs ++ more)
    (plain : ∀ b ∈ bs, PlainByte b) :
    (stringToken.go acc (fuel + bs.length)).run c =
      (stringToken.go (acc ++ bs.toByteArray) fuel).run (c.advance bs.length) := by
  induction bs generalizing acc c with
  | nil =>
    simp only [List.length_nil, Nat.add_zero, List.toByteArray_nil, ByteArray.append_empty,
      Cursor.advance_zero]
  | cons b bs ih =>
    have first := @stringToken_go_plain c acc b (fuel + bs.length) (by simp [at_])
      (plain b (by simp))
    have rest := @ih (c.advance 1) (acc.push b) (by simp [at_])
      (fun x member => plain x (by simp [member]))
    rw [List.length_cons, ← Nat.add_assoc, first, rest, Cursor.advance_advance, Nat.add_comm 1]
    congr 2
    rw [← ByteArray.append_toByteArray_singleton, ByteArray.append_assoc,
      ← List.toByteArray_append, List.singleton_append]

/-- The characters the writer escapes: the quote, the backslash and the control characters. -/
def Escaped (ch : Char) : Prop := ch = '"' ∨ ch = '\\' ∨ ch.toNat < 32

/-- A character the writer does not escape is written as itself. -/
theorem escapeChar_of_not_escaped {ch : Char} (plain : ¬Escaped ch) :
    Json.escapeChar ch = String.singleton ch := by
  simp only [Escaped, not_or, Nat.not_lt] at plain
  obtain ⟨notQuote, notBackslash, high⟩ := plain
  have notLine : ch ≠ '\n' := by rintro rfl; simp at high
  have notReturn : ch ≠ '\r' := by rintro rfl; simp at high
  have notTab : ch ≠ '\t' := by rintro rfl; simp at high
  unfold Json.escapeChar
  split
  all_goals first
    | (exfalso; solve_by_elim)
    | (rw [if_neg (by omega), if_neg (by omega), if_neg (by omega)])

theorem Reads.count_eq {α : Type} {p : Parse α} {c : Cursor} {v : α} {n m : Nat}
    (reads : Reads p c v n) (same : n = m) : Reads p c v m := same ▸ reads

section Escapes

variable {c : Cursor} {more : List UInt8}

theorem reads_hexEscape {ds : List UInt8} {a b d e : Nat} (at_ : c.rest = ds ++ more)
    (digits : ds.map hexValue = [some a, some b, some d, some e]) :
    Reads hexEscape c (((a * 16 + b) * 16 + d) * 16 + e) 4 := by
  have four : ds.length = 4 := by simpa using congrArg List.length digits
  have within : c.index + 4 ≤ c.bytes.size := by
    have := Cursor.size_sub_index (c := c)
    rw [at_, List.length_append, four] at this
    omega
  have taken : c.rest.take 4 = ds := by rw [at_, ← four, List.take_left]
  unfold Reads hexEscape
  simp only [EStateM.run_bind, EStateM.run_get, if_pos within, Cursor.extract_toList, taken, digits]
  rfl

/-- A `\u` escape of a code point below the surrogates gives that code point's bytes. -/
theorem reads_unicodeEscape {ds : List UInt8} {a b d e : Nat} (at_ : c.rest = ds ++ more)
    (digits : ds.map hexValue = [some a, some b, some d, some e])
    (below : ((a * 16 + b) * 16 + d) * 16 + e < 0xD800) :
    Reads unicodeEscape c (utf8 (((a * 16 + b) * 16 + d) * 16 + e)) 4 := by
  have read := reads_hexEscape at_ digits
  unfold Reads unicodeEscape at *
  simp only [EStateM.run_bind, read]
  rw [if_neg (by simp; omega), if_pos (by simp; omega)]
  rfl

/-- The one-letter escapes, each with the byte it stands for. -/
def escapeLetters : List (UInt8 × UInt8) :=
  [(34, 34), (92, 92), (47, 47), (98, 8), (102, 12), (110, 10), (114, 13), (116, 9)]

theorem reads_escape_letter {x y : UInt8} (at_ : c.rest = x :: more)
    (letter : (x, y) ∈ escapeLetters) : Reads escape c ⟨#[y]⟩ 1 := by
  have next := reads_next? at_
  unfold escape
  refine (next.bind ?_).count_eq (Nat.add_zero 1)
  simp only [escapeLetters, List.mem_cons, Prod.mk.injEq, List.not_mem_nil, or_false] at letter
  rcases letter with ⟨rfl, rfl⟩ | ⟨rfl, rfl⟩ | ⟨rfl, rfl⟩ | ⟨rfl, rfl⟩ | ⟨rfl, rfl⟩ | ⟨rfl, rfl⟩ |
    ⟨rfl, rfl⟩ | ⟨rfl, rfl⟩ <;> exact Reads.pure _ _

/-- The characters the writer escapes with one letter. -/
def shortEscapes : List Char := ['"', '\\', '\n', '\r', '\t', Char.ofNat 8, Char.ofNat 12]

/-- Each one-letter escape is a backslash and a letter that stands for the character's byte. -/
theorem shortEscape_letter : ∀ ch ∈ shortEscapes, ∃ x y,
    (Json.escapeChar ch).toByteArray.data.toList = [92, x] ∧ (x, y) ∈ escapeLetters ∧
      String.utf8EncodeChar ch = [y] := by
  intro ch mem
  simp only [shortEscapes, List.mem_cons, List.not_mem_nil, or_false] at mem
  rcases mem with rfl | rfl | rfl | rfl | rfl | rfl | rfl <;> exact ⟨_, _, rfl, by decide, rfl⟩

/-- Every other control character is written as `\u00` and two hexadecimal digits. -/
theorem control_escape_digits : ∀ n, n < 32 → Char.ofNat n ∈ shortEscapes ∨
    ((Json.escapeChar (Char.ofNat n)).toByteArray.data.toList.take 2 = [92, 117] ∧
      ((Json.escapeChar (Char.ofNat n)).toByteArray.data.toList.drop 2).map hexValue =
        [some 0, some 0, some (n / 16), some (n % 16)]) := by
  decide

/-- An escaped character is written as a backslash and bytes that `escape` reads back as the
character's UTF-8 bytes. -/
theorem escaped_bytes {ch : Char} (escaped : Escaped ch) :
    ∃ tail, (Json.escapeChar ch).toByteArray.data.toList = 92 :: tail ∧
      ∀ (c : Cursor) (more : List UInt8), c.rest = tail ++ more →
        Reads escape c [ch].utf8Encode tail.length := by
  by_cases short : ch ∈ shortEscapes
  · obtain ⟨x, y, bytes, letter, encoded⟩ := shortEscape_letter ch short
    refine ⟨[x], bytes, fun c more at_ => ?_⟩
    rw [List.utf8Encode_singleton, encoded]
    exact reads_escape_letter at_ letter
  · have control : ch.toNat < 32 := by
      rcases escaped with rfl | rfl | control
      · exact absurd (by decide) short
      · exact absurd (by decide) short
      · exact control
    have digits := (control_escape_digits ch.toNat control).resolve_left (by simpa using short)
    rw [Char.ofNat_toNat] at digits
    obtain ⟨start, hex⟩ := digits
    refine ⟨117 :: ((Json.escapeChar ch).toByteArray.data.toList.drop 2), ?_, fun c more at_ => ?_⟩
    · rw [← List.take_append_drop 2 (Json.escapeChar ch).toByteArray.data.toList, start]
      simp
    · have next := reads_next? at_
      have value : ((0 * 16 + 0) * 16 + ch.toNat / 16) * 16 + ch.toNat % 16 = ch.toNat := by omega
      have digitsAt : (c.advance 1).rest = (Json.escapeChar ch).toByteArray.data.toList.drop 2 ++ more := by
        simp [at_]
      have four : ((Json.escapeChar ch).toByteArray.data.toList.drop 2).length = 4 := by
        simpa using congrArg List.length hex
      have unicode := reads_unicodeEscape digitsAt hex (by omega)
      rw [value] at unicode
      unfold escape
      refine (next.bind (m := 4) ?_).count_eq (by simp [four])
      simp only
      rw [if_neg (by decide), if_neg (by decide), if_neg (by decide), if_neg (by decide),
        if_neg (by decide), if_neg (by decide), if_neg (by decide), if_neg (by decide),
        if_pos (by decide)]
      rw [utf8, String.toUTF8_eq_toByteArray, String.toByteArray_singleton, Char.ofNat_toNat] at unicode
      exact unicode

end Escapes

section Quoted

variable {c : Cursor} {acc : ByteArray} {fuel : Nat} {more : List UInt8}

/-- One character of a quoted string: its written bytes are read and its UTF-8 bytes added, in
one step for an escaped character and one step per byte otherwise. -/
theorem stringToken_go_char (ch : Char)
    (at_ : c.rest = (Json.escapeChar ch).toByteArray.data.toList ++ more)
    (enough : (Json.escapeChar ch).toByteArray.data.toList.length ≤ fuel) :
    ∃ fuel', fuel ≤ fuel' + (Json.escapeChar ch).toByteArray.data.toList.length ∧
      (stringToken.go acc fuel).run c =
        (stringToken.go (acc ++ [ch].utf8Encode) fuel').run
          (c.advance (Json.escapeChar ch).toByteArray.data.toList.length) := by
  by_cases escaped : Escaped ch
  · obtain ⟨tail, bytes, reads⟩ := escaped_bytes escaped
    rw [bytes] at at_ enough ⊢
    obtain ⟨f, rfl⟩ : ∃ f, fuel = f + 1 := ⟨fuel - 1, by simp at enough; omega⟩
    refine ⟨f, by simp, ?_⟩
    rw [stringToken_go_escape (by simp [at_]) (reads (c.advance 1) more (by simp [at_]))]
    simp [Nat.add_comm]
  · have bytes : (Json.escapeChar ch).toByteArray.data.toList = String.utf8EncodeChar ch := by
      rw [escapeChar_of_not_escaped escaped, String.toByteArray_singleton,
        List.utf8Encode_singleton, List.toList_data_toByteArray]
    simp only [Escaped, not_or, Nat.not_lt] at escaped
    obtain ⟨notQuote, notBackslash, high⟩ := escaped
    rw [bytes] at at_ enough ⊢
    refine ⟨fuel - (String.utf8EncodeChar ch).length, by omega, ?_⟩
    have taken := @stringToken_go_plainBytes c acc (fuel - (String.utf8EncodeChar ch).length) more
      _ at_ (plainByte_of_utf8EncodeChar high notQuote notBackslash)
    rw [Nat.sub_add_cancel enough] at taken
    rw [taken, List.utf8Encode_singleton]

/-- The escaped characters of a string, up to the closing quote, are read back as the string's
UTF-8 bytes. -/
theorem reads_stringToken_go (cs : List Char) (at_ : c.rest = escapedBytes cs ++ 34 :: more)
    (enough : (escapedBytes cs).length < fuel) :
    Reads (stringToken.go acc fuel) c (acc ++ cs.utf8Encode) ((escapedBytes cs).length + 1) := by
  -- the induction follows the characters; each one leaves fuel for the rest
  induction cs generalizing c acc fuel with
  | nil =>
    obtain ⟨f, rfl⟩ : ∃ f, fuel = f + 1 := ⟨fuel - 1, by omega⟩
    have closed : Reads (stringToken.go acc (f + 1)) c acc 1 :=
      stringToken_go_close (by simp_all [escapedBytes])
    simpa [escapedBytes, List.utf8Encode_nil] using closed
  | cons ch cs ih =>
    have split : escapedBytes (ch :: cs) =
        (Json.escapeChar ch).toByteArray.data.toList ++ escapedBytes cs := by
      simp [escapedBytes]
    rw [split, List.append_assoc] at at_
    rw [split, List.length_append] at enough ⊢
    obtain ⟨fuel', kept, stepped⟩ :=
      @stringToken_go_char c acc fuel (escapedBytes cs ++ 34 :: more) ch at_ (by omega)
    have rest := @ih (c.advance (Json.escapeChar ch).toByteArray.data.toList.length)
      (acc ++ [ch].utf8Encode) fuel' (by simp [at_]) (by omega)
    unfold Reads at rest ⊢
    rw [stepped, rest, Cursor.advance_advance, ByteArray.append_assoc, ← List.utf8Encode_cons,
      Nat.add_assoc]

/-- After its opening quote, a string as the writer quotes it is read back as that string. -/
theorem reads_stringToken (s : String) (at_ : c.rest = escapedBytes s.toList ++ 34 :: more) :
    Reads stringToken c s ((escapedBytes s.toList).length + 1) := by
  have gathered := @reads_stringToken_go c ByteArray.empty (2 * c.rest.length + 4) more s.toList at_
    (by rw [at_, List.length_append]; simp; omega)
  rw [ByteArray.empty_append, String.utf8Encode_toList] at gathered
  have decoded : (String.fromUTF8? s.toByteArray).getD "" = s := by
    simp [String.fromUTF8?, s.isValidUTF8, String.fromUTF8]
  unfold stringToken
  refine ((reads_fuelLeft c).bind (gathered.bind (m := 0) ?_)).count_eq (by simp)
  rw [decoded]
  exact Reads.pure _ _

end Quoted

end Strings

/-!
## Naturals

The writer prints a natural in decimal; the reader gathers its digits while they fit a word and
reads a natural when neither a fraction nor an exponent follows.
-/

/-- The bytes of a natural's decimal text. -/
def decimalBytes (n : Nat) : List UInt8 := (toString n).toByteArray.data.toList

/-- A byte that ends a number: not a digit, a decimal point or an exponent mark. -/
def EndsNumber (more : List UInt8) : Prop :=
  ∀ b ∈ more.head?, digit? b = none ∧ b ≠ 46 ∧ b ≠ 101 ∧ b ≠ 69

/-- An ASCII character is written as its code. -/
theorem utf8EncodeChar_ascii {ch : Char} (ascii : ch.toNat < 128) :
    String.utf8EncodeChar ch = [ch.toNat.toUInt8] := by
  unfold String.utf8EncodeChar
  simp only [Char.toNat] at ascii ⊢
  rw [if_pos (by omega)]

/-- ASCII characters are written one byte each. -/
theorem flatMap_utf8EncodeChar_ascii {l : List Char} (ascii : ∀ ch ∈ l, ch.toNat < 128) :
    l.flatMap String.utf8EncodeChar = l.map fun ch => ch.toNat.toUInt8 := by
  induction l with
  | nil => rfl
  | cons ch rest ih =>
    rw [List.flatMap_cons, utf8EncodeChar_ascii (ascii ch (by simp)), List.map_cons,
      ih (fun x member => ascii x (by simp [member]))]
    rfl

theorem digitCode {ch : Char} (digit : ch.isDigit) : 48 ≤ ch.toNat ∧ ch.toNat ≤ 57 := by
  simp only [Char.isDigit, Bool.and_eq_true, decide_eq_true_eq, UInt32.le_iff_toNat_le] at digit
  exact digit

/-- The decimal text of a natural is its digit characters, one byte each. -/
theorem decimalBytes_eq (n : Nat) :
    decimalBytes n = (Nat.toDigits 10 n).map fun ch => ch.toNat.toUInt8 := by
  rw [decimalBytes, Nat.toString_eq_ofList_toDigits, String.toByteArray_ofList, List.utf8Encode,
    List.toList_data_toByteArray, flatMap_utf8EncodeChar_ascii]
  intro ch member
  have := digitCode (Nat.isDigit_of_mem_toDigits (by decide) (by decide) member)
  omega

/-- A digit's byte is read as its value. -/
theorem digit?_of_isDigit {ch : Char} (digit : ch.isDigit) :
    digit? ch.toNat.toUInt8 = some (ch.toNat - 48) := by
  have code := digitCode digit
  have byte : (ch.toNat.toUInt8).toNat = ch.toNat := by
    simp [Nat.toUInt8]; omega
  unfold digit?
  rw [if_pos (by simp [UInt8.le_iff_toNat_le, byte]; omega), byte]

/-- The first digit of a positive natural is not zero. -/
theorem toDigits_head_ne_zero {n : Nat} (positive : 0 < n) :
    ∃ d rest, Nat.toDigits 10 n = d :: rest ∧ d ≠ '0' := by
  induction n using Nat.strongRecOn with
  | ind n ih =>
    rw [Nat.toDigits_eq_if (by decide)]
    split
    · exact ⟨_, _, rfl, by simpa using Nat.pos_iff_ne_zero.mp positive⟩
    · obtain ⟨d, rest, first, nonzero⟩ := ih (n / 10) (by omega) (by omega)
      exact ⟨d, rest ++ [Nat.digitChar (n % 10)], by rw [first]; rfl, nonzero⟩

section Decimal

variable {c : Cursor} {more : List UInt8} {sig fuel : Nat}

theorem reads_numberTail (ends : EndsNumber c.rest) : Reads (numberTail true sig) c (.nat sig) 0 := by
  cases at_ : c.rest with
  | nil =>
    have peeked := reads_peekOrNull_end at_
    unfold Reads numberTail at *
    simp only [EStateM.run_bind, peeked, Cursor.advance_zero]
    rfl
  | cons b r =>
    obtain ⟨-, notPoint, notSmall, notLarge⟩ := ends b (by simp [at_])
    have peeked := reads_peekOrNull at_
    unfold Reads numberTail at *
    simp only [EStateM.run_bind, peeked, Cursor.advance_zero]
    rw [if_neg (by simpa using notPoint), if_neg (by simpa using And.intro notSmall notLarge)]
    rfl

/-- Digits are gathered while they fit a word; the natural ends at the first other byte. -/
theorem reads_numberToken_go {l : List Char} (digits : ∀ ch ∈ l, ch.isDigit)
    (at_ : c.rest = l.map (fun ch => ch.toNat.toUInt8) ++ more) (ends : EndsNumber more)
    (fits : Nat.ofDigitChars 10 l sig ≤ wordMax) (enough : l.length ≤ fuel) :
    Reads (numberToken.go true sig fuel) c (.nat (Nat.ofDigitChars 10 l sig)) l.length := by
  induction l generalizing c sig fuel with
  | nil =>
    rw [List.map_nil, List.nil_append] at at_
    have tail := @reads_numberTail c sig (at_ ▸ ends)
    cases fuel with
    | zero => exact tail
    | succ fuel =>
      cases first : more.head? with
      | none =>
        rw [List.head?_eq_none_iff] at first
        have peeked := reads_peek? c
        rw [at_, first] at peeked
        unfold Reads at *
        simp only [numberToken.go, EStateM.run_bind, peeked, Cursor.advance_zero, List.head?_nil,
          Option.bind_none]
        exact tail
      | some b =>
        have peeked := reads_peek? c
        rw [at_, first] at peeked
        unfold Reads at *
        simp only [numberToken.go, EStateM.run_bind, peeked, Cursor.advance_zero, Option.bind_some,
          (ends b first).1]
        exact tail
  | cons ch l ih =>
    cases fuel with
    | zero => simp at enough
    | succ fuel =>
      have code := digitCode (digits ch (by simp))
      have value : 10 * sig + (ch.toNat - '0'.toNat) = sig * 10 + (ch.toNat - 48) := by
        simp only [Char.reduceToNat]; omega
      rw [Nat.ofDigitChars_cons, value] at fits ⊢
      -- the digits read so far never exceed the whole natural, so they fit a word
      have grown : sig * 10 + (ch.toNat - 48) ≤ wordMax := by
        rw [Nat.ofDigitChars_eq_ofDigitChars_zero] at fits
        calc sig * 10 + (ch.toNat - 48)
            ≤ 10 ^ l.length * (sig * 10 + (ch.toNat - 48)) :=
              Nat.le_mul_of_pos_left _ (Nat.pow_pos (by decide))
          _ ≤ 10 ^ l.length * (sig * 10 + (ch.toNat - 48)) + Nat.ofDigitChars 10 l 0 :=
              Nat.le_add_right _ _
          _ ≤ wordMax := fits
      have rest := @ih (c.advance 1) (sig * 10 + (ch.toNat - 48)) fuel
        (fun x member => digits x (by simp [member])) (by simp [at_]) fits
        (by simpa using enough)
      have peeked := reads_peek? c
      rw [at_] at peeked
      unfold Reads at *
      simp only [numberToken.go, EStateM.run_bind, peeked, Cursor.advance_zero, List.map_cons,
        List.cons_append, List.head?_cons, Option.bind_some, digit?_of_isDigit (digits ch (by simp))]
      rw [if_neg (by simpa using grown)]
      simp only [EStateM.run_bind]
      rw [show EStateM.run eat c = .ok () (c.advance 1) from rfl]
      simp only [rest, Cursor.advance_advance, List.length_cons, Nat.add_comm]

/-- The decimal text of a natural that fits a word is read back as that natural. -/
theorem reads_decimal {n : Nat} (fits : n ≤ wordMax) (at_ : c.rest = decimalBytes n ++ more)
    (ends : EndsNumber more) : Reads (numberToken true) c (.nat n) (decimalBytes n).length := by
  rw [decimalBytes_eq] at at_ ⊢
  have digits : ∀ ch ∈ Nat.toDigits 10 n, ch.isDigit := fun ch member =>
    Nat.isDigit_of_mem_toDigits (by decide) (by decide) member
  unfold numberToken
  by_cases zero : n = 0
  · -- zero is the digit `0` alone, and no digit may follow it
    subst zero
    rw [Nat.toDigits_zero] at at_ ⊢
    have next := reads_next? at_
    refine (next.bind (m := 0) ?_).count_eq rfl
    simp only
    rw [if_pos (by decide)]
    have after : (c.advance 1).rest = more := by simp [at_]
    have tail := @reads_numberTail (c.advance 1) 0 (after ▸ ends)
    cases more with
    | nil =>
      refine ((reads_peekOrNull_end after).bind (m := 0) ?_).count_eq rfl
      rw [show digit? 0 = none from rfl]
      exact tail
    | cons b r =>
      refine ((reads_peekOrNull after).bind (m := 0) ?_).count_eq rfl
      rw [(ends b rfl).1]
      exact tail
  · obtain ⟨d, rest, first, nonzero⟩ := toDigits_head_ne_zero (Nat.pos_of_ne_zero zero)
    rw [first] at at_ digits ⊢
    have code := digitCode (digits d (by simp))
    have notZeroByte : ¬(d.toNat.toUInt8 == 48) = true := by
      intro same
      apply nonzero
      have : d.toNat = 48 := by
        simp [← UInt8.toNat_inj, Nat.toUInt8] at same; omega
      exact Char.ext (UInt32.toNat_inj.mp this)
    have next := reads_next? (by simpa using at_)
    have value : Nat.ofDigitChars 10 rest (d.toNat - 48) = n := by
      have whole := @Nat.ofDigitChars_ten_toDigits n
      rw [first, Nat.ofDigitChars_cons] at whole
      simpa using whole
    have gathered := @reads_numberToken_go (c.advance 1) more (d.toNat - 48)
      (2 * (c.advance 1).rest.length + 4) rest (fun x member => digits x (by simp [member]))
      (by simp [at_]) ends (by rw [value]; exact fits) (by simp [at_]; omega)
    rw [value] at gathered
    refine (next.bind (m := 0 + rest.length) ?_).count_eq (by simp; omega)
    simp only
    rw [if_neg notZeroByte, digit?_of_isDigit (digits d (by simp))]
    exact (reads_fuelLeft _).bind gathered

end Decimal

end JsonText

end RegionNet
