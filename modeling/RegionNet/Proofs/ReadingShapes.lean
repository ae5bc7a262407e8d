import Mathlib.Data.List.Forall2
import RegionNet.Proofs.ReadingTokens

namespace RegionNet

namespace JsonText

/-!
# Reading back indented values against their shapes

The writer indents a value (`Json.renderPretty`): an array or object opens a line per item,
indented two blanks deeper, and closes on a line of its own. This module gives the bytes of that
layout and follows the shape reader (`Shape.read`) through them. `ReadsBack shape level j depth`
says that a read of `shape` gives back the value `j` written at nesting `level`, from after any
blanks, with a nesting budget above `depth` and enough fuel; it is shown for naturals, strings,
sequences of values that read back and records whose fields do, and `read_renderPretty` turns it
into a statement about a whole text.
-/

/-!
## The layout
-/

/-- The bytes of a value as the writer indents it at a nesting level. -/
def prettyBytes (level : Nat) (j : Json) : List UInt8 :=
  (Json.renderPrettyAt level j).toByteArray.data.toList

/-- The bytes of array items indented at a level. -/
def itemsBytes (level : Nat) (xs : List Json) : List UInt8 :=
  (Json.renderPrettyItems level xs).toByteArray.data.toList

/-- The bytes of object members indented at a level. -/
def membersBytes (level : Nat) (ms : List (String × Json)) : List UInt8 :=
  (Json.renderPrettyMembers level ms).toByteArray.data.toList

/-- The blanks that indent a line at a nesting level. -/
def indentBytes (level : Nat) : List UInt8 := List.replicate (2 * level) 32

/-- Bytes that are all blanks. -/
def AllBlank (bs : List UInt8) : Prop := ∀ b ∈ bs, IsBlank b

section Layout

variable {level : Nat}

theorem indent_bytes (level : Nat) :
    (Json.indent level).toByteArray.data.toList = indentBytes level := by
  rw [Json.indent, String.toByteArray_ofList, List.utf8Encode, List.toList_data_toByteArray,
    flatMap_utf8EncodeChar_ascii (by simp [List.mem_replicate])]
  simp [indentBytes, List.map_replicate]

theorem allBlank_indent (level : Nat) : AllBlank (indentBytes level) := by
  intro b member
  rw [indentBytes, List.mem_replicate] at member
  exact .inl member.2

theorem allBlank_append {bs bs' : List UInt8} (first : AllBlank bs) (second : AllBlank bs') :
    AllBlank (bs ++ bs') := by
  intro b member
  rcases List.mem_append.mp member with inFirst | inSecond
  · exact first b inFirst
  · exact second b inSecond

theorem allBlank_lineBreak : AllBlank [10] := by
  intro b member
  rw [List.mem_singleton] at member
  exact .inr (.inr (.inl member))

theorem prettyBytes_nat (n : Nat) : prettyBytes level (.number (.nat n)) = decimalBytes n := by
  simp [prettyBytes, Json.renderPrettyAt, Json.render, JsonNumber.render, decimalBytes]

theorem prettyBytes_string (s : String) :
    prettyBytes level (.string s) = 34 :: escapedBytes s.toList ++ [34] := by
  rw [← quote_bytes]
  simp [prettyBytes, Json.renderPrettyAt, Json.render]

theorem prettyBytes_emptyArray : prettyBytes level (.array []) = [91, 93] := by
  simp only [prettyBytes, Json.renderPrettyAt]
  decide

theorem prettyBytes_array {x : Json} {xs : List Json} :
    prettyBytes level (.array (x :: xs)) =
      91 :: 10 :: itemsBytes (level + 1) (x :: xs) ++ 10 :: indentBytes level ++ [93] := by
  simp only [prettyBytes, itemsBytes, Json.renderPrettyAt, String.toByteArray_append,
    ByteArray.toList_data_append, indent_bytes]
  have opening : "[\n".toByteArray.data.toList = [91, 10] := by decide
  have lineBreak : "\n".toByteArray.data.toList = [10] := by decide
  have closing : "]".toByteArray.data.toList = [93] := by decide
  simp [opening, lineBreak, closing]

theorem itemsBytes_single (x : Json) :
    itemsBytes level [x] = indentBytes level ++ prettyBytes level x := by
  simp [itemsBytes, prettyBytes, Json.renderPrettyItems, String.toByteArray_append, indent_bytes]

theorem itemsBytes_cons_cons (x y : Json) (xs : List Json) :
    itemsBytes level (x :: y :: xs) =
      indentBytes level ++ prettyBytes level x ++ 44 :: 10 :: itemsBytes level (y :: xs) := by
  have separator : ",\n".toByteArray.data.toList = [44, 10] := by decide
  simp [itemsBytes, prettyBytes, Json.renderPrettyItems, String.toByteArray_append, indent_bytes,
    separator]

/-- The bytes of a member's key and the colon and blank after it. -/
def keyBytes (k : String) : List UInt8 := 34 :: escapedBytes k.toList ++ [34, 58, 32]

theorem prettyBytes_emptyObject : prettyBytes level (.object []) = [123, 125] := by
  simp only [prettyBytes, Json.renderPrettyAt]
  decide

theorem prettyBytes_object {m : String × Json} {ms : List (String × Json)} :
    prettyBytes level (.object (m :: ms)) =
      123 :: 10 :: membersBytes (level + 1) (m :: ms) ++ 10 :: indentBytes level ++ [125] := by
  simp only [prettyBytes, membersBytes, Json.renderPrettyAt, String.toByteArray_append,
    ByteArray.toList_data_append, indent_bytes]
  have opening : "\x7b\n".toByteArray.data.toList = [123, 10] := by decide
  have lineBreak : "\n".toByteArray.data.toList = [10] := by decide
  have closing : "\x7d".toByteArray.data.toList = [125] := by decide
  simp [opening, lineBreak, closing]

theorem membersBytes_single (k : String) (v : Json) :
    membersBytes level [(k, v)] = indentBytes level ++ keyBytes k ++ prettyBytes level v := by
  have colon : ": ".toByteArray.data.toList = [58, 32] := by decide
  simp [membersBytes, prettyBytes, keyBytes, Json.renderPrettyMembers, String.toByteArray_append,
    indent_bytes, quote_bytes, colon]

theorem membersBytes_cons_cons (k : String) (v : Json) (m : String × Json)
    (ms : List (String × Json)) :
    membersBytes level ((k, v) :: m :: ms) =
      indentBytes level ++ keyBytes k ++ prettyBytes level v ++ 44 :: 10 ::
        membersBytes level (m :: ms) := by
  have colon : ": ".toByteArray.data.toList = [58, 32] := by decide
  have separator : ",\n".toByteArray.data.toList = [44, 10] := by decide
  obtain ⟨k', v'⟩ := m
  simp [membersBytes, prettyBytes, keyBytes, Json.renderPrettyMembers, String.toByteArray_append,
    indent_bytes, quote_bytes, colon, separator]

end Layout

/-!
## Punctuation

The writer puts a comma or a colon right after what it follows and blanks only after it, so the
lemmas below take blanks before a value or a closing bracket and none before a comma or a colon.
-/

/-- Past the bytes in front of a cursor stand the bytes behind them. -/
theorem Cursor.rest_advance_of_eq {c : Cursor} {front back : List UInt8} {n : Nat}
    (at_ : c.rest = front ++ back) (length : front.length = n) : (c.advance n).rest = back := by
  rw [Cursor.rest_advance, at_, ← length, List.drop_left]

section Punctuation

variable {c : Cursor} {blanks blanks' r : List UInt8} {b : UInt8}

theorem reads_skipBlanks_to (at_ : c.rest = blanks ++ b :: r) (blank : AllBlank blanks)
    (stop : ¬IsBlank b) : Reads skipBlanks c (some b) blanks.length :=
  reads_skipBlanks at_ blank (by simpa using stop)

theorem reads_valueStart (at_ : c.rest = blanks ++ b :: r) (blank : AllBlank blanks)
    (stop : ¬IsBlank b) : Reads valueStart c b blanks.length := by
  unfold valueStart
  exact ((reads_skipBlanks_to at_ blank stop).bind (Reads.pure _ b)).count_eq (by simp)

theorem reads_enter {depth : Nat} (room : 1 < depth) : Reads (enter depth) c (depth - 1) 1 := by
  unfold enter
  rw [if_neg (by omega)]
  exact ((reads_eat c).bind (Reads.pure _ (depth - 1))).count_eq rfl

theorem reads_closeArray (at_ : c.rest = blanks ++ 93 :: r) (blank : AllBlank blanks) :
    Reads closeArray c () (blanks.length + 1) := by
  unfold closeArray
  exact (reads_skipBlanks_to at_ blank (by decide)).bind (reads_eat _)

theorem reads_closeObject (at_ : c.rest = blanks ++ 125 :: r) (blank : AllBlank blanks) :
    Reads closeObject c () (blanks.length + 1) := by
  unfold closeObject
  exact (reads_skipBlanks_to at_ blank (by decide)).bind (reads_eat _)

theorem reads_colon (at_ : c.rest = 58 :: r) : Reads colon c () 1 := by
  unfold colon
  refine ((@reads_skipBlanks_to c [] r 58 at_ (by simp [AllBlank]) (by decide)).bind
    (m := 1) ?_).count_eq rfl
  exact reads_eat _

theorem reads_nextItem_end {first : Bool} (at_ : c.rest = blanks ++ 93 :: r)
    (blank : AllBlank blanks) : Reads (nextItem first) c none blanks.length := by
  unfold nextItem
  exact ((reads_skipBlanks_to at_ blank (by decide)).bind (Reads.pure _ none)).count_eq (by simp)

theorem reads_nextItem_first (at_ : c.rest = blanks ++ b :: r) (blank : AllBlank blanks)
    (stop : ¬IsBlank b) (open_ : b ≠ 93) : Reads (nextItem true) c (some b) blanks.length := by
  unfold nextItem
  refine ((reads_skipBlanks_to at_ blank stop).bind (m := 0) ?_).count_eq (by simp)
  split
  next closing => exact absurd (Option.some.inj closing) open_
  next same =>
    cases same
    rw [if_neg (by simp), if_pos rfl]
    exact Reads.pure _ _
  next none_ => cases none_

theorem reads_nextItem_later (at_ : c.rest = 44 :: blanks ++ b :: r) (blank : AllBlank blanks)
    (stop : ¬IsBlank b) (open_ : b ≠ 93) :
    Reads (nextItem false) c (some b) (1 + blanks.length) := by
  unfold nextItem
  refine ((@reads_skipBlanks_to c [] _ 44 at_ (by simp [AllBlank]) (by decide)).bind
    (m := 1 + blanks.length) ?_).count_eq (by simp)
  split
  next closing => cases closing
  next same =>
    cases same
    rw [if_pos (by decide)]
    refine ((reads_eat _).bind ((@reads_skipBlanks_to _ blanks r b (by simp [at_]) blank stop).bind
      (m := 0) ?_)).count_eq (by simp)
    split
    next closing => exact absurd (Option.some.inj closing) open_
    next same => cases same; exact Reads.pure _ _
    next none_ => cases none_
  next none_ => cases none_

theorem reads_nextKey_end {first : Bool} (at_ : c.rest = blanks ++ 125 :: r)
    (blank : AllBlank blanks) : Reads (nextKey first) c none blanks.length := by
  unfold nextKey
  exact ((reads_skipBlanks_to at_ blank (by decide)).bind (Reads.pure _ none)).count_eq (by simp)

/-- A key after its opening quote's position: the quote, the escaped key and the closing quote. -/
theorem reads_key {k : String} (at_ : c.rest = 34 :: (escapedBytes k.toList ++ 34 :: r)) :
    Reads (do eat; return some (← stringToken)) c (some k)
      ((escapedBytes k.toList).length + 2) := by
  have quoted := @reads_stringToken (c.advance 1) r k (by simp [at_])
  refine ((reads_eat c).bind (m := (escapedBytes k.toList).length + 1)
    (quoted.bind (m := 0) ?_)).count_eq (by omega)
  exact Reads.pure _ _

theorem reads_nextKey_first {k : String}
    (at_ : c.rest = blanks ++ 34 :: (escapedBytes k.toList ++ 34 :: r)) (blank : AllBlank blanks) :
    Reads (nextKey true) c (some k) (blanks.length + ((escapedBytes k.toList).length + 2)) := by
  unfold nextKey
  refine (reads_skipBlanks_to at_ blank (by decide)).bind ?_
  split
  next closing => cases closing
  next same =>
    cases same
    rw [if_neg (by decide), if_pos rfl]
    refine ((Reads.pure _ (some 34)).bind
      (m := (escapedBytes k.toList).length + 2) ?_).count_eq (by simp)
    exact @reads_key _ r k (by simp [at_])
  next none_ => cases none_

theorem reads_nextKey_later {k : String}
    (at_ : c.rest = 44 :: (blanks ++ 34 :: (escapedBytes k.toList ++ 34 :: r)))
    (blank : AllBlank blanks) :
    Reads (nextKey false) c (some k) (1 + blanks.length + ((escapedBytes k.toList).length + 2)) := by
  unfold nextKey
  refine ((@reads_skipBlanks_to c [] _ 44 at_ (by simp [AllBlank]) (by decide)).bind
    (m := 1 + blanks.length + ((escapedBytes k.toList).length + 2)) ?_).count_eq (by simp)
  split
  next closing => cases closing
  next same =>
    cases same
    rw [if_pos (by decide)]
    have skipped := @reads_skipBlanks_to ((c.advance ([] : List UInt8).length).advance 1) blanks
      (escapedBytes k.toList ++ 34 :: r) 34 (by simp [at_]) blank (by decide)
    refine ((reads_eat _).bind (m := blanks.length + ((escapedBytes k.toList).length + 2))
      (skipped.bind ?_)).count_eq (by omega)
    exact @reads_key _ r k (by simp [at_, Nat.add_comm 1])
  next none_ => cases none_

end Punctuation

/-!
## Naturals and strings
-/

/-- A decimal text starts with a digit byte. -/
theorem decimalBytes_cons (n : Nat) :
    ∃ k ds, decimalBytes n = k.toUInt8 :: ds ∧ 48 ≤ k ∧ k ≤ 57 := by
  rw [decimalBytes_eq]
  obtain ⟨ch, rest, first⟩ := List.exists_cons_of_ne_nil (@Nat.toDigits_ne_nil n 10)
  have code := digitCode (Nat.isDigit_of_mem_toDigits (by decide) (by decide)
    (first ▸ List.mem_cons_self : ch ∈ Nat.toDigits 10 n))
  exact ⟨ch.toNat, _, by rw [first, List.map_cons], code⟩

/-- A digit byte is no blank, no minus sign and no closing bracket. -/
theorem digitByte {k : Nat} (low : 48 ≤ k) (high : k ≤ 57) :
    ¬IsBlank k.toUInt8 ∧ k.toUInt8 ≠ 45 ∧ k.toUInt8 ≠ 93 ∧ (digit? k.toUInt8).isSome := by
  have digits : ∀ k < 58, 48 ≤ k →
      ¬IsBlank k.toUInt8 ∧ k.toUInt8 ≠ 45 ∧ k.toUInt8 ≠ 93 ∧ (digit? k.toUInt8).isSome := by
    decide
  exact digits k (by omega) low

theorem le_wordMax_of_lt_pow2 {n bits : Nat} (fits : n < pow2 bits) (word : bits ≤ 64) :
    n ≤ wordMax := by
  have grows : pow2 bits ≤ pow2 64 := Nat.pow_le_pow_right (by decide) word
  unfold wordMax wordSize
  omega

section Leaves

variable {c : Cursor} {blanks more : List UInt8}

theorem Reads.positioned {α : Type} {p : Parse α} {v : α} {n : Nat} (through : Reads p c v n) :
    Reads (JsonText.positioned p) c v n :=
  Reads.tryCatch through

/-- A natural below the bound of its width is read back by the unsigned reader of that width. -/
theorem reads_readUnsigned {n bits : Nat} {label : String} (fits : n < pow2 bits)
    (word : bits ≤ 64) (at_ : c.rest = blanks ++ decimalBytes n ++ more)
    (blank : AllBlank blanks) (ends : EndsNumber more) :
    Reads (readUnsigned bits label) c (.number (.nat n))
      (blanks.length + (decimalBytes n).length) := by
  obtain ⟨k, ds, bytes, low, high⟩ := decimalBytes_cons n
  obtain ⟨notBlank, notMinus, -, digit⟩ := digitByte low high
  have start : c.rest = blanks ++ k.toUInt8 :: (ds ++ more) := by simp [at_, bytes]
  unfold readUnsigned
  refine Reads.positioned ((reads_valueStart start blank notBlank).bind ?_)
  rw [if_neg (by simpa using notMinus), if_pos digit]
  have number := @reads_decimal (c.advance blanks.length) more n
    (le_wordMax_of_lt_pow2 fits word) (by simp [at_]) ends
  refine (number.bind (m := 0) ?_).count_eq (by simp)
  simp only
  rw [if_pos fits]
  exact Reads.pure _ _

/-- A string as the writer quotes it is read back by the string reader. -/
theorem reads_readText {s : String}
    (at_ : c.rest = blanks ++ 34 :: (escapedBytes s.toList ++ 34 :: more))
    (blank : AllBlank blanks) :
    Reads readText c (.string s) (blanks.length + ((escapedBytes s.toList).length + 2)) := by
  unfold readText
  refine Reads.positioned ((reads_valueStart at_ blank (by decide)).bind ?_)
  rw [if_pos (by decide)]
  have quoted := @reads_stringToken ((c.advance blanks.length).advance 1) more s (by simp [at_])
  refine ((reads_eat _).bind (m := (escapedBytes s.toList).length + 1)
    (quoted.bind (m := 0) ?_)).count_eq (by omega)
  exact Reads.pure _ _

end Leaves

/-!
## Values read back by their shapes
-/

/-- A value written at a nesting level is read back by a shape from after any blanks, with a
nesting budget above `depth` and at least as much fuel as it has bytes, whatever follows it that
does not continue a number. Its first byte is neither a blank nor a closing bracket, so the
reader of an array's items stops there. -/
structure ReadsBack (shape : Shape) (level : Nat) (j : Json) (depth : Nat) : Prop where
  starts : ∃ b r, prettyBytes level j = b :: r ∧ ¬IsBlank b ∧ b ≠ 93
  reads : ∀ (budget fuel : Nat) (c : Cursor) (blanks more : List UInt8), depth < budget →
    (prettyBytes level j).length ≤ fuel → AllBlank blanks → EndsNumber more →
    c.rest = blanks ++ prettyBytes level j ++ more →
    Reads (readShape budget fuel shape) c j (blanks.length + (prettyBytes level j).length)

theorem ReadsBack.length_pos {shape : Shape} {level depth : Nat} {j : Json}
    (back : ReadsBack shape level j depth) : 0 < (prettyBytes level j).length := by
  obtain ⟨b, r, first, -⟩ := back.starts
  simp [first]

/-- A value read back within one nesting budget is read back within any larger one. -/
theorem ReadsBack.mono {shape : Shape} {level depth depth' : Nat} {j : Json}
    (back : ReadsBack shape level j depth) (deeper : depth ≤ depth') :
    ReadsBack shape level j depth' where
  starts := back.starts
  reads budget fuel c blanks more room :=
    back.reads budget fuel c blanks more (Nat.lt_of_le_of_lt deeper room)

section LeafShapes

variable {level : Nat}

theorem readsBack_unsigned {n bits : Nat} {label : String} (fits : n < pow2 bits)
    (word : bits ≤ 64) : ReadsBack (.unsigned bits label) level (.number (.nat n)) 0 := by
  obtain ⟨k, ds, bytes, low, high⟩ := decimalBytes_cons n
  obtain ⟨notBlank, -, notClose, -⟩ := digitByte low high
  refine ⟨⟨_, _, by rw [prettyBytes_nat, bytes], notBlank, notClose⟩, ?_⟩
  intro budget fuel c blanks more _ enough blank ends at_
  rw [prettyBytes_nat] at enough at_ ⊢
  obtain ⟨f, rfl⟩ : ∃ f, fuel = f + 1 := ⟨fuel - 1, by simp [bytes] at enough; omega⟩
  rw [readShape]
  exact reads_readUnsigned fits word at_ blank ends

theorem readsBack_text {s : String} : ReadsBack .text level (.string s) 0 := by
  refine ⟨⟨_, _, prettyBytes_string s, by decide, by decide⟩, ?_⟩
  intro budget fuel c blanks more _ enough blank _ at_
  rw [prettyBytes_string] at enough at_ ⊢
  obtain ⟨f, rfl⟩ : ∃ f, fuel = f + 1 := ⟨fuel - 1, by simp at enough; omega⟩
  rw [readShape]
  exact (@reads_readText c blanks more s (by simp [at_]) blank).count_eq (by simp)

end LeafShapes

/-!
## Sequences
-/

/-- The bytes of the array items after the first: each after a comma and a line break. -/
def laterItemsBytes (level : Nat) (xs : List Json) : List UInt8 :=
  xs.flatMap fun x => 44 :: 10 :: (indentBytes level ++ prettyBytes level x)

theorem itemsBytes_cons {level : Nat} (x : Json) (xs : List Json) :
    itemsBytes level (x :: xs) =
      indentBytes level ++ prettyBytes level x ++ laterItemsBytes level xs := by
  induction xs generalizing x with
  | nil => simp [itemsBytes_single, laterItemsBytes]
  | cons y ys ih =>
    rw [itemsBytes_cons_cons, ih]
    simp [laterItemsBytes]

/-- A comma or a line break ends a number. -/
theorem endsNumber_separator {b : UInt8} {r : List UInt8} (stops : b = 44 ∨ b = 10) :
    EndsNumber (b :: r) := by
  intro b' first
  rw [List.head?_cons, Option.mem_some_iff] at first
  subst first
  rcases stops with rfl | rfl <;> decide

theorem endsNumber_laterItems {level : Nat} (xs : List Json) (t : List UInt8) :
    EndsNumber (laterItemsBytes level xs ++ 10 :: t) := by
  cases xs with
  | nil => exact endsNumber_separator (.inr rfl)
  | cons x xs => simpa [laterItemsBytes] using endsNumber_separator (.inl rfl)

section Sequences

variable {level depth budget : Nat} {item : Shape} {c : Cursor} {r : List UInt8}

/-- The items after the first, each after its comma, are read up to the closing bracket, which
stands on a line of its own. -/
theorem reads_laterItems (xs : List Json) (items : ∀ x ∈ xs, ReadsBack item (level + 1) x depth)
    (room : depth < budget) {acc : List Json} {fuel : Nat}
    (enough : (laterItemsBytes (level + 1) xs).length < fuel)
    (at_ : c.rest = laterItemsBytes (level + 1) xs ++ 10 :: (indentBytes level ++ 93 :: r)) :
    Reads (sequenceItems budget fuel item false acc) c (acc.reverse ++ xs)
      ((laterItemsBytes (level + 1) xs).length + (1 + (indentBytes level).length)) := by
  -- the induction follows the items; each takes one unit of fuel and is read with the rest
  induction xs generalizing acc fuel c with
  | nil =>
    obtain ⟨f, rfl⟩ : ∃ f, fuel = f + 1 := ⟨fuel - 1, by omega⟩
    rw [sequenceItems]
    refine ((@reads_nextItem_end c (10 :: indentBytes level) r false
      (by simpa [laterItemsBytes] using at_) (allBlank_append allBlank_lineBreak
        (allBlank_indent level))).bind (m := 0) ?_).count_eq (by simp [laterItemsBytes, Nat.add_comm])
    simpa using Reads.pure _ acc.reverse
  | cons x xs ih =>
    obtain ⟨f, rfl⟩ : ∃ f, fuel = f + 1 := ⟨fuel - 1, by omega⟩
    have back := items x (by simp)
    have positive := back.length_pos
    obtain ⟨b, bs, first, notBlank, notClose⟩ := back.starts
    have later : laterItemsBytes (level + 1) (x :: xs) =
        44 :: 10 :: (indentBytes (level + 1) ++ prettyBytes (level + 1) x ++
          laterItemsBytes (level + 1) xs) := by
      simp [laterItemsBytes]
    rw [later] at enough at_
    simp only [List.length_cons, List.length_append] at enough
    rw [sequenceItems]
    have next := @reads_nextItem_later c (10 :: indentBytes (level + 1))
      (bs ++ laterItemsBytes (level + 1) xs ++ 10 :: (indentBytes level ++ 93 :: r)) b
      (by simp [at_, first]) (allBlank_append allBlank_lineBreak (allBlank_indent _)) notBlank
      notClose
    have value := back.reads budget f (c.advance (1 + (10 :: indentBytes (level + 1)).length)) []
      (laterItemsBytes (level + 1) xs ++ 10 :: (indentBytes level ++ 93 :: r)) room (by omega)
      (by simp [AllBlank]) (endsNumber_laterItems xs _)
      (@Cursor.rest_advance_of_eq c (44 :: 10 :: indentBytes (level + 1)) _ _ (by simp [at_])
        (by simp; omega))
    rw [List.length_nil, Nat.zero_add] at value
    have rest := @ih ((c.advance (1 + (10 :: indentBytes (level + 1)).length)).advance
      (prettyBytes (level + 1) x).length) (fun y member => items y (by simp [member]))
      (x :: acc) f (by omega)
      (by
        rw [Cursor.advance_advance]
        exact @Cursor.rest_advance_of_eq c
          (44 :: 10 :: (indentBytes (level + 1) ++ prettyBytes (level + 1) x)) _ _ (by simp [at_])
          (by simp; omega))
    rw [List.reverse_cons, List.append_assoc, List.singleton_append] at rest
    refine (next.bind (value.bind rest)).count_eq ?_
    simp [later]
    omega

/-- The items of a nonempty array, from the line break after its opening bracket to the closing
bracket's line. -/
theorem reads_items (x : Json) (xs : List Json)
    (items : ∀ y ∈ x :: xs, ReadsBack item (level + 1) y depth) (room : depth < budget)
    {fuel : Nat} (enough : (itemsBytes (level + 1) (x :: xs)).length < fuel)
    (at_ : c.rest =
      10 :: (itemsBytes (level + 1) (x :: xs) ++ 10 :: (indentBytes level ++ 93 :: r))) :
    Reads (sequenceItems budget fuel item true []) c (x :: xs)
      (1 + (itemsBytes (level + 1) (x :: xs)).length + (1 + (indentBytes level).length)) := by
  obtain ⟨f, rfl⟩ : ∃ f, fuel = f + 1 := ⟨fuel - 1, by omega⟩
  have back := items x (by simp)
  have positive := back.length_pos
  obtain ⟨b, bs, first, notBlank, notClose⟩ := back.starts
  rw [itemsBytes_cons] at enough at_ ⊢
  simp only [List.length_append] at enough
  rw [sequenceItems]
  have next := @reads_nextItem_first c (10 :: indentBytes (level + 1))
    (bs ++ laterItemsBytes (level + 1) xs ++ 10 :: (indentBytes level ++ 93 :: r)) b
    (by simp [at_, first]) (allBlank_append allBlank_lineBreak (allBlank_indent _)) notBlank
    notClose
  have value := back.reads budget f (c.advance (10 :: indentBytes (level + 1)).length) []
    (laterItemsBytes (level + 1) xs ++ 10 :: (indentBytes level ++ 93 :: r)) room (by omega)
    (by simp [AllBlank]) (endsNumber_laterItems xs _)
    (@Cursor.rest_advance_of_eq c (10 :: indentBytes (level + 1)) _ _ (by simp [at_]) rfl)
  rw [List.length_nil, Nat.zero_add] at value
  have rest := @reads_laterItems level depth budget item
    ((c.advance (10 :: indentBytes (level + 1)).length).advance (prettyBytes (level + 1) x).length)
    r xs (fun y member => items y (by simp [member])) room [x] f (by omega)
    (by
      rw [Cursor.advance_advance]
      exact @Cursor.rest_advance_of_eq c
        (10 :: (indentBytes (level + 1) ++ prettyBytes (level + 1) x)) _ _ (by simp [at_])
        (by simp; omega))
  rw [List.reverse_singleton, List.singleton_append] at rest
  refine (next.bind (value.bind rest)).count_eq ?_
  simp
  omega

/-- The items of an empty array: none, whatever the fuel. -/
theorem reads_noItems {fuel : Nat} (at_ : c.rest = 93 :: r) :
    Reads (sequenceItems budget fuel item true []) c [] 0 := by
  cases fuel with
  | zero =>
    rw [sequenceItems]
    exact Reads.pure _ _
  | succ f =>
    rw [sequenceItems]
    refine ((@reads_nextItem_end c [] r true at_ (by simp [AllBlank])).bind (m := 0) ?_).count_eq rfl
    exact Reads.pure _ _

/-- An array is read from its opening to its closing bracket when its items are. -/
theorem reads_readSequence {xs : List Json} {blanks body : List UInt8} {f : Nat}
    (room : 1 < budget) (at_ : c.rest = blanks ++ 91 :: (body ++ 93 :: r))
    (blank : AllBlank blanks)
    (inside : Reads (sequenceItems (budget - 1) f item true []) (c.advance (blanks.length + 1)) xs
      body.length) :
    Reads (readSequence budget (f + 1) item) c (.array xs) (blanks.length + (body.length + 2)) := by
  rw [readSequence]
  refine Reads.positioned ((reads_valueStart at_ blank (by decide)).bind ?_)
  rw [if_pos (by decide)]
  rw [← Cursor.advance_advance] at inside
  have closed := @reads_closeArray
    (((c.advance blanks.length).advance 1).advance body.length) [] r
    (by
      rw [Cursor.advance_advance, Cursor.advance_advance]
      exact @Cursor.rest_advance_of_eq c (blanks ++ 91 :: body) _ _ (by simp [at_])
        (by simp; omega))
    (by simp [AllBlank])
  refine ((reads_enter room).bind ((Reads.tryCatch inside).bind
    (closed.bind (m := 0) ?_))).count_eq (by simp; omega)
  exact Reads.pure _ _

end Sequences

/-- An array of values that its item shape reads back is read back by the sequence shape, one
level of nesting deeper. -/
theorem readsBack_sequence {level depth : Nat} {item : Shape} {xs : List Json}
    (items : ∀ x ∈ xs, ReadsBack item (level + 1) x depth) :
    ReadsBack (.sequence item) level (.array xs) (depth + 1) := by
  cases xs with
  | nil =>
    refine ⟨⟨91, [93], prettyBytes_emptyArray, by decide, by decide⟩, ?_⟩
    intro budget fuel c blanks more room enough blank _ at_
    rw [prettyBytes_emptyArray] at enough at_ ⊢
    obtain ⟨g, rfl⟩ : ∃ g, fuel = g + 1 + 1 := ⟨fuel - 2, by simp at enough; omega⟩
    rw [readShape]
    exact (@reads_readSequence budget item c more [] blanks [] g (by omega) (by simp [at_]) blank
      (@reads_noItems (budget - 1) item (c.advance (blanks.length + 1)) more g
        (by simp [at_]))).count_eq (by simp)
  | cons x xs =>
    refine ⟨⟨91, _, prettyBytes_array, by decide, by decide⟩, ?_⟩
    intro budget fuel c blanks more room enough blank _ at_
    rw [prettyBytes_array] at enough at_ ⊢
    simp only [List.length_cons, List.length_append] at enough
    obtain ⟨g, rfl⟩ : ∃ g, fuel = g + 1 + 1 := ⟨fuel - 2, by omega⟩
    rw [readShape]
    have inside := @reads_items level depth (budget - 1) item (c.advance (blanks.length + 1)) more
      x xs items (by omega) g (by omega)
      (@Cursor.rest_advance_of_eq c (blanks ++ [91]) _ _ (by simp [at_]) (by simp))
    exact (@reads_readSequence budget item c more _ blanks
      (10 :: (itemsBytes (level + 1) (x :: xs) ++ 10 :: indentBytes level)) g (by omega)
      (by simp [at_]) blank (inside.count_eq (by simp; omega))).count_eq (by simp; omega)

/-!
## Records

A record written by the writer is an object of its fields in declared order, each under its
name; the reader finds each key among the fields, refuses none as a repeat, and completes the
members it read into the same list.
-/

/-- The bytes of the object members after the first: each after a comma and a line break. -/
def laterMembersBytes (level : Nat) (ms : List (String × Json)) : List UInt8 :=
  ms.flatMap fun m => 44 :: 10 :: (indentBytes level ++ keyBytes m.1 ++ prettyBytes level m.2)

theorem membersBytes_cons {level : Nat} (m : String × Json) (ms : List (String × Json)) :
    membersBytes level (m :: ms) =
      indentBytes level ++ keyBytes m.1 ++ prettyBytes level m.2 ++ laterMembersBytes level ms := by
  obtain ⟨k, v⟩ := m
  induction ms generalizing k v with
  | nil => simp [membersBytes_single, laterMembersBytes]
  | cons m' ms ih =>
    rw [membersBytes_cons_cons, ih]
    simp [laterMembersBytes]

theorem endsNumber_laterMembers {level : Nat} (ms : List (String × Json)) (t : List UInt8) :
    EndsNumber (laterMembersBytes level ms ++ 10 :: t) := by
  cases ms with
  | nil => exact endsNumber_separator (.inr rfl)
  | cons m ms => simpa [laterMembersBytes] using endsNumber_separator (.inl rfl)

/-- A member is read back among a record's fields: the field its key finds has the key as its
name, and that field's shape reads the member's value back. -/
def MemberReadsBack (fields : List (Field Shape)) (level depth : Nat) (m : String × Json) :
    Prop :=
  ∃ f, fields.find? (fun f => f.name == m.1 || f.aliases.contains m.1) = some f ∧
    f.name = m.1 ∧ ReadsBack f.shape level m.2 depth

section Members

variable {level depth budget : Nat} {fields : List (Field Shape)} {closed : Bool} {c : Cursor}
  {r : List UInt8}

/-- A key not yet read is found under no earlier member. -/
theorem lookup_unread {key : String} {acc : List (String × Json)}
    (fresh : key ∉ acc.map Prod.fst) : acc.lookup key = none := by
  rw [List.lookup_eq_none_iff]
  intro p member
  have differs : p.1 ≠ key := fun same => fresh (List.mem_map.mpr ⟨p, member, same⟩)
  simpa using Ne.symm differs

/-- One member of an object: its key, read by `nextKey`, finds a field not read before; the
colon, the blank after it and the value follow, and the members after it are read on. -/
theorem reads_recordMembers_step {first : Bool} {m : String × Json} {field : Field Shape}
    {acc result : List (String × Json)} {f n k : Nat} {more : List UInt8}
    (key : Reads (nextKey first) c (some m.1) n)
    (found : fields.find? (fun f => f.name == m.1 || f.aliases.contains m.1) = some field)
    (named : field.name = m.1) (back : ReadsBack field.shape level m.2 depth)
    (fresh : m.1 ∉ acc.map Prod.fst) (room : depth < budget)
    (enough : (prettyBytes level m.2).length ≤ f) (ends : EndsNumber more)
    (at_ : (c.advance n).rest = 58 :: 32 :: (prettyBytes level m.2 ++ more))
    (rest : Reads (recordMembers budget f fields closed false (m :: acc))
      (c.advance (n + (2 + (prettyBytes level m.2).length))) result k) :
    Reads (recordMembers budget (f + 1) fields closed first acc) c result
      (n + (2 + (prettyBytes level m.2).length) + k) := by
  have unread := lookup_unread (named ▸ fresh)
  have pair : (field.name, m.2) = m := by rw [named]
  have stepped : ((c.advance n).advance 1).advance ([32].length + (prettyBytes level m.2).length) =
      c.advance (n + (2 + (prettyBytes level m.2).length)) := by
    rw [Cursor.advance_advance, Cursor.advance_advance]
    congr 1
    simp
    omega
  have value := back.reads budget f ((c.advance n).advance 1) [32] more room enough
    (fun b member => .inl (List.mem_singleton.mp member)) ends
    (by rw [Cursor.rest_advance, at_]; simp)
  rw [recordMembers]
  refine (key.bind (m := 1 + ([32].length + (prettyBytes level m.2).length + k)) ?_).count_eq
    (by simp; omega)
  simp only
  rw [found]
  simp only [unread, Option.isSome_none, Bool.false_eq_true, if_false]
  rw [← stepped, ← pair] at rest
  exact (reads_colon at_).bind (value.bind rest)

/-- The members after the first, each after its comma, are read up to the closing brace, which
stands on a line of its own; each is put in front of those read before it. -/
theorem reads_laterMembers (ms : List (String × Json))
    (members : ∀ m ∈ ms, MemberReadsBack fields (level + 1) depth m) (room : depth < budget)
    {acc : List (String × Json)} (fresh : (ms.map Prod.fst ++ acc.map Prod.fst).Nodup)
    {fuel : Nat} (enough : (laterMembersBytes (level + 1) ms).length < fuel)
    (at_ : c.rest = laterMembersBytes (level + 1) ms ++ 10 :: (indentBytes level ++ 125 :: r)) :
    Reads (recordMembers budget fuel fields closed false acc) c (ms.reverse ++ acc)
      ((laterMembersBytes (level + 1) ms).length + (1 + (indentBytes level).length)) := by
  -- the induction follows the members, as in `reads_laterItems`; the keys read so far stay
  -- apart from those still to come, so no key is refused as a repeat
  induction ms generalizing acc fuel c with
  | nil =>
    obtain ⟨f, rfl⟩ : ∃ f, fuel = f + 1 := ⟨fuel - 1, by omega⟩
    rw [recordMembers]
    refine ((@reads_nextKey_end c (10 :: indentBytes level) r false
      (by simpa [laterMembersBytes] using at_) (allBlank_append allBlank_lineBreak
        (allBlank_indent level))).bind (m := 0) ?_).count_eq
        (by simp [laterMembersBytes, Nat.add_comm])
    simpa using Reads.pure _ acc
  | cons m ms ih =>
    obtain ⟨f, rfl⟩ : ∃ f, fuel = f + 1 := ⟨fuel - 1, by omega⟩
    obtain ⟨field, found, named, back⟩ := members m (by simp)
    have positive := back.length_pos
    have later : laterMembersBytes (level + 1) (m :: ms) =
        44 :: 10 :: (indentBytes (level + 1) ++ keyBytes m.1 ++ prettyBytes (level + 1) m.2 ++
          laterMembersBytes (level + 1) ms) := by
      simp [laterMembersBytes]
    rw [later] at enough at_
    simp only [keyBytes, List.length_cons, List.length_append] at enough
    rw [List.map_cons, List.cons_append, List.nodup_cons] at fresh
    have key := @reads_nextKey_later c (10 :: indentBytes (level + 1))
      (58 :: 32 :: (prettyBytes (level + 1) m.2 ++ laterMembersBytes (level + 1) ms ++
        10 :: (indentBytes level ++ 125 :: r))) m.1
      (by simp [at_, keyBytes]) (allBlank_append allBlank_lineBreak (allBlank_indent _))
    have front : c.rest = 44 :: 10 :: (indentBytes (level + 1) ++ keyBytes m.1 ++
        prettyBytes (level + 1) m.2) ++
          (laterMembersBytes (level + 1) ms ++ 10 :: (indentBytes level ++ 125 :: r)) := by
      simp [at_]
    have rest := @ih (c.advance (1 + (10 :: indentBytes (level + 1)).length +
        ((escapedBytes m.1.toList).length + 2) + (2 + (prettyBytes (level + 1) m.2).length)))
      (fun y member => members y (by simp [member])) (m :: acc)
      (List.perm_middle.nodup_iff.mpr (List.nodup_cons.mpr fresh)) f (by omega)
      (Cursor.rest_advance_of_eq front (by simp [keyBytes]; omega))
    have reordered : (m :: ms).reverse ++ acc = ms.reverse ++ m :: acc := by simp
    rw [reordered]
    refine (reads_recordMembers_step key found named back
      (fun inAcc => fresh.1 (List.mem_append_right _ inAcc)) room (by omega)
      (@endsNumber_laterMembers (level + 1) ms (indentBytes level ++ 125 :: r))
      (@Cursor.rest_advance_of_eq c
        (44 :: 10 :: (indentBytes (level + 1) ++ 34 :: (escapedBytes m.1.toList ++ [34])))
        _ _ (by simp [at_, keyBytes]) (by simp; omega)) rest).count_eq ?_
    simp [later, keyBytes]
    omega

/-- The members of a nonempty object, from the line break after its opening brace to the
closing brace's line, latest first. -/
theorem reads_members (m : String × Json) (ms : List (String × Json))
    (members : ∀ y ∈ m :: ms, MemberReadsBack fields (level + 1) depth y) (room : depth < budget)
    (fresh : ((m :: ms).map Prod.fst).Nodup) {fuel : Nat}
    (enough : (membersBytes (level + 1) (m :: ms)).length < fuel)
    (at_ : c.rest =
      10 :: (membersBytes (level + 1) (m :: ms) ++ 10 :: (indentBytes level ++ 125 :: r))) :
    Reads (recordMembers budget fuel fields closed true []) c (m :: ms).reverse
      (1 + (membersBytes (level + 1) (m :: ms)).length + (1 + (indentBytes level).length)) := by
  obtain ⟨f, rfl⟩ : ∃ f, fuel = f + 1 := ⟨fuel - 1, by omega⟩
  obtain ⟨field, found, named, back⟩ := members m (by simp)
  have positive := back.length_pos
  rw [membersBytes_cons] at enough at_ ⊢
  simp only [keyBytes, List.length_cons, List.length_append] at enough
  rw [List.map_cons, List.nodup_cons] at fresh
  have key := @reads_nextKey_first c (10 :: indentBytes (level + 1))
    (58 :: 32 :: (prettyBytes (level + 1) m.2 ++ laterMembersBytes (level + 1) ms ++
      10 :: (indentBytes level ++ 125 :: r))) m.1
    (by simp [at_, keyBytes]) (allBlank_append allBlank_lineBreak (allBlank_indent _))
  have front : c.rest = 10 :: (indentBytes (level + 1) ++ keyBytes m.1 ++
      prettyBytes (level + 1) m.2) ++
        (laterMembersBytes (level + 1) ms ++ 10 :: (indentBytes level ++ 125 :: r)) := by
    simp [at_]
  have rest := @reads_laterMembers level depth budget fields closed
    (c.advance ((10 :: indentBytes (level + 1)).length + ((escapedBytes m.1.toList).length + 2) +
      (2 + (prettyBytes (level + 1) m.2).length))) r ms
    (fun y member => members y (by simp [member])) room [m]
    ((List.perm_append_singleton _ _).nodup_iff.mpr (List.nodup_cons.mpr fresh)) f (by omega)
    (Cursor.rest_advance_of_eq front (by simp [keyBytes]; omega))
  rw [← List.reverse_cons] at rest
  refine (reads_recordMembers_step key found named back (by simp) room (by omega)
    (@endsNumber_laterMembers (level + 1) ms (indentBytes level ++ 125 :: r))
    (@Cursor.rest_advance_of_eq c
      (10 :: (indentBytes (level + 1) ++ 34 :: (escapedBytes m.1.toList ++ [34])))
      _ _ (by simp [at_, keyBytes]) (by simp; omega)) rest).count_eq ?_
  simp [keyBytes]
  omega

/-- The members of an empty object: none, whatever the fuel. -/
theorem reads_noMembers {fuel : Nat} (at_ : c.rest = 125 :: r) :
    Reads (recordMembers budget fuel fields closed true []) c [] 0 := by
  cases fuel with
  | zero =>
    rw [recordMembers]
    exact Reads.pure _ _
  | succ f =>
    rw [recordMembers]
    refine ((@reads_nextKey_end c [] r true at_ (by simp [AllBlank])).bind (m := 0) ?_).count_eq rfl
    exact Reads.pure _ _

/-- In the members read, latest first, each key finds its own value when no key repeats. -/
theorem lookup_reverse_of_mem {ms : List (String × Json)} (keys : (ms.map Prod.fst).Nodup)
    {m : String × Json} (member : m ∈ ms) : ms.reverse.lookup m.1 = some m.2 := by
  induction ms with
  | nil => simp at member
  | cons p ms ih =>
    rw [List.map_cons, List.nodup_cons] at keys
    rw [List.reverse_cons, List.lookup_append]
    rcases List.mem_cons.mp member with rfl | later
    · -- the latest member's key stands under no earlier one
      rw [lookup_unread (by simpa using keys.1)]
      cases m
      simp
    · rw [ih keys.2 later]
      rfl

/-- Completing the fields from members read under the same names in the same order gives those
members back. -/
theorem reads_completeFields {found : List (String × Json)} {ms : List (String × Json)}
    (named : List.Forall₂ (fun f m => f.name = m.1) fields ms)
    (known : ∀ m ∈ ms, found.lookup m.1 = some m.2) :
    Reads (completeFields fields found) c ms 0 := by
  induction named with
  | nil =>
    rw [completeFields]
    exact Reads.pure _ _
  | @cons f m fields ms same _ ih =>
    rw [completeFields, same, known m (by simp)]
    refine (Reads.pure c m.2).bind (m := 0) ?_
    simp only [Cursor.advance_zero]
    refine (ih fun y member => known y (by simp [member])).bind (m := 0) ?_
    exact Reads.pure _ _

/-- An object is read as a record from its opening to its closing brace when its members are
read and completed. -/
theorem reads_readRecord {name : String} {found ms : List (String × Json)}
    {blanks body : List UInt8} {f : Nat} (room : 1 < budget)
    (at_ : c.rest = blanks ++ 123 :: (body ++ 125 :: r)) (blank : AllBlank blanks)
    (inside : Reads (recordMembers (budget - 1) f fields closed true [])
      (c.advance (blanks.length + 1)) found body.length)
    (complete : Reads (completeFields fields found) (c.advance (blanks.length + 1 + body.length))
      ms 0) :
    Reads (readRecord budget (f + 1) name fields closed) c (.object ms)
      (blanks.length + (body.length + 2)) := by
  rw [readRecord]
  refine Reads.positioned ((reads_valueStart at_ blank (by decide)).bind ?_)
  rw [if_neg (by decide), if_pos (by decide)]
  rw [← Cursor.advance_advance] at inside complete
  rw [← Cursor.advance_advance] at complete
  have closed_ := @reads_closeObject
    (((c.advance blanks.length).advance 1).advance body.length) [] r
    (by
      rw [Cursor.advance_advance, Cursor.advance_advance]
      exact @Cursor.rest_advance_of_eq c (blanks ++ 123 :: body) _ _ (by simp [at_])
        (by simp; omega))
    (by simp [AllBlank])
  have listed := (inside.bind complete).count_eq (Nat.add_zero _)
  refine ((reads_enter room).bind ((Reads.tryCatch listed).bind
    (closed_.bind (m := 0) ?_))).count_eq (by simp; omega)
  exact Reads.pure _ _

end Members

/-- The fields of a record and the members of an object agree: in the same order, each member
under its field's name, the field known by no further name, and each value read back by its
field's shape. -/
def FieldsReadBack (fields : List (Field Shape)) (level depth : Nat) (ms : List (String × Json)) :
    Prop :=
  List.Forall₂ (fun f m => f.name = m.1 ∧ f.aliases = [] ∧ ReadsBack f.shape level m.2 depth)
    fields ms

section Agreement

variable {fields : List (Field Shape)} {level depth : Nat} {ms : List (String × Json)}

theorem FieldsReadBack.keys (agree : FieldsReadBack fields level depth ms) :
    ms.map Prod.fst = fields.map Field.name := by
  induction agree with
  | nil => rfl
  | cons related _ ih => simp [related.1, ih]

theorem FieldsReadBack.names (agree : FieldsReadBack fields level depth ms) :
    List.Forall₂ (fun f m => f.name = m.1) fields ms :=
  agree.imp fun _ _ related => related.1

/-- When the field names do not repeat, each member's key finds its own field. -/
theorem FieldsReadBack.members (named : (fields.map Field.name).Nodup)
    (agree : FieldsReadBack fields level depth ms) :
    ∀ m ∈ ms, MemberReadsBack fields level depth m := by
  induction agree with
  | nil => simp
  | @cons f m fields ms related _ ih =>
    rw [List.map_cons, List.nodup_cons] at named
    intro y member
    rcases List.mem_cons.mp member with rfl | later
    · exact ⟨f, by simp [related.1], related.1, related.2.2⟩
    · obtain ⟨g, found, sameName, back⟩ := ih named.2 y later
      -- the first field has another name and no further names, so the search passes it
      have passed : ¬(f.name == y.1 || f.aliases.contains y.1) = true := by
        have elsewhere : y.1 ∈ fields.map Field.name :=
          sameName ▸ List.mem_map_of_mem (List.mem_of_find?_eq_some found)
        have differs : f.name ≠ y.1 := fun same => named.1 (same ▸ elsewhere)
        simp [differs, related.2.1]
      refine ⟨g, ?_, sameName, back⟩
      rw [List.find?_cons_of_neg
        (p := fun f : Field Shape => f.name == y.1 || f.aliases.contains y.1) passed, found]

end Agreement


/-- An object whose members agree with a record's fields, no two of them under one name, is
read back by the record shape, one level of nesting deeper. -/
theorem readsBack_record {level depth : Nat} {name : String} {fields : List (Field Shape)}
    {closed : Bool} {ms : List (String × Json)} (named : (fields.map Field.name).Nodup)
    (agree : FieldsReadBack fields (level + 1) depth ms) :
    ReadsBack (.record name fields closed) level (.object ms) (depth + 1) := by
  have keys : (ms.map Prod.fst).Nodup := agree.keys ▸ named
  cases ms with
  | nil =>
    refine ⟨⟨123, [125], prettyBytes_emptyObject, by decide, by decide⟩, ?_⟩
    intro budget fuel c blanks more room enough blank _ at_
    rw [prettyBytes_emptyObject] at enough at_ ⊢
    obtain ⟨g, rfl⟩ : ∃ g, fuel = g + 1 + 1 := ⟨fuel - 2, by simp at enough; omega⟩
    rw [readShape]
    exact (@reads_readRecord budget fields closed c more name [] [] blanks [] g (by omega)
      (by simp [at_]) blank
      (@reads_noMembers (budget - 1) fields closed (c.advance (blanks.length + 1)) more g
        (by simp [at_]))
      (reads_completeFields agree.names (by simp))).count_eq (by simp)
  | cons m ms =>
    refine ⟨⟨123, _, prettyBytes_object, by decide, by decide⟩, ?_⟩
    intro budget fuel c blanks more room enough blank _ at_
    rw [prettyBytes_object] at enough at_ ⊢
    simp only [List.length_cons, List.length_append] at enough
    obtain ⟨g, rfl⟩ : ∃ g, fuel = g + 1 + 1 := ⟨fuel - 2, by omega⟩
    rw [readShape]
    have inside := @reads_members level depth (budget - 1) fields closed
      (c.advance (blanks.length + 1)) more m ms (agree.members named) (by omega) keys g (by omega)
      (@Cursor.rest_advance_of_eq c (blanks ++ [123]) _ _ (by simp [at_]) (by simp))
    exact (@reads_readRecord budget fields closed c more name _ (m :: ms) blanks
      (10 :: (membersBytes (level + 1) (m :: ms) ++ 10 :: indentBytes level)) g (by omega)
      (by simp [at_]) blank (inside.count_eq (by simp; omega))
      (reads_completeFields agree.names fun y member => lookup_reverse_of_mem keys member)).count_eq
      (by simp; omega)

/-- A step that reads a value from the start of a text gives that value. -/
theorem Reads.runOn {α : Type} {step : Parse α} {bytes : ByteArray} {v : α} {n : Nat}
    (reads : Reads step ⟨bytes, 0⟩ v n) : step.runOn bytes = .ok v := by
  unfold Parse.runOn
  rw [show step.run ⟨bytes, 0⟩ = _ from reads]

/-- A whole indented text is read back by a shape that reads its value back within the nesting
limit. -/
theorem read_renderPretty {shape : Shape} {j : Json} {depth : Nat}
    (back : ReadsBack shape 0 j depth) (shallow : depth < depthLimit) :
    shape.read (Json.renderPretty j) = .ok j := by
  have whole : (Cursor.mk (Json.renderPretty j).toUTF8 0).rest = [] ++ prettyBytes 0 j ++ [] := by
    simp [Cursor.rest, prettyBytes, Json.renderPretty]
  have size : (Json.renderPretty j).toUTF8.size = (prettyBytes 0 j).length := by
    simp [prettyBytes, Json.renderPretty]
  have value := back.reads depthLimit (2 * (Json.renderPretty j).toUTF8.size + 4) _ [] []
    shallow (by omega) (by simp [AllBlank]) (by simp [EndsNumber]) whole
  rw [List.length_nil, Nat.zero_add] at value
  have ended := @reads_skipBlanks
    ((Cursor.mk (Json.renderPretty j).toUTF8 0).advance (prettyBytes 0 j).length)
    [] [] (by rw [Cursor.rest_advance, whole]; simp) (by simp) (by simp)
  unfold Shape.read
  refine Reads.runOn (value.bind (ended.bind (m := 0) ?_))
  exact Reads.pure _ j

end JsonText

end RegionNet
