import RegionNet.Proofs.ParameterConversion
import RegionNet.Region.Reference

namespace RegionNet

/-!
# Saved region states read back

A reference region saves its state as a fixed-width record (`Reference.encode`) and reads it
back field by field (`Reference.decode`). This module follows the decoder through the bytes of a
record: a decoding step run at a position of a stream gives a value and moves over some bytes
(`Record.Decodes`), and the bytes from the position on are known (`Record.Remains`). On this
view every field kind reads back what was written when it fits its width, and so does the whole
state (`Reference.decode_encode`); restoring a region from the two streams a save writes gives
its state back (`Reference.restore_streams`).
-/

namespace Record

/-- The bytes of a stream from a position on, the position lying within the stream. -/
def Remains (whole : Bytes) (pos : Nat) (r : List UInt8) : Prop :=
  whole.toList.drop pos = r ∧ pos + r.length = whole.size

theorem Remains.start (whole : Bytes) : Remains whole 0 whole.toList :=
  ⟨List.drop_zero, by simp⟩

/-- Past a field stand the bytes after it. -/
theorem Remains.skip {whole field : Bytes} {pos : Nat} {rest : List UInt8}
    (at_ : Remains whole pos (field.toList ++ rest)) : Remains whole (pos + field.size) rest := by
  obtain ⟨dropped, length⟩ := at_
  refine ⟨?_, ?_⟩
  · rw [← List.drop_drop, dropped, ← Array.length_toList, List.drop_left]
  · simp only [List.length_append, Array.length_toList] at length
    omega

/-- Run at a position of a stream holding `whole`, the step `d` gives `v` and moves over `n`
bytes. -/
def Decodes {α : Type} (d : Decoder α) (whole : Bytes) (pos : Nat) (v : α) (n : Nat) : Prop :=
  (d.run (.ok whole)).run pos = .ok (v, pos + n)

section Steps

variable {α β : Type} {whole : Bytes} {pos : Nat}

theorem Decodes.pure (v : α) : Decodes (Pure.pure v) whole pos v 0 := rfl

/-- Two decoding steps read what the first reads, then what the second reads after it. -/
theorem Decodes.bind {d : Decoder α} {f : α → Decoder β} {v : α} {w : β} {n m : Nat}
    (first : Decodes d whole pos v n) (next : Decodes (f v) whole (pos + n) w m) :
    Decodes (d >>= f) whole pos w (n + m) := by
  unfold Decodes at *
  rw [ReaderT.run_bind, StateT.run_bind, first, ← Nat.add_assoc]
  exact next

theorem Decodes.count_eq {d : Decoder α} {v : α} {n m : Nat} (decodes : Decodes d whole pos v n)
    (same : n = m) : Decodes d whole pos v m := same ▸ decodes

/-- A step that decodes from the start of a stream gives its value. -/
theorem Decodes.decode {d : Decoder α} {v : α} {n : Nat} (decodes : Decodes d whole 0 v n) :
    d.decode (.ok whole) = .ok v := by
  unfold Decodes at decodes
  simp only [Decoder.decode, decodes]
  rfl

end Steps

section Fields

variable {whole : Bytes} {pos : Nat} {rest : List UInt8}

/-- Bytes within the stream are taken as they stand. -/
theorem decodes_take {field : Bytes} (at_ : Remains whole pos (field.toList ++ rest)) :
    Decodes (take field.size) whole pos field field.size := by
  obtain ⟨dropped, length⟩ := at_
  have inside : ¬whole.size < pos + field.size := by
    simp only [List.length_append, Array.length_toList] at length
    omega
  have window : whole.extract pos (pos + field.size) = field := by
    apply Array.toList_inj.mp
    rw [Array.toList_extract, List.extract_eq_take_drop, Nat.add_sub_cancel_left, dropped,
      ← Array.length_toList, List.take_left]
  unfold Decodes take
  simp only [StateT.run, ReaderT.run, bind, ReaderT.bind, StateT.bind, Except.bind, read, readThe,
    MonadReaderOf.read, ReaderT.read, pure, StateT.pure, Except.pure, ExceptT.stM_eq, get, getThe,
    MonadStateOf.get, liftM, monadLift, MonadLift.monadLift, StateT.get, gt_iff_lt, inside,
    ↓reduceIte, set, window, StateT.set, ReaderT.pure]

@[simp] theorem size_word (width n : Nat) : (word width n).size = width := by
  simp [word, Bytes.littleEndian]

@[simp] theorem size_signed (width : Nat) (n : Int) : (signed width n).size = width := by
  simp [signed, Bytes.littleEndian]

/-- An unsigned field reads back a number that fits its width. -/
theorem decodes_readWord {width v : Nat} (at_ : Remains whole pos ((word width v).toList ++ rest))
    (fits : v < pow2 (8 * width)) : Decodes (readWord width) whole pos v width := by
  have taken := decodes_take at_
  rw [size_word] at taken
  unfold readWord
  refine (taken.bind (m := 0) ?_).count_eq (Nat.add_zero _)
  rw [word, Bytes.readLittleEndian_littleEndian, Nat.mod_eq_of_lt fits]
  exact Decodes.pure _

/-- A signed field reads back a number within its width's range. -/
theorem decodes_readSigned {width : Nat} {i : Int} (wide : 0 < width)
    (at_ : Remains whole pos ((signed width i).toList ++ rest))
    (low : -(pow2 (8 * width - 1) : Int) ≤ i) (high : i < pow2 (8 * width - 1)) :
    Decodes (readSigned width) whole pos i width := by
  -- the range is twice the half range, and the field holds `i` modulo the range
  have double : (pow2 (8 * width) : Int) = 2 * pow2 (8 * width - 1) := by
    have split : 8 * width = 8 * width - 1 + 1 := by omega
    rw [split, Nat.add_sub_cancel]
    simp only [pow2, Nat.pow_eq, Nat.pow_succ]
    push_cast
    ring
  have held :
      0 ≤ i % (pow2 (8 * width) : Int) ∧ i % (pow2 (8 * width) : Int) < pow2 (8 * width) :=
    ⟨Int.emod_nonneg _ (by omega), Int.emod_lt_of_pos _ (by omega)⟩
  have stored := decodes_readWord (v := (i % (pow2 (8 * width) : Int)).toNat) at_ (by omega)
  unfold readSigned
  refine (stored.bind (m := 0) ?_).count_eq (Nat.add_zero _)
  by_cases negative : i < 0
  · have wrapped : i % (pow2 (8 * width) : Int) = i + pow2 (8 * width) := by
      rw [← Int.add_emod_right]
      exact Int.emod_eq_of_lt (by omega) (by omega)
    rw [if_pos (by omega)]
    convert Decodes.pure i using 2
    omega
  · have kept : i % (pow2 (8 * width) : Int) = i := Int.emod_eq_of_lt (by omega) (by omega)
    rw [if_neg (by omega)]
    convert Decodes.pure i using 2
    omega

/-- The UTF-8 bytes of a text decode to it. -/
theorem toString?_ofString (s : String) : Bytes.toString? (Bytes.ofString s) = some s := by
  simp [Bytes.toString?, Bytes.ofString, String.fromUTF8?, s.isValidUTF8, String.fromUTF8]

/-- A text field reads back a text whose length fits a word. -/
theorem decodes_readText {s : String} (at_ : Remains whole pos ((text s).toList ++ rest))
    (short : s.utf8ByteSize < pow2 64) : Decodes readText whole pos s (text s).size := by
  have bytes : (Bytes.ofString s).size = s.utf8ByteSize := by
    simp [Bytes.ofString, String.size_toByteArray]
  rw [text, length, Array.toList_append, List.append_assoc] at at_
  have counted := decodes_readWord at_ short
  have taken := decodes_take (Remains.skip at_)
  rw [bytes, size_word] at taken
  unfold readText
  refine (counted.bind (taken.bind (m := 0) ?_)).count_eq (by simp [text, length, bytes])
  rw [toString?_ofString]
  exact Decodes.pure _

/-- A sequence is its count followed by its items' bytes. -/
theorem sequence_toList {α : Type} (item : α → Bytes) (xs : List α) :
    (sequence item xs).toList =
      (length xs.length).toList ++ (xs.map fun x => (item x).toList).flatten := by
  -- the fold appends each item to the bytes so far, whatever they start with
  have folded : ∀ (acc : Bytes) (ys : List α),
      (ys.foldl (fun acc x => acc ++ item x) acc).toList =
      acc.toList ++ (ys.map fun x => (item x).toList).flatten := by
    intro acc ys
    induction ys generalizing acc with
    | nil => simp
    | cons y ys ih => simp [ih, List.append_assoc]
  exact folded _ xs

/-- Items read back one after another, each as its decoder reads it. -/
theorem decodes_readItems {α : Type} {d : Decoder α} {item : α → Bytes} {xs : List α}
    (each : ∀ x ∈ xs, ∀ pos rest, Remains whole pos ((item x).toList ++ rest) →
      Decodes d whole pos x (item x).size)
    (at_ : Remains whole pos ((xs.map fun x => (item x).toList).flatten ++ rest)) :
    Decodes (readItems d xs.length) whole pos xs
      (xs.map fun x => (item x).toList).flatten.length := by
  induction xs generalizing pos with
  | nil => exact Decodes.pure []
  | cons x xs ih =>
    rw [List.map_cons, List.flatten_cons, List.append_assoc] at at_
    have first := each x List.mem_cons_self pos _ at_
    have others := ih (fun y member => each y (List.mem_cons_of_mem x member)) (Remains.skip at_)
    refine (first.bind (others.bind (m := 0) (Decodes.pure (x :: xs)))).count_eq ?_
    simp

/-- A sequence reads back its items when their count fits a word. -/
theorem decodes_readSequence {α : Type} {d : Decoder α} {item : α → Bytes} {xs : List α}
    (short : xs.length < pow2 64) (at_ : Remains whole pos ((sequence item xs).toList ++ rest))
    (each : ∀ x ∈ xs, ∀ pos rest, Remains whole pos ((item x).toList ++ rest) →
      Decodes d whole pos x (item x).size) :
    Decodes (readSequence d) whole pos xs (sequence item xs).size := by
  rw [sequence_toList, List.append_assoc, length] at at_
  have counted := decodes_readWord at_ short
  have items := decodes_readItems each (Remains.skip at_)
  rw [size_word] at items
  unfold readSequence
  refine (counted.bind items).count_eq ?_
  rw [← Array.length_toList, sequence_toList, length]
  simp

end Fields

end Record

namespace Reference

open Record

/-- A state whose record reads back: each number fits its field, and each text and list has a
length that fits the word it is counted in. -/
structure State.Recordable (s : State) : Prop where
  cookie : s.cookie.utf8ByteSize < pow2 64
  int32Low : -(pow2 31 : Int) ≤ s.int32Param
  int32High : s.int32Param < pow2 31
  uint32 : s.uint32Param < pow2 32
  int64Low : -(pow2 63 : Int) ≤ s.int64Param
  int64High : s.int64Param < pow2 63
  uint64 : s.uint64Param < pow2 64
  text : s.stringParam.utf8ByteSize < pow2 64
  real32s : s.real32ArrayParam.length < pow2 64
  int64s : s.int64ArrayParam.length < pow2 64
  int64Items : ∀ i ∈ s.int64ArrayParam, -(pow2 63 : Int) ≤ i ∧ i < pow2 63
  perNode : s.perNode < pow2 64
  iteration : s.iteration < pow2 64

section Items

variable {whole : Bytes} {pos : Nat} {rest : List UInt8}

/-- A single's bits read back as the single. -/
theorem decodes_single {x : Binary32}
    (at_ : Remains whole pos ((word 4 x.bits.toNat).toList ++ rest)) :
    Decodes (do let w ← readWord 4; pure (⟨w.toUInt32⟩ : Binary32)) whole pos x 4 := by
  have bits := decodes_readWord at_ x.bits.toNat_lt
  refine (bits.bind (m := 0) ?_).count_eq (Nat.add_zero _)
  rw [Nat.toUInt32_eq, UInt32.ofNat_toNat]
  exact Decodes.pure x

/-- A sixty-four-bit signed item in range reads back. -/
theorem decodes_signed8 {i : Int} (range : -(pow2 63 : Int) ≤ i ∧ i < pow2 63)
    (at_ : Remains whole pos ((signed 8 i).toList ++ rest)) :
    Decodes (readSigned 8) whole pos i 8 :=
  decodes_readSigned (by decide) at_ range.1 range.2

end Items

/-- A state whose numbers fit their fields is read back from its record. -/
theorem decode_encode {s : State} (recordable : s.Recordable) :
    decode.decode (.ok (encode s)) = .ok s := by
  -- the record's fields in order, the last one followed by nothing
  have r0 := Remains.start (encode s)
  conv at r0 =>
    arg 3
    rw [encode]
    simp only [Array.toList_append, List.append_assoc]
    rw [← List.append_nil (word 8 s.iteration).toList]
  have r1 := r0.skip
  have r2 := r1.skip
  have r3 := r2.skip
  have r4 := r3.skip
  have r5 := r4.skip
  have r6 := r5.skip
  have r7 := r6.skip
  have r8 := r7.skip
  have r9 := r8.skip
  have r10 := r9.skip
  have r11 := r10.skip
  have r12 := r11.skip
  have singles := decodes_readSequence recordable.real32s r8 fun x _ _ _ at_ =>
    (decodes_single at_).count_eq (size_word 4 _).symm
  have int64s := decodes_readSequence recordable.int64s r9 fun i member _ _ at_ =>
    (decodes_signed8 (recordable.int64Items i member) at_).count_eq (size_signed 8 i).symm
  unfold decode
  apply Decodes.decode
  apply (decodes_readText r0 recordable.cookie).bind
  apply ((decodes_readSigned (by decide) r1 recordable.int32Low recordable.int32High).count_eq
    (size_signed 4 _).symm).bind
  apply ((decodes_readWord r2 recordable.uint32).count_eq (size_word 4 _).symm).bind
  apply ((decodes_readSigned (by decide) r3 recordable.int64Low recordable.int64High).count_eq
    (size_signed 8 _).symm).bind
  apply ((decodes_readWord r4 recordable.uint64).count_eq (size_word 8 _).symm).bind
  apply ((decodes_readWord r5 s.real32Param.bits.toNat_lt).count_eq (size_word 4 _).symm).bind
  apply ((decodes_readWord r6 s.real64Param.bits.toNat_lt).count_eq (size_word 8 _).symm).bind
  apply (decodes_readText r7 recordable.text).bind
  apply singles.bind
  apply int64s.bind
  apply ((decodes_readWord r10 recordable.perNode).count_eq (size_word 8 _).symm).bind
  apply ((decodes_readWord r11 s.delta.bits.toNat_lt).count_eq (size_word 8 _).symm).bind
  apply ((decodes_readWord r12 recordable.iteration).count_eq (size_word 8 s.iteration).symm).bind
  simp only [Nat.toUInt32_eq, UInt32.ofNat_toNat, Nat.toUInt64_eq, UInt64.ofNat_toNat]
  exact Decodes.pure s

/-- Restoring from streams that hold what a save of a state writes gives the state back, when
its numbers fit their fields and it carries the type's cookie. -/
theorem restore_streams {s : State} (recordable : s.Recordable) (marked : s.cookie = cookie)
    {openStream : String → Except EngineError Bundle.Contents}
    (opens : ∀ stream bytes, (stream, bytes) ∈ streams s →
      openStream stream = .ok (.ok bytes))
    (regionName : String) : restore openStream regionName = .ok s := by
  have main := opens "main" (encode s) (by simp [streams])
  have aux := opens "aux" (Bytes.ofString auxText) (by simp [streams])
  simp only [restore, main, aux, bind, Except.bind, pure, Except.pure, decode_encode recordable,
    marked, toString?_ofString, ne_eq, not_true_eq_false, ↓reduceIte]

end Reference

end RegionNet
