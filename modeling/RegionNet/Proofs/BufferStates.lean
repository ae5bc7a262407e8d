import RegionNet.Buffer

namespace RegionNet

/-!
# Buffer states

A buffer's representation is sound (`Buffer.Sound`) when an unbound buffer has no elements, the
elements' byte length fits in a word, and the storage holds at least that many bytes, so that a
buffer's bytes are exactly its elements' bytes. Every way of making a buffer keeps it sound, and
so does every call that changes one in place (`Buffer.Call`), when a write keeps the length of
the bytes it replaces and a copy's source is itself sound and ends within a word.

`Buffer.representation_invariant` collects what this gives of the buffers and read-only views a
caller can obtain (`Buffer.Reachable`, `ArrayView.Reachable`): they are sound, a view never owns
its bytes, allocation and binding succeed only on an unbound buffer, a failed call changes
nothing, and an owned copy has the same contents. `Buffer.copyFromAt_window` says what copying
into a window of a buffer gives, for every offset: a window that ends past the word panics, as
the end of the window is word arithmetic.
-/

namespace Backing

/-- The number of bytes a backing holds; none when unset. -/
def size : Backing → Nat
  | .unset => 0
  | .owned bytes => bytes.size
  | .borrowed bytes => bytes.size

end Backing

namespace Element

/-- An element takes the width of its type. -/
theorem size_write (t : ElementType) (x : Element) : (write t x).size = t.size := by
  cases x <;> simp [write, Bytes.littleEndian]

/-- Elements written one after another take their count times the width of their type. -/
theorem size_writeAll (t : ElementType) (xs : List Element) :
    (writeAll t xs).size = xs.length * t.size := by
  -- the fold appends to any start; carry the start's size through it
  have appended : ∀ (start : Bytes) (ys : List Element),
      (ys.foldl (fun acc x => acc ++ write t x) start).size = start.size + ys.length * t.size := by
    intro start ys
    induction ys generalizing start with
    | nil => simp
    | cons y rest inductionHypothesis =>
        rw [List.foldl_cons, inductionHypothesis, Array.size_append, size_write,
          List.length_cons, Nat.add_one_mul]
        omega
  simpa [writeAll] using appended #[] xs

end Element

namespace Bytes

/-- Splicing `piece` over the bytes `[start, start + piece.size)` of `whole`: each byte comes from
the piece inside that stretch and from `whole` outside it. -/
theorem getElem?_splice {whole piece : Bytes} {start span : Nat}
    (ends : start + span ≤ whole.size) (spans : piece.size = span) (i : Nat) :
    (whole.extract 0 start ++ piece ++ whole.extract (start + span) whole.size)[i]? =
      if start ≤ i ∧ i < start + span then piece[i - start]? else whole[i]? := by
  have before : (whole.extract 0 start).size = start := by
    rw [Array.size_extract]
    omega
  rw [Array.getElem?_append, Array.size_append, before, spans, Array.getElem?_append, before]
  -- three stretches: before the piece, inside it, after it
  by_cases early : i < start
  · rw [if_pos (by omega), if_pos early, if_neg (by omega), Array.getElem?_extract,
      if_pos (by omega), Nat.zero_add]
  · by_cases late : i < start + span
    · rw [if_pos late, if_neg early, if_pos ⟨Nat.le_of_not_lt early, late⟩]
    · rw [if_neg late, if_neg (by omega), Array.getElem?_extract]
      by_cases inWhole : i < whole.size
      · rw [if_pos (by omega), Nat.add_sub_cancel' (by omega)]
      · rw [if_neg (by omega), Array.getElem?_eq_none (by omega)]

end Bytes

namespace Buffer

/-! ## Sound representations -/

/-- A buffer's representation invariant: an unbound buffer has no elements, the elements' byte
length fits in a word, and the storage holds at least that many bytes. -/
structure Sound (b : Buffer) : Prop where
  unsetEmpty : b.backing = .unset → b.count = 0
  fits : b.byteLen < wordSize
  holds : b.byteLen ≤ b.backing.size

/-- A sound buffer counts its elements in a word. -/
theorem Sound.count_lt {b : Buffer} (sound : b.Sound) : b.count < wordSize :=
  Nat.lt_of_le_of_lt (Nat.le_mul_of_pos_right _ b.elementType.size_pos) sound.fits

/-- A buffer is unbound exactly when its storage is unset. -/
theorem ownership_eq_unset_iff {b : Buffer} : b.ownership = .unset ↔ b.backing = .unset := by
  unfold ownership
  split <;> simp_all

/-- A sound buffer's bytes are exactly its elements' bytes. -/
theorem Sound.size_raw {b : Buffer} (sound : b.Sound) : b.raw.size = b.byteLen := by
  have holds := sound.holds
  unfold raw
  split
  · rename_i unset
    simp [byteLen, sound.unsetEmpty unset]
  · rename_i bytes owned
    simp only [owned, Backing.size] at holds
    simp [Array.size_extract, Nat.min_eq_left holds]
  · rename_i bytes borrowed
    simp only [borrowed, Backing.size] at holds
    simp [Array.size_extract, Nat.min_eq_left holds]

/-- A buffer whose storage is exactly `n` owned bytes for elements taking `n < 2⁶⁴` bytes is
sound. -/
theorem sound_of_owned {b : Buffer} {bytes : Bytes} (owned : b.backing = .owned bytes)
    (exact : bytes.size = b.byteLen) (fits : b.byteLen < wordSize) : b.Sound :=
  ⟨fun unset => Backing.noConfusion (owned.symm.trans unset), fits,
    by simp [owned, Backing.size, exact]⟩

/-- A new buffer is sound. -/
theorem new_sound (t : ElementType) : (new t).Sound :=
  ⟨fun _ => rfl, by simp [new, byteLen, wordSize, pow2], by simp [new, byteLen]⟩

/-- An allocated buffer is sound. -/
theorem allocated_sound {t : ElementType} {count : Nat} {b : Buffer}
    (made : allocated t count = .ok b) : b.Sound := by
  unfold allocated at made
  cases multiplied : checkedMul count t.size with
  | none => simp [multiplied] at made
  | some n =>
      simp only [multiplied, Except.ok.injEq] at made
      subst made
      obtain ⟨rfl, fits⟩ := checkedMul_eq_some multiplied
      exact sound_of_owned rfl (by simp [Bytes.zeros, byteLen]) fits

/-- A buffer of elements whose bytes fit in a word is sound. -/
theorem ofElements_sound (t : ElementType) (xs : List Element)
    (fits : xs.length * t.size < wordSize) : (ofElements t xs).Sound :=
  sound_of_owned rfl (by simp [ofElements, byteLen, Element.size_writeAll]) fits

/-- A snapshot of a sound buffer's bytes, as a view borrows it, is sound. -/
theorem snapshot_sound {b : Buffer} (sound : b.Sound) : (ArrayView.ofBuffer b).buffer.Sound :=
  ⟨fun borrowed => Backing.noConfusion borrowed, sound.fits,
    by simp [ArrayView.ofBuffer, Backing.size, sound.size_raw, byteLen]⟩

/-- An owned copy of a sound buffer is sound. -/
theorem toOwnedCopy_sound {b : Buffer} (sound : b.Sound) : b.toOwnedCopy.Sound :=
  sound_of_owned rfl (by simp [toOwnedCopy, sound.size_raw, byteLen]) sound.fits

/-- A buffer borrowing a block that holds its elements' bytes, within a word, is sound. -/
theorem borrowed_sound {t : ElementType} {count : Nat} {data : Bytes}
    (fits : count * t.size < wordSize) (inside : count * t.size ≤ data.size) :
    (⟨t, count, .borrowed data⟩ : Buffer).Sound :=
  ⟨fun borrowed => Backing.noConfusion borrowed, fits, inside⟩

/-- Releasing leaves a sound, unbound buffer. -/
theorem release_sound (b : Buffer) : b.release.Sound :=
  ⟨fun _ => rfl, by simp [release, byteLen, wordSize, pow2], by simp [release, byteLen]⟩

/-! ## What each call does -/

/-- Allocation succeeds exactly on an unbound buffer whose new byte length fits in a word, and
gives it that many zero bytes of its own. -/
theorem allocate_eq_ok_iff {b b' : Buffer} {count : Nat} :
    b.allocate count = .ok b' ↔
      b.backing = .unset ∧ count * b.elementType.size < wordSize ∧
        b' = ⟨b.elementType, count, .owned (Bytes.zeros (count * b.elementType.size))⟩ := by
  cases backing : b.backing <;> by_cases fits : count * b.elementType.size < wordSize <;>
    simp [allocate, byteLenFor, checkedMul, isBound, backing, fits, bind, Except.bind, pure,
      Except.pure, throw, throwThe, MonadExceptOf.throw, eq_comm]

/-- Binding succeeds exactly on an unbound buffer whose new byte length fits in a word and in the
block, and lets it borrow the block. -/
theorem bindExternal_eq_ok {b b' : Buffer} {data : Bytes} {count : Nat} :
    b.bindExternal data count = .ok b' ↔
      b.backing = .unset ∧ count * b.elementType.size < wordSize ∧
        count * b.elementType.size ≤ data.size ∧ b' = ⟨b.elementType, count, .borrowed data⟩ := by
  cases backing : b.backing <;> by_cases fits : count * b.elementType.size < wordSize <;>
    by_cases short : data.size < count * b.elementType.size <;>
    simp [bindExternal, byteLenFor, checkedMul, isBound, backing, fits, short, bind, Except.bind,
      pure, Except.pure, throw, throwThe, MonadExceptOf.throw, eq_comm]
  -- what is left compares the byte length with the block's size
  all_goals omega

/-- Only owned bytes may be written. -/
theorem writable_eq_ok {b : Buffer} : b.writable = .ok () ↔ b.ownership = .owned := by
  cases backing : b.backing <;> simp [writable, ownership, backing]

/-- Replacing bytes succeeds exactly on an owned buffer. -/
theorem overwrite_eq_ok {b b' : Buffer} {bytes : Bytes} :
    b.overwrite bytes = .ok b' ↔ b.ownership = .owned ∧ b' = { b with backing := .owned bytes } := by
  rw [← writable_eq_ok]
  cases writing : b.writable <;>
    simp [overwrite, writing, bind, Except.bind, pure, Except.pure, eq_comm]

/-- Zeroing succeeds exactly on an owned buffer. -/
theorem zero_eq_ok {b b' : Buffer} :
    b.zero = .ok b' ↔ b.ownership = .owned ∧ b' = { b with backing := .owned (Bytes.zeros b.byteLen) } := by
  rw [← writable_eq_ok]
  cases writing : b.writable <;>
    simp [zero, writing, bind, Except.bind, pure, Except.pure, eq_comm]

/-- A write through a typed view succeeds exactly on an owned buffer of that type. -/
theorem writeAs_eq_ok {b b' : Buffer} {t : ElementType} {bytes : Bytes} :
    (do b.checkType t; b.overwrite bytes) = Except.ok b' ↔
      b.elementType = t ∧ b.ownership = .owned ∧ b' = { b with backing := .owned bytes } := by
  by_cases typed : b.elementType = t
  · simp [checkType, typed, bind, Except.bind, overwrite_eq_ok]
  · simp [checkType, typed, bind, Except.bind]

/-- The bytes a copy into a window writes: the buffer's bytes before the window, the source's
bytes, and the buffer's bytes after it. -/
def windowBytes (b : Buffer) (offset : Nat) (src : Buffer) : Bytes :=
  b.raw.extract 0 (offset * b.elementType.size) ++ src.raw ++
    b.raw.extract ((offset + src.count) * b.elementType.size) b.raw.size

/-- A copy into a window succeeds exactly when the types agree, the window ends within the word
and inside the buffer, and the buffer owns its bytes; it then writes the window's bytes. -/
theorem copyFromAt_eq_ok {b b' src : Buffer} {offset : Nat} :
    b.copyFromAt offset src = .ok b' ↔
      src.elementType = b.elementType ∧ offset + src.count < wordSize ∧
        offset + src.count ≤ b.count ∧ b.ownership = .owned ∧
        b' = { b with backing := .owned (b.windowBytes offset src) } := by
  rw [← writable_eq_ok]
  unfold wordSize
  by_cases typed : src.elementType = b.elementType <;>
    by_cases inWord : offset + src.count < pow2 64 <;>
    by_cases past : b.count < offset + src.count <;>
    cases writing : b.writable <;>
    simp [copyFromAt, windowBytes, typed, inWord, past, writing, addOrPanic, bind, Except.bind,
      pure, Except.pure, throw, throwThe, MonadExceptOf.throw, eq_comm]
  -- what is left compares the window's end with the word and the count
  all_goals omega

/-- Allocation succeeds only on an unbound buffer. -/
theorem unset_of_allocate {b b' : Buffer} {count : Nat} (allocated : b.allocate count = .ok b') :
    b.ownership = .unset :=
  ownership_eq_unset_iff.mpr (allocate_eq_ok_iff.mp allocated).1

/-- Binding succeeds only on an unbound buffer. -/
theorem unset_of_bindExternal {b b' : Buffer} {data : Bytes} {count : Nat}
    (bound : b.bindExternal data count = .ok b') : b.ownership = .unset :=
  ownership_eq_unset_iff.mpr (bindExternal_eq_ok.mp bound).1

/-! ## The window of a copy -/

section Window

variable {b src : Buffer} {offset : Nat}

/-- The bytes of a copy between two sound buffers of one type, with the window inside the
buffer, are as many as the buffer's. -/
theorem size_windowBytes (sound : b.Sound) (srcSound : src.Sound)
    (typed : src.elementType = b.elementType) (inside : offset + src.count ≤ b.count) :
    (b.windowBytes offset src).size = b.byteLen := by
  have ends : (offset + src.count) * b.elementType.size ≤ b.byteLen :=
    Nat.mul_le_mul_right _ inside
  have srcBytes : src.raw.size = src.count * b.elementType.size := by
    rw [srcSound.size_raw, byteLen, typed]
  simp only [windowBytes, Array.size_append, Array.size_extract, sound.size_raw, srcBytes,
    Nat.min_self]
  rw [Nat.add_mul] at ends
  have starts : offset * b.elementType.size ≤ b.byteLen := by omega
  rw [Nat.min_eq_left starts, Nat.add_mul]
  omega

/-- Each byte of a copy comes from the source inside the window and from the buffer outside
it. -/
theorem getElem?_windowBytes (sound : b.Sound) (srcSound : src.Sound)
    (typed : src.elementType = b.elementType) (inside : offset + src.count ≤ b.count) (i : Nat) :
    (b.windowBytes offset src)[i]? =
      if offset * b.elementType.size ≤ i ∧ i < (offset + src.count) * b.elementType.size then
        src.raw[i - offset * b.elementType.size]?
      else b.raw[i]? := by
  have srcBytes : src.raw.size = src.count * b.elementType.size := by
    rw [srcSound.size_raw, byteLen, typed]
  have ends : offset * b.elementType.size + src.count * b.elementType.size ≤ b.raw.size := by
    rw [sound.size_raw, byteLen, ← Nat.add_mul]
    exact Nat.mul_le_mul_right _ inside
  rw [windowBytes, Nat.add_mul]
  exact Bytes.getElem?_splice ends srcBytes i

end Window

/-! ## Calls in place -/

/-- A call that changes a buffer in place, with its arguments: writes replace the bytes through
the raw bytes or through a view of the elements as a type. -/
inductive Call where
  | allocate (count : Nat)
  | bindExternal (data : Bytes) (count : Nat)
  | release
  | zero
  | write (bytes : Bytes)
  | writeAs (t : ElementType) (bytes : Bytes)
  | copyFromAt (offset : Nat) (src : Buffer)

/-- A call's outcome in place: the buffer it produced, or the buffer as it was when it failed. -/
def settle (b : Buffer) : Except DataError Buffer → Buffer × Except DataError Unit
  | .ok b' => (b', .ok ())
  | .error e => (b, .error e)

/-- Make a call: the buffer it leaves and its result. -/
def perform (b : Buffer) : Call → Buffer × Except DataError Unit
  | .allocate count => settle b (b.allocate count)
  | .bindExternal data count => settle b (b.bindExternal data count)
  | .release => (b.release, .ok ())
  | .zero => settle b b.zero
  | .write bytes => settle b (b.overwrite bytes)
  | .writeAs t bytes => settle b (do b.checkType t; b.overwrite bytes)
  | .copyFromAt offset src => settle b (b.copyFromAt offset src)

/-- A failed call leaves the buffer as it was. -/
theorem perform_of_error {b : Buffer} {c : Call} {e : DataError}
    (failed : (b.perform c).2 = .error e) : (b.perform c).1 = b := by
  have settled : ∀ r : Except DataError Buffer, (settle b r).2 = .error e → (settle b r).1 = b := by
    intro r
    cases r <;> simp [settle]
  cases c with
  | release => simp [perform] at failed
  | allocate => exact settled _ failed
  | bindExternal => exact settled _ failed
  | zero => exact settled _ failed
  | write => exact settled _ failed
  | writeAs => exact settled _ failed
  | copyFromAt => exact settled _ failed

/-- What a caller can pass: a write replaces exactly the bytes it is given access to, and a copy's
source is a sound buffer. -/
def Call.Admissible (b : Buffer) : Call → Prop
  | .write bytes => bytes.size = b.byteLen
  | .writeAs _ bytes => bytes.size = b.byteLen
  | .copyFromAt _ src => src.Sound
  | _ => True

/-- Every admissible call keeps a buffer sound. -/
theorem Sound.perform {b : Buffer} (sound : b.Sound) (c : Call) (admissible : c.Admissible b) :
    (b.perform c).1.Sound := by
  -- a failed call leaves the sound buffer; otherwise read the new buffer off the call's spec
  have settled : ∀ r : Except DataError Buffer, (∀ b', r = .ok b' → b'.Sound) → (settle b r).1.Sound := by
    intro r succeeded
    cases r with
    | error e => exact sound
    | ok b' => exact succeeded b' rfl
  cases c with
  | allocate count =>
      refine settled _ fun b' allocated => ?_
      obtain ⟨-, fits, rfl⟩ := allocate_eq_ok_iff.mp allocated
      exact sound_of_owned rfl (by simp [Bytes.zeros, byteLen]) fits
  | bindExternal data count =>
      refine settled _ fun b' bound => ?_
      obtain ⟨-, fits, inside, rfl⟩ := bindExternal_eq_ok.mp bound
      exact borrowed_sound fits inside
  | release =>
      exact release_sound b
  | zero =>
      refine settled _ fun b' zeroed => ?_
      obtain ⟨-, rfl⟩ := zero_eq_ok.mp zeroed
      exact sound_of_owned rfl (by simp [Bytes.zeros, byteLen]) sound.fits
  | write bytes =>
      refine settled _ fun b' written => ?_
      obtain ⟨-, rfl⟩ := overwrite_eq_ok.mp written
      exact sound_of_owned rfl admissible sound.fits
  | writeAs t bytes =>
      refine settled _ fun b' written => ?_
      obtain ⟨-, -, rfl⟩ := writeAs_eq_ok.mp written
      exact sound_of_owned rfl admissible sound.fits
  | copyFromAt offset src =>
      refine settled _ fun b' copied => ?_
      obtain ⟨typed, -, inside, -, rfl⟩ := copyFromAt_eq_ok.mp copied
      exact sound_of_owned rfl (size_windowBytes sound admissible typed inside) sound.fits

end Buffer

/-! ## Buffers and views a caller can obtain -/

/-- The buffers a caller can obtain: new, allocated or filled with elements without overflowing,
the snapshot a view takes of one, what an admissible call leaves of one, and an owned copy of
one. A failed call leaves the buffer it was made on, so it needs no step of its own. -/
inductive Buffer.Reachable : Buffer → Prop where
  | new (t : ElementType) : Reachable (Buffer.new t)
  | allocated {t : ElementType} {count : Nat} {b : Buffer} (made : Buffer.allocated t count = .ok b) :
      Reachable b
  | ofElements (t : ElementType) (xs : List Element) (fits : xs.length * t.size < wordSize) :
      Reachable (Buffer.ofElements t xs)
  | snapshot {b : Buffer} (source : Reachable b) : Reachable (ArrayView.ofBuffer b).buffer
  | call {b : Buffer} (c : Buffer.Call) (before : Reachable b) (admissible : c.Admissible b) :
      Reachable (b.perform c).1
  | ownedCopy {b : Buffer} (source : Reachable b) : Reachable b.toOwnedCopy

/-- The read-only views a caller can obtain: new, over a snapshot of a buffer it can obtain, and
what binding and releasing leave of one. -/
inductive ArrayView.Reachable : ArrayView → Prop where
  | new (t : ElementType) : Reachable (ArrayView.new t)
  | ofBuffer {b : Buffer} (source : b.Reachable) : Reachable (ArrayView.ofBuffer b)
  | bindExternal {v v' : ArrayView} {data : Bytes} {count : Nat} (before : Reachable v)
      (bound : v.bindExternal data count = .ok v') : Reachable v'
  | release {v : ArrayView} (before : Reachable v) : Reachable v.release

namespace Buffer

/-- Every buffer a caller can obtain is sound. -/
theorem Reachable.sound {b : Buffer} (reachable : b.Reachable) : b.Sound := by
  induction reachable with
  | new t => exact new_sound t
  | allocated made => exact allocated_sound made
  | ofElements t xs fits => exact ofElements_sound t xs fits
  | snapshot _ sound => exact snapshot_sound sound
  | call c _ admissible sound => exact sound.perform c admissible
  | ownedCopy _ sound => exact toOwnedCopy_sound sound

end Buffer

namespace ArrayView

/-- Every view a caller can obtain is sound and never owns its bytes. -/
theorem Reachable.sound_unowned {v : ArrayView} (reachable : v.Reachable) :
    v.buffer.Sound ∧ v.buffer.ownership ≠ .owned := by
  induction reachable with
  | new t => exact ⟨Buffer.new_sound t, fun owned => nomatch owned⟩
  | ofBuffer source => exact ⟨Buffer.snapshot_sound source.sound, fun owned => nomatch owned⟩
  | @bindExternal v v' data count _ bound _ =>
      -- a view binds by binding its buffer
      cases binding : v.buffer.bindExternal data count with
      | error e => simp [ArrayView.bindExternal, binding, Except.map] at bound
      | ok b' =>
          simp only [ArrayView.bindExternal, binding, Except.map, Except.ok.injEq] at bound
          subst bound
          obtain ⟨-, fits, inside, rfl⟩ := Buffer.bindExternal_eq_ok.mp binding
          exact ⟨Buffer.borrowed_sound fits inside, fun owned => nomatch owned⟩
  | release _ _ => exact ⟨Buffer.release_sound _, fun owned => nomatch owned⟩

end ArrayView

namespace Buffer

/-- An owned copy of a sound buffer owns its bytes and has the same contents. -/
theorem toOwnedCopy_sameContents {b : Buffer} (sound : b.Sound) :
    b.toOwnedCopy.ownership = .owned ∧ b.toOwnedCopy.sameContents b = true := by
  refine ⟨rfl, ?_⟩
  have copied : b.toOwnedCopy.raw = b.raw :=
    Array.extract_eq_self_of_le (Nat.le_of_eq sound.size_raw)
  rw [sameContents, copied]
  simp [toOwnedCopy]

/--
The representation of every buffer and read-only view a caller can obtain. A buffer is unbound
only with no elements, its byte length fits in a word, its storage holds that many bytes and its
bytes are exactly those; allocation and binding succeed on it only when it is unbound; a call on
it that fails leaves it as it was; and its owned copy owns its bytes and equals it. A view has a
buffer of the same kind that never owns its bytes.
-/
theorem representation_invariant {b : Buffer} {v : ArrayView} (reachable : b.Reachable)
    (viewReachable : v.Reachable) :
    (b.ownership = .unset → b.count = 0) ∧ b.count * b.elementType.size < wordSize ∧
      b.byteLen ≤ b.backing.size ∧ b.raw.size = b.byteLen ∧
      (∀ count b', b.allocate count = .ok b' → b.ownership = .unset) ∧
      (∀ data count b', b.bindExternal data count = .ok b' → b.ownership = .unset) ∧
      (∀ c e, (b.perform c).2 = .error e → (b.perform c).1 = b) ∧
      b.toOwnedCopy.ownership = .owned ∧ b.toOwnedCopy.sameContents b = true ∧
      v.buffer.ownership ≠ .owned ∧ (v.buffer.ownership = .unset → v.buffer.count = 0) ∧
      v.buffer.byteLen < wordSize ∧ v.buffer.raw.size = v.buffer.byteLen := by
  have sound := reachable.sound
  obtain ⟨viewSound, unowned⟩ := viewReachable.sound_unowned
  exact ⟨fun unset => sound.unsetEmpty (ownership_eq_unset_iff.mp unset), sound.fits, sound.holds,
    sound.size_raw, fun _ _ allocated => unset_of_allocate allocated,
    fun _ _ _ bound => unset_of_bindExternal bound, fun _ _ failed => perform_of_error failed,
    (toOwnedCopy_sameContents sound).1, (toOwnedCopy_sameContents sound).2, unowned,
    fun unset => viewSound.unsetEmpty (ownership_eq_unset_iff.mp unset), viewSound.fits,
    viewSound.size_raw⟩

/-- A 32-bit integer buffer allocated for four elements, overwritten with sixteen bytes and given a
copy of one element at its second place, next to a view bound to eight outside bytes as two
elements: both keep their representation. -/
theorem written_buffer_and_bound_view_sound :
    let b := ((((new .int32).perform (.allocate 4)).1.perform (.write (Bytes.zeros 16))).1.perform
      (.copyFromAt 1 (ofElements .int32 [.integer 7]))).1
    let v : ArrayView := ⟨⟨.int32, 2, .borrowed (Bytes.zeros 8)⟩⟩
    (ArrayView.new .int32).bindExternal (Bytes.zeros 8) 2 = .ok v ∧ b.Reachable ∧ v.Reachable ∧
      b.ownership = .owned ∧ b.count = 4 ∧
      (b.ownership = .unset → b.count = 0) ∧ b.count * b.elementType.size < wordSize ∧
      b.byteLen ≤ b.backing.size ∧ b.raw.size = b.byteLen ∧
      (∀ count b', b.allocate count = .ok b' → b.ownership = .unset) ∧
      (∀ data count b', b.bindExternal data count = .ok b' → b.ownership = .unset) ∧
      (∀ c e, (b.perform c).2 = .error e → (b.perform c).1 = b) ∧
      b.toOwnedCopy.ownership = .owned ∧ b.toOwnedCopy.sameContents b = true ∧
      v.buffer.ownership ≠ .owned ∧ (v.buffer.ownership = .unset → v.buffer.count = 0) ∧
      v.buffer.byteLen < wordSize ∧ v.buffer.raw.size = v.buffer.byteLen := by
  intro b v
  have bound : (ArrayView.new .int32).bindExternal (Bytes.zeros 8) 2 = .ok v := rfl
  -- allocate, overwrite every byte, then copy in a sound source
  have allocated := Reachable.call (.allocate 4) (.new .int32) trivial
  have written := Reachable.call (.write (Bytes.zeros 16)) allocated
    (show (Bytes.zeros 16).size = ((new .int32).perform (.allocate 4)).1.byteLen by decide)
  have copied := Reachable.call (.copyFromAt 1 (ofElements .int32 [.integer 7])) written
    (ofElements_sound .int32 [.integer 7] (by decide))
  have viewReachable := ArrayView.Reachable.bindExternal (.new .int32) bound
  exact ⟨bound, copied, viewReachable, by decide, by decide,
    representation_invariant copied viewReachable⟩

/--
Copying a sound buffer into a window of a sound buffer, for every offset. The copy fails on a
type mismatch first; then it panics when the window's end passes the word, and otherwise fails
when the window ends past the buffer (with the window's end as index); then on an unbound or
borrowed buffer. A failed copy leaves the buffer as it was. Otherwise it keeps the buffer's type,
count and ownership, and its bytes are the source's inside the window and the buffer's own
everywhere else.
-/
theorem copyFromAt_window {dst src : Buffer} {offset : Nat} (dstSound : dst.Sound)
    (srcSound : src.Sound) :
    (src.elementType ≠ dst.elementType →
      dst.copyFromAt offset src = .error (.typeMismatch dst.elementType src.elementType)) ∧
    (src.elementType = dst.elementType → wordSize ≤ offset + src.count →
      dst.copyFromAt offset src = .error (.panicked "attempt to add with overflow")) ∧
    (src.elementType = dst.elementType → offset + src.count < wordSize →
      dst.count < offset + src.count →
      dst.copyFromAt offset src = .error (.outOfRange (offset + src.count) dst.count)) ∧
    (src.elementType = dst.elementType → offset + src.count ≤ dst.count →
      dst.ownership = .unset → dst.copyFromAt offset src = .error .unbound) ∧
    (src.elementType = dst.elementType → offset + src.count ≤ dst.count →
      dst.ownership = .borrowed → dst.copyFromAt offset src = .error .readOnly) ∧
    (∀ e, (dst.perform (.copyFromAt offset src)).2 = .error e →
      (dst.perform (.copyFromAt offset src)).1 = dst) ∧
    (src.elementType = dst.elementType → offset + src.count ≤ dst.count →
      dst.ownership = .owned → ∃ b', dst.copyFromAt offset src = .ok b' ∧
        b'.elementType = dst.elementType ∧ b'.count = dst.count ∧ b'.ownership = .owned ∧
        ∀ i, b'.raw[i]? =
          if offset * dst.elementType.size ≤ i ∧ i < (offset + src.count) * dst.elementType.size then
            src.raw[i - offset * dst.elementType.size]?
          else dst.raw[i]?) := by
  -- a window inside a sound buffer ends within the word, as the buffer's count does
  have inWord : offset + src.count ≤ dst.count → offset + src.count < pow2 64 := fun inside =>
    Nat.lt_of_le_of_lt inside dstSound.count_lt
  -- the copy's checks, in the order it makes them
  refine ⟨fun mistyped => ?_, fun typed overflows => ?_, fun typed below past => ?_,
    fun typed inside unset => ?_, fun typed inside borrowed => ?_,
    fun _ failed => perform_of_error failed, fun typed inside owned => ?_⟩
  · simp [copyFromAt, mistyped, bind, Except.bind, throw, throwThe, MonadExceptOf.throw]
  · simp [copyFromAt, typed, addOrPanic_of_le overflows, bind, Except.bind]
  · simp [copyFromAt, typed, addOrPanic_of_lt below, past, bind, Except.bind, throw, throwThe,
      MonadExceptOf.throw]
  · have unbound : dst.writable = .error .unbound := by
      unfold writable
      rw [ownership_eq_unset_iff.mp unset]
    simp [copyFromAt, typed, addOrPanic_of_lt (inWord inside), Nat.not_lt.mpr inside, unbound,
      bind, Except.bind]
  · have readOnly : dst.writable = .error .readOnly := by
      unfold writable ownership at *
      split <;> simp_all
    simp [copyFromAt, typed, addOrPanic_of_lt (inWord inside), Nat.not_lt.mpr inside, readOnly,
      bind, Except.bind]
  · refine ⟨_, copyFromAt_eq_ok.mpr ⟨typed, inWord inside, inside, owned, rfl⟩, rfl, rfl, rfl,
      fun i => ?_⟩
    -- the new bytes are the window's bytes, exactly as many as the buffer's
    have exact := size_windowBytes dstSound srcSound typed inside
    have whole : ({ dst with backing := .owned (dst.windowBytes offset src) } : Buffer).raw =
        dst.windowBytes offset src := by
      simp only [raw]
      exact Array.extract_eq_self_of_le (Nat.le_of_eq exact)
    rw [whole, getElem?_windowBytes dstSound srcSound typed inside]

/-- Copying one 32-bit integer into the second place of four keeps four elements, and copying it
to the last offset of the word panics. -/
theorem copy_into_second_place :
    (ofElements .int32 [.integer 0, .integer 0, .integer 0, .integer 0]).Sound ∧
      (ofElements .int32 [.integer 7]).Sound ∧
      (∃ b', (ofElements .int32 [.integer 0, .integer 0, .integer 0, .integer 0]).copyFromAt 1
        (ofElements .int32 [.integer 7]) = .ok b' ∧ b'.count = 4) ∧
      (ofElements .int32 [.integer 0, .integer 0, .integer 0, .integer 0]).copyFromAt (wordSize - 1)
        (ofElements .int32 [.integer 7]) = .error (.panicked "attempt to add with overflow") :=
  have dstSound := ofElements_sound .int32 [.integer 0, .integer 0, .integer 0, .integer 0]
    (by decide)
  have srcSound := ofElements_sound .int32 [.integer 7] (by decide)
  have window := @copyFromAt_window _ _ 1 dstSound srcSound
  let ⟨b', copied, _, counted, _⟩ := window.2.2.2.2.2.2 rfl (by decide) rfl
  ⟨dstSound, srcSound, ⟨b', copied, counted⟩,
    (@copyFromAt_window _ _ (wordSize - 1) dstSound srcSound).2.1 rfl (by decide)⟩

/-- Copying one 32-bit integer into a buffer of four at the last offset of the word ends past the
buffer over the integers, yet finding the end of the window overflows and panics. -/
theorem copy_at_last_word_panics :
    (ofElements .int32 [.integer 0, .integer 0, .integer 0, .integer 0]).count <
        (wordSize - 1) + (ofElements .int32 [.integer 7]).count ∧
      (ofElements .int32 [.integer 0, .integer 0, .integer 0, .integer 0]).copyFromAt (wordSize - 1)
        (ofElements .int32 [.integer 7]) = .error (.panicked "attempt to add with overflow") := by
  refine ⟨by decide, ?_⟩
  have overflows : pow2 64 ≤ (wordSize - 1) + (ofElements .int32 [.integer 7]).count := by decide
  have typed : (ofElements .int32 [.integer 7]).elementType =
      (ofElements .int32 [.integer 0, .integer 0, .integer 0, .integer 0]).elementType := rfl
  simp [copyFromAt, typed, addOrPanic_of_le overflows, bind, Except.bind]

end Buffer

end RegionNet
