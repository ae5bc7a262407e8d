import RegionNet.Proofs.Merging

namespace RegionNet

/-!
# Converting parameter values

A region's parameters are declared with an element type and a count and are given as JSON. A byte
declaration of count `0` takes a string, any other declaration of count `0` an array, and every
other declaration a single value of its type, whatever its count. An integer type reads the JSON
integers within its range; the value then reads back through the accessors, as a signed or an
unsigned 64-bit integer, or as a double by way of the signed reading.

This module states what conversion gives. A converted value has the declared element type and fits
the declaration exactly when the count is at most one, so a count of two or more gives values that
the shape check of setting a parameter refuses (`converted_parameters_fit_iff_at_most_one`).
Integers convert exactly, with each accessor's boundary (`integer_parameters_convert_exactly`); an
array keeps its elements as little-endian bytes, and the first sections show that integers in range
read back from them.
-/

namespace Bytes

/-- Eight bits to the power of a byte count: `2^(8 i) = 256^i`. -/
theorem pow2_bytes (i : Nat) : pow2 (8 * i) = 256 ^ i := by
  simp [pow2, pow_mul]

/-- Bytes read little-endian, each the digit of its place in base 256 of `m`, give `m` modulo the
range of the width. -/
theorem foldr_digits
    (width : Nat) :
    ∀ (digit : Nat → Nat) (m : Nat), (∀ i < width, digit i = m / 256 ^ i % 256) →
      (List.range width).foldr (fun i acc => acc * 256 + digit i) 0 = m % 256 ^ width := by
  induction width with
  | zero =>
      intro digit m _
      simp [Nat.mod_one]
  | succ width inductionHypothesis =>
      intro digit m digits
      -- the lowest byte is read last; the others are the digits of `m / 256`
      have higher := inductionHypothesis (fun i => digit (i + 1)) (m / 256) fun i below => by
        rw [digits (i + 1) (by omega), Nat.div_div_eq_div_mul, pow_succ']
      rw [List.range_succ_eq_map, List.foldr_cons, List.foldr_map]
      simp only [Nat.succ_eq_add_one]
      rw [higher, digits 0 (by omega), pow_succ', Nat.mod_mul, pow_zero, Nat.div_one]
      ring

/-- A width of little-endian bytes reads back the number modulo the width's range. -/
theorem readLittleEndian_littleEndian
    (width value : Nat) :
    (littleEndian width value).readLittleEndian 0 width = value % pow2 (8 * width) := by
  unfold readLittleEndian
  rw [pow2_bytes]
  refine foldr_digits width _ value fun i below => ?_
  simp [littleEndian, below, pow2_bytes]

end Bytes

namespace Element

/-- The bytes an integer is written as hold it modulo the range of its type's width. -/
theorem readLittleEndian_write_integer
    (t : ElementType)
    (n : Int) :
    (write t (.integer n)).readLittleEndian 0 t.size = (n % (pow2 (8 * t.size) : Int)).toNat := by
  have positive : (0 : Int) < pow2 (8 * t.size) := by
    exact_mod_cast Nat.pow_pos (by decide)
  rw [write, Bytes.readLittleEndian_littleEndian]
  refine Nat.mod_eq_of_lt ?_
  have below := Int.emod_lt_of_pos n positive
  have nonneg := Int.emod_nonneg n positive.ne'
  omega

/-- An integer within its type's range is read back from the bytes it is written as. -/
theorem read_write_integer
    {t : ElementType}
    (integral : t.isReal = false)
    {n : Int}
    (above : t.intMin ≤ n)
    (below : n ≤ t.intMax) :
    read t (write t (.integer n)) 0 = .integer n := by
  have raw := readLittleEndian_write_integer t n
  unfold read
  -- each integer type has its own width, sign and range
  cases t
  case real32 | real64 =>
    simp [ElementType.isReal] at integral
  all_goals
    simp only [ElementType.isSigned, ElementType.size, ElementType.intMin, ElementType.intMax,
      pow2, Nat.pow_eq, Nat.reducePow, Nat.reduceMul, Nat.reduceSub, raw, Bool.true_and,
      Bool.false_and, Bool.false_eq_true, decide_eq_true_eq, ↓reduceIte, integer.injEq] at *
  case byte | uint16 | uint32 | uint64 | handle =>
    omega
  case int16 | int32 | int64 =>
    -- a negative value is stored as its two's complement
    split <;> simp only [integer.injEq] <;> omega

/-- Elements written after some bytes follow those bytes. -/
theorem foldl_write
    (t : ElementType)
    (xs : List Element)
    (start : Bytes) :
    xs.foldl (fun acc x => acc ++ write t x) start = start ++ writeAll t xs := by
  induction xs generalizing start with
  | nil =>
      simp [writeAll]
  | cons x rest inductionHypothesis =>
      simp only [List.foldl_cons, writeAll]
      rw [inductionHypothesis, inductionHypothesis (#[] ++ write t x)]
      simp [Array.append_assoc]

/-- The bytes of elements are those of the first followed by those of the rest. -/
theorem writeAll_cons
    (t : ElementType)
    (x : Element)
    (xs : List Element) :
    writeAll t (x :: xs) = write t x ++ writeAll t xs := by
  rw [writeAll, List.foldl_cons, foldl_write]
  simp

/-- Integers within their type's range, written one after another, read back in order. -/
theorem readAll_writeAll_integers
    {t : ElementType}
    (integral : t.isReal = false)
    {xs : List Element}
    (integers : ∀ x ∈ xs, ∃ n, x = .integer n ∧ t.intMin ≤ n ∧ n ≤ t.intMax) :
    readAll t (writeAll t xs) = xs := by
  induction xs with
  | nil =>
      simp [writeAll, readAll]
  | cons x rest inductionHypothesis =>
      obtain ⟨n, rfl, above, below⟩ := integers x (.head _)
      have aligned : t.size ∣ (write t (.integer n)).size := by rw [size_write]
      -- one element's bytes hold exactly that element
      have single : readAll t (write t (.integer n)) = [.integer n] := by
        simp [readAll, size_write, Nat.div_self (size_pos t), read_write_integer integral above below]
      rw [writeAll_cons, readAll_append aligned, single,
        inductionHypothesis fun y member => integers y (.tail _ member)]
      rfl

end Element

/-- A JSON number in a form the reader gives it: a non-negative integer below `2^64`, a negative
integer of at least `-2^63`, or a double. -/
def JsonNumber.Readable : JsonNumber → Prop
  | .nat n => n < wordSize
  | .negative n => int64Min ≤ n ∧ n < 0
  | .float _ => True

/-- A JSON value whose number, if it is one, is in a form the reader gives. -/
def Json.NumberReadable : Json → Prop
  | .number k => k.Readable
  | _ => True

/-- The integer a JSON value holds, in either integer form of a number. -/
def Json.integer? : Json → Option Int
  | .number (.nat n) => some n
  | .number (.negative n) => some n
  | _ => none

namespace ParameterValue

variable {t : ElementType} {j : Json} {n : Int}

/-- An integer type reads exactly the JSON integers within its range. -/
theorem integerOfJson_eq_some_iff
    (readable : j.NumberReadable) :
    integerOfJson t j = some n ↔ j.integer? = some n ∧ t.intMin ≤ n ∧ n ≤ t.intMax := by
  have floor : t.intMin ≤ 0 := by cases t <;> decide
  have ceiling : 0 ≤ t.intMax := by cases t <;> decide
  -- only the two integer forms of a number are read
  cases j with
  | number k =>
      cases k with
      | nat m =>
          by_cases fits : (m : Int) ≤ t.intMax <;>
            simp [integerOfJson, Json.integer?, fits] <;> omega
      | negative m =>
          have negative : m < 0 := readable.2
          by_cases fits : t.intMin ≤ m <;>
            simp [integerOfJson, Json.integer?, fits] <;> omega
      | float x =>
          simp [integerOfJson, Json.integer?]
  | _ =>
      simp [integerOfJson, Json.integer?]

/-- A single value of an integer type is the integer the JSON value holds in range. -/
theorem scalarOfJson_integral
    (integral : t.isReal = false) :
    scalarOfJson t j = (integerOfJson t j).map (.integer t) := by
  cases t <;> simp_all [scalarOfJson, ElementType.isReal]

/-- An array element of an integer type is the integer the JSON value holds in range. -/
theorem elementOfJson_integral
    (integral : t.isReal = false) :
    elementOfJson t j = (integerOfJson t j).map .integer := by
  cases t <;> simp_all [elementOfJson, ElementType.isReal]

/-- Whatever is made from the integer a JSON value holds in range is made from a JSON integer
within the type's range. -/
theorem map_integerOfJson_eq_some_iff
    {β : Type}
    (f : Int → β)
    (readable : j.NumberReadable)
    {x : β} :
    (integerOfJson t j).map f = some x ↔
      ∃ n, j.integer? = some n ∧ t.intMin ≤ n ∧ n ≤ t.intMax ∧ x = f n := by
  rw [Option.map_eq_some_iff]
  constructor
  · rintro ⟨n, read, rfl⟩
    obtain ⟨held, above, below⟩ := (integerOfJson_eq_some_iff readable).mp read
    exact ⟨n, held, above, below, rfl⟩
  · rintro ⟨n, held, above, below, rfl⟩
    exact ⟨n, (integerOfJson_eq_some_iff readable).mpr ⟨held, above, below⟩, rfl⟩

/-- A value of an integer type is a JSON integer within the type's range, read as such. -/
theorem scalarOfJson_integral_eq_some_iff
    (integral : t.isReal = false)
    (readable : j.NumberReadable)
    {v : ParameterValue} :
    scalarOfJson t j = some v ↔ ∃ n, j.integer? = some n ∧ t.intMin ≤ n ∧ n ≤ t.intMax ∧
      v = .integer t n := by
  rw [scalarOfJson_integral integral]
  exact map_integerOfJson_eq_some_iff _ readable

/-- An element of an integer type is the integer the JSON value holds within the type's range. -/
theorem elementOfJson_integral_eq_some_iff
    (integral : t.isReal = false)
    (readable : j.NumberReadable)
    {x : Element} :
    elementOfJson t j = some x ↔ ∃ n, j.integer? = some n ∧ t.intMin ≤ n ∧ n ≤ t.intMax ∧
      x = .integer n := by
  rw [elementOfJson_integral integral]
  exact map_integerOfJson_eq_some_iff _ readable

variable {spec : ParameterSpec} {name : String} {v : ParameterValue}

/-- A string parameter takes a JSON string. -/
theorem ofJson_string_eq_ok
    (string : spec.isString = true) :
    ofJson j spec name = .ok v ↔ ∃ s, j = .string s ∧ v = .text s := by
  cases j <;> simp [ofJson, string, Json.str?]
  exact eq_comm

/-- An array parameter takes a JSON array whose every item converts to an element of its type. -/
theorem ofJson_array_eq_ok
    (array : spec.isArray = true) :
    ofJson j spec name = .ok v ↔ ∃ items xs, j = .array items ∧
      items.mapM (elementOfJson spec.dataType) = some xs ∧
      v = .array (Buffer.ofElements spec.dataType xs) := by
  have notString : spec.isString = false := by
    simp only [ParameterSpec.isArray, Bool.and_eq_true, Bool.not_eq_true'] at array
    exact array.2
  cases j <;> simp [ofJson, notString, array, Json.arr?]
  rename_i items
  cases items.mapM (elementOfJson spec.dataType) <;> simp [eq_comm]

/-- Any other parameter takes a single value of its type. -/
theorem ofJson_scalar_eq_ok
    (scalar : spec.count ≠ 0) :
    ofJson j spec name = .ok v ↔ scalarOfJson spec.dataType j = some v := by
  have notString : spec.isString = false := by simp [ParameterSpec.isString, scalar]
  have notArray : spec.isArray = false := by simp [ParameterSpec.isArray, scalar]
  cases read : scalarOfJson spec.dataType j <;> simp [ofJson, notString, notArray, read]

/-- A single value read from JSON has the type it was read as, and fits a declaration of that
type exactly when the declared count is one. -/
theorem fits_of_scalarOfJson
    (read : scalarOfJson t j = some v) :
    v.elementType = t ∧ v.fits spec = (spec.count == 1 && t == spec.dataType) := by
  cases t <;> simp only [scalarOfJson, Option.map_eq_some_iff] at read <;>
    obtain ⟨_, _, rfl⟩ := read <;> simp [fits, elementType]

/-- A converted value has the declared element type, and has the declared shape exactly when the
declared count is at most one: a count of two or more is read as a single value, which the shape
check takes for a scalar only at count one. -/
theorem ofJson_elementType_fits
    (converted : ofJson j spec name = .ok v) :
    v.elementType = spec.dataType ∧ (v.fits spec = true ↔ spec.count ≤ 1) := by
  by_cases string : spec.isString = true
  · obtain ⟨s, rfl, rfl⟩ := (ofJson_string_eq_ok string).mp converted
    have bytes : spec.dataType = .byte ∧ spec.count = 0 := by
      simpa [ParameterSpec.isString] using string
    simp [elementType, fits, string, bytes]
  · by_cases array : spec.isArray = true
    · obtain ⟨items, xs, rfl, -, rfl⟩ := (ofJson_array_eq_ok array).mp converted
      have empty : spec.count = 0 := by
        simp only [ParameterSpec.isArray, Bool.and_eq_true, beq_iff_eq] at array
        exact array.1
      simp [elementType, fits, array, empty, Buffer.ofElements]
    · have scalar : spec.count ≠ 0 := fun empty =>
        array (by simp [ParameterSpec.isArray, empty, string])
      obtain ⟨typed, shaped⟩ := fits_of_scalarOfJson ((ofJson_scalar_eq_ok scalar).mp converted)
      refine ⟨typed, ?_⟩
      rw [shaped]
      simp only [beq_self_eq_true, Bool.and_true, beq_iff_eq]
      omega

/-- An integer value reads as a signed 64-bit integer exactly when it is at most `2^63 - 1`. -/
theorem asInt64_integer_eq_ok_iff :
    (integer t n).asInt64 = .ok n ↔ n ≤ int64Max := by
  by_cases fits : n ≤ int64Max <;> simp [asInt64, fits]

/-- The integer types whose range reaches past a signed 64-bit integer are the unsigned 64-bit
words. -/
theorem intMax_le_int64Max
    (integral : t.isReal = false)
    (narrow : t ≠ .uint64 ∧ t ≠ .handle) :
    t.intMax ≤ int64Max := by
  cases t <;> simp_all [ElementType.isReal, ElementType.intMax, int64Max, pow2]

/-- An integer value within its type's range reads as an unsigned 64-bit integer exactly when it
is not negative. -/
theorem asUInt64_integer_eq_ok_iff
    (integral : t.isReal = false)
    (above : t.intMin ≤ n)
    (below : n ≤ t.intMax) :
    (integer t n).asUInt64 = .ok n.toNat ↔ 0 ≤ n := by
  by_cases wide : t = .uint64 ∨ t = .handle
  · -- an unsigned word is read as it is; its range starts at zero
    have nonnegative : 0 ≤ n := by
      rcases wide with rfl | rfl <;> simpa [ElementType.intMin] using above
    rcases wide with rfl | rfl <;> simp [asUInt64, nonnegative]
  · have narrow : t ≠ .uint64 ∧ t ≠ .handle := by tauto
    have signed : (integer t n).asInt64 = .ok n :=
      asInt64_integer_eq_ok_iff.mpr (le_trans below (intMax_le_int64Max integral narrow))
    have viaInt64 : (integer t n).asUInt64 = (do
        let m ← (integer t n).asInt64
        if m < 0 then throw ((integer t n).wrongKind "a non-negative integer") else pure m.toNat) := by
      cases t <;> simp_all [asUInt64]
    rw [viaInt64, signed]
    by_cases negative : n < 0
    · simp [negative, bind, Except.bind, throw, throwThe, MonadExceptOf.throw]
    · simp [negative, bind, Except.bind, pure, Except.pure]
      omega

/-- An integer value reads as a double, the nearest one, exactly when it is at most `2^63 - 1`. -/
theorem asDouble_integer_eq_ok_iff :
    (integer t n).asDouble = .ok (Binary64.ofInt n) ↔ n ≤ int64Max := by
  by_cases fits : n ≤ int64Max <;> simp [asDouble, asInt64, fits, Except.map]

/-- An array of integers in range reads back, as its own type, exactly its elements. -/
theorem read_ofElements_integers
    (integral : t.isReal = false)
    {xs : List Element}
    (integers : ∀ x ∈ xs, ∃ n, x = .integer n ∧ t.intMin ≤ n ∧ n ≤ t.intMax) :
    (Buffer.ofElements t xs).read t = .ok xs := by
  have whole : (Buffer.ofElements t xs).raw = Element.writeAll t xs :=
    Buffer.raw_of_owned rfl (by simp [Buffer.ofElements, Buffer.byteLen, Element.size_writeAll])
  have owned : (Buffer.ofElements t xs).read t = .ok (Element.readAll t (Buffer.ofElements t xs).raw) :=
    Buffer.read_of_owned rfl
  rw [owned, whole, Element.readAll_writeAll_integers integral integers]

/-- A list of JSON values converts, item by item, exactly when every item does. -/
theorem mapM_isSome_iff
    {α β : Type}
    (f : α → Option β)
    (items : List α) :
    (items.mapM f).isSome ↔ ∀ item ∈ items, (f item).isSome := by
  induction items with
  | nil =>
      simp [pure]
  | cons item rest inductionHypothesis =>
      rw [List.mapM_cons]
      cases converted : f item <;> cases restConverted : rest.mapM f <;>
        simp_all [pure]

/-- An entry on the right of related lists is related to an entry on the left. -/
theorem exists_of_forall₂_right
    {α β : Type}
    {R : α → β → Prop}
    {l₁ : List α}
    {l₂ : List β}
    (related : List.Forall₂ R l₁ l₂)
    {b : β}
    (member : b ∈ l₂) :
    ∃ a ∈ l₁, R a b := by
  induction related with
  | nil =>
      cases member
  | cons head _ inductionHypothesis =>
      rcases List.mem_cons.mp member with rfl | later
      · exact ⟨_, .head _, head⟩
      · obtain ⟨a, inTail, holds⟩ := inductionHypothesis later
        exact ⟨a, .tail _ inTail, holds⟩

/-- An array of an integer type takes a JSON array exactly when every item converts as a single
value of the type would; it then holds the integers of the items, one element per item and in
their order, as its own bytes read back. -/
theorem ofJson_integral_array
    (array : spec.isArray = true)
    (integral : spec.dataType.isReal = false)
    {items : List Json}
    (readable : ∀ item ∈ items, item.NumberReadable) :
    ((∃ v, ofJson (.array items) spec name = .ok v) ↔
        ∀ item ∈ items, (scalarOfJson spec.dataType item).isSome) ∧
      ∀ v, ofJson (.array items) spec name = .ok v → ∃ b xs, v = .array b ∧
        List.Forall₂ (fun item x => ∃ n, item.integer? = some n ∧ x = .integer n) items xs ∧
        b.count = items.length ∧ b.read spec.dataType = .ok xs := by
  constructor
  · -- an item converts as an element exactly when it converts as a single value
    have sameItems : ∀ item : Json, (elementOfJson spec.dataType item).isSome =
        (scalarOfJson spec.dataType item).isSome := fun item => by
      simp [elementOfJson_integral integral, scalarOfJson_integral integral]
    calc (∃ v, ofJson (.array items) spec name = .ok v)
        ↔ (items.mapM (elementOfJson spec.dataType)).isSome := by
          simp only [ofJson_array_eq_ok array, Json.array.injEq, Option.isSome_iff_exists]
          constructor
          · rintro ⟨_, _, xs, rfl, mapped, -⟩
            exact ⟨xs, mapped⟩
          · rintro ⟨xs, mapped⟩
            exact ⟨_, items, xs, rfl, mapped, rfl⟩
      _ ↔ ∀ item ∈ items, (elementOfJson spec.dataType item).isSome := mapM_isSome_iff _ _
      _ ↔ ∀ item ∈ items, (scalarOfJson spec.dataType item).isSome := by simp only [sameItems]
  · intro v converted
    obtain ⟨_, xs, same, mapped, rfl⟩ := (ofJson_array_eq_ok array).mp converted
    cases same
    have each := (mapM_option_eq_some_iff _ items xs).mp mapped
    -- each element is the integer its item holds, in the type's range
    have inRange : List.Forall₂ (fun item x => ∃ n, item.integer? = some n ∧
        spec.dataType.intMin ≤ n ∧ n ≤ spec.dataType.intMax ∧ x = .integer n) items xs :=
      ((List.forall₂_and_left _ _).mpr ⟨readable, each⟩).imp fun _ _ ⟨itemReadable, read⟩ =>
        (elementOfJson_integral_eq_some_iff integral itemReadable).mp read
    refine ⟨_, xs, rfl, inRange.imp fun _ _ ⟨n, held, _, _, is⟩ => ⟨n, held, is⟩,
      by simp [Buffer.ofElements, inRange.length_eq], read_ofElements_integers integral ?_⟩
    intro x member
    obtain ⟨_, _, n, _, above, below, is⟩ := exists_of_forall₂_right inRange member
    exact ⟨n, is, above, below⟩

end ParameterValue


section Collecting

variable {α β ε : Type}

/-- A loop whose every step adds one entry to a collection ends with the start's entries followed
by one entry per item, each related to its item. -/
theorem forIn_appends
    (R : β → String × α → Prop)
    {f : β → Collection α → Except ε (ForInStep (Collection α))}
    (step : ∀ x c r, f x c = .ok r → ∃ e, R x e ∧ r = .yield ⟨c.entries ++ [e]⟩)
    {xs : List β} :
    ∀ {start final : Collection α}, forIn xs start f = .ok final →
      ∃ es, final.entries = start.entries ++ es ∧ List.Forall₂ (fun e x => R x e) es xs := by
  induction xs with
  | nil =>
      intro start final finished
      simp only [List.forIn_nil, pure, Except.pure, Except.ok.injEq] at finished
      exact ⟨[], by simp [finished]⟩
  | cons x rest inductionHypothesis =>
      intro start final finished
      rw [List.forIn_cons] at finished
      cases stepped : f x start with
      | error e =>
          simp [stepped, bind, Except.bind] at finished
      | ok r =>
          obtain ⟨e, related, rfl⟩ := step x start r stepped
          simp only [stepped, bind, Except.bind] at finished
          obtain ⟨es, entries, relatedRest⟩ := inductionHypothesis finished
          exact ⟨e :: es, by simp [entries], .cons related relatedRest⟩

end Collecting

namespace ParameterMap

/-- The values read from a parameter text stand beside the declared parameters, in order: each
under its declaration's name, converted from some JSON value against that declaration. -/
theorem entries_of_ofText
    {params typeName : String}
    {spec : RegionSpec}
    {m : ParameterMap}
    (built : ofText params spec typeName = .ok m) :
    List.Forall₂ (fun e d => e.1 = d.1 ∧ ∃ j, ParameterValue.ofJson j d.2 d.1 = .ok e.2)
      m.values.entries spec.parameters.entries := by
  unfold ofText at built
  simp only [bind, Except.bind] at built
  -- the supplied names are read and checked first; only the loop over the declarations makes values
  split at built
  · cases built
  split at built
  · cases built
  split at built
  · cases built
  rename_i values collected
  simp only [pure, Except.pure, Except.ok.injEq] at built
  subst built
  have appended := forIn_appends
    (fun (d : String × ParameterSpec) (e : String × ParameterValue) =>
      e.1 = d.1 ∧ ∃ j, ParameterValue.ofJson j d.2 d.1 = .ok e.2) ?step collected
  · obtain ⟨es, entries, related⟩ := appended
    simpa [entries, Collection.empty] using related
  -- one step: the JSON value, its conversion against the declaration, and the entry added
  intro x c r stepped
  split at stepped
  · cases stepped
  rename_i j _
  split at stepped
  · cases stepped
  rename_i v converted
  split at stepped
  · cases stepped
  rename_i added grown
  simp only [pure, Except.pure, Except.ok.injEq] at stepped
  simp only [liftData_eq_ok, Collection.add] at grown
  split at grown
  · cases grown
  simp only [Except.ok.injEq] at grown
  exact ⟨(x.1, v), ⟨rfl, j, converted⟩, by rw [← stepped, ← grown]⟩

end ParameterMap

/-- Setting a declared, writable parameter to a value converted against its declaration passes
the shape check exactly when the declaration has at most one element; otherwise the refusal names
the declared type as both the expected and the given one. -/
theorem Region.setParameter_of_converted
    {r : Region}
    {name : String}
    {p : ParameterSpec}
    {j : Json}
    {v : ParameterValue}
    (declared : r.parameterSpec name = .ok p)
    (writable : p.access = .readWrite)
    (converted : ParameterValue.ofJson j p name = .ok v) :
    r.setParameter name v =
      if p.count ≤ 1 then (fun impl => { r with impl }) <$> r.impl.set name v
      else .error (.invalidParameter
        s!"parameter '{name}' on region '{r.name}' expects {p.dataType.name}, got {p.dataType.name}") := by
  obtain ⟨typed, fitting⟩ := ParameterValue.ofJson_elementType_fits converted
  by_cases few : p.count ≤ 1
  · have fits : v.fits p = true := fitting.mpr few
    cases setting : r.impl.set name v <;>
      simp [setParameter, declared, writable, fits, few, setting, bind, Except.bind, Functor.map,
        Except.map, pure, Except.pure]
  · have misfits : v.fits p = false := by
      rw [← Bool.not_eq_true, fitting]
      exact few
    simp [setParameter, declared, writable, misfits, few, typed, bind, Except.bind, throw, throwThe,
      MonadExceptOf.throw]

/-- A value converted from JSON against a declaration has the declared element type, and fits the
declaration exactly when the declared count is at most one: a declaration of two or more elements
converts a single value, which fits only a count of one. Setting the value on a region that declares
the parameter so, writable, reaches the region's own setter exactly when the count is at most one,
the refusal otherwise naming the declared type as both the expected and the given one; and the
values of every parameter map read from text stand beside their declarations, in order, with both
properties. -/
theorem converted_parameters_fit_iff_at_most_one
    (j : Json)
    (spec : ParameterSpec)
    (name : String)
    (v : ParameterValue)
    (converted : ParameterValue.ofJson j spec name = .ok v) :
    v.elementType = spec.dataType ∧ (v.fits spec = true ↔ spec.count ≤ 1) ∧
    (∀ r : Region, r.parameterSpec name = .ok spec → spec.access = .readWrite →
      r.setParameter name v =
        if spec.count ≤ 1 then (fun impl => { r with impl }) <$> r.impl.set name v
        else .error (.invalidParameter s!"parameter '{name}' on region '{r.name}' expects {spec.dataType.name}, got {spec.dataType.name}")) ∧
    (∀ (params typeName : String) (regionSpec : RegionSpec) (m : ParameterMap),
      ParameterMap.ofText params regionSpec typeName = .ok m →
        List.Forall₂ (fun e d => e.1 = d.1 ∧ e.2.elementType = d.2.dataType ∧
          (e.2.fits d.2 = true ↔ d.2.count ≤ 1)) m.values.entries regionSpec.parameters.entries) := by
  obtain ⟨typed, fitting⟩ := ParameterValue.ofJson_elementType_fits converted
  refine ⟨typed, fitting, fun r declared writable =>
    Region.setParameter_of_converted declared writable converted,
    fun params typeName regionSpec m built => ?_⟩
  -- each entry's value was converted against the declaration beside it
  refine (ParameterMap.entries_of_ofText built).imp fun e d => ?_
  rintro ⟨named, json, entryConverted⟩
  exact ⟨named, ParameterValue.ofJson_elementType_fits entryConverted⟩

/-- A declaration of one 32-bit integer converts the JSON number `5` to a value of its type that
fits it, and that a region declaring the parameter so passes on to its own setter. -/
theorem single_int32_parameter_fits :
    ParameterValue.ofJson (.number (.nat 5)) { dataType := .int32, count := 1 } "p" =
        .ok (.integer .int32 5) ∧
      (ParameterValue.integer .int32 5).elementType = .int32 ∧
      ((ParameterValue.integer .int32 5).fits { dataType := .int32, count := 1 } = true ↔ 1 ≤ 1) ∧
      (∀ r : Region, r.parameterSpec "p" = .ok { dataType := .int32, count := 1 } →
        ParameterAccess.readWrite = .readWrite →
        r.setParameter "p" (.integer .int32 5) =
          (fun impl => { r with impl }) <$> r.impl.set "p" (.integer .int32 5)) ∧
      (∀ (params typeName : String) (regionSpec : RegionSpec) (m : ParameterMap),
        ParameterMap.ofText params regionSpec typeName = .ok m →
          List.Forall₂ (fun e d => e.1 = d.1 ∧ e.2.elementType = d.2.dataType ∧
            (e.2.fits d.2 = true ↔ d.2.count ≤ 1)) m.values.entries regionSpec.parameters.entries) :=
  ⟨rfl, converted_parameters_fit_iff_at_most_one (.number (.nat 5)) { dataType := .int32, count := 1 }
    "p" (.integer .int32 5) rfl⟩

/-- A declaration of two 32-bit integers converts the JSON number `5` to a single value, which
does not fit it. -/
theorem count_two_value_misfits :
    ParameterValue.ofJson (.number (.nat 5)) { dataType := .int32, count := 2 } "p" =
        .ok (.integer .int32 5) ∧
      (ParameterValue.integer .int32 5).fits { dataType := .int32, count := 2 } = false :=
  ⟨rfl, rfl⟩

/-- Integer parameters convert exactly and are range checked: a single value of an integer type
is read from a JSON integer within the type's range and holds it; it reads back as a signed
64-bit integer exactly when it is at most `2^63 - 1`, as an unsigned one exactly when it is not
negative, and as the nearest double exactly when it is at most `2^63 - 1`; an array of the type
converts exactly when every item does and holds the items' integers in order. -/
theorem integer_parameters_convert_exactly
    {t : ElementType}
    (integral : t.isReal = false) :
    (∀ j : Json, j.NumberReadable → ∀ v,
      ParameterValue.scalarOfJson t j = some v ↔
        ∃ n, j.integer? = some n ∧ t.intMin ≤ n ∧ n ≤ t.intMax ∧ v = .integer t n) ∧
    (∀ n, t.intMin ≤ n → n ≤ t.intMax →
      ((ParameterValue.integer t n).asInt64 = .ok n ↔ n ≤ int64Max) ∧
      ((ParameterValue.integer t n).asUInt64 = .ok n.toNat ↔ 0 ≤ n) ∧
      ((ParameterValue.integer t n).asDouble = .ok (Binary64.ofInt n) ↔ n ≤ int64Max)) ∧
    (∀ (spec : ParameterSpec) (name : String) (items : List Json),
      spec.dataType = t → spec.isArray = true → (∀ item ∈ items, item.NumberReadable) →
      ((∃ v, ParameterValue.ofJson (.array items) spec name = .ok v) ↔
          ∀ item ∈ items, (ParameterValue.scalarOfJson t item).isSome) ∧
        ∀ v, ParameterValue.ofJson (.array items) spec name = .ok v → ∃ b xs, v = .array b ∧
          List.Forall₂ (fun item x => ∃ n, item.integer? = some n ∧ x = .integer n) items xs ∧
          b.count = items.length ∧ b.read t = .ok xs) := by
  refine ⟨fun j readable v => ParameterValue.scalarOfJson_integral_eq_some_iff integral readable,
    fun n above below => ⟨ParameterValue.asInt64_integer_eq_ok_iff,
      ParameterValue.asUInt64_integer_eq_ok_iff integral above below,
      ParameterValue.asDouble_integer_eq_ok_iff⟩, ?_⟩
  intro spec name items typed array readable
  subst typed
  exact ParameterValue.ofJson_integral_array array integral readable

/-- Unsigned 64-bit parameters, the widest integer type, convert exactly. -/
theorem uint64_parameters_convert_exactly :
    ElementType.uint64.isReal = false ∧
    (∀ j : Json, j.NumberReadable → ∀ v,
      ParameterValue.scalarOfJson .uint64 j = some v ↔
        ∃ n, j.integer? = some n ∧ ElementType.uint64.intMin ≤ n ∧
          n ≤ ElementType.uint64.intMax ∧ v = .integer .uint64 n) ∧
    (∀ n, ElementType.uint64.intMin ≤ n → n ≤ ElementType.uint64.intMax →
      ((ParameterValue.integer .uint64 n).asInt64 = .ok n ↔ n ≤ int64Max) ∧
      ((ParameterValue.integer .uint64 n).asUInt64 = .ok n.toNat ↔ 0 ≤ n) ∧
      ((ParameterValue.integer .uint64 n).asDouble = .ok (Binary64.ofInt n) ↔ n ≤ int64Max)) ∧
    (∀ (spec : ParameterSpec) (name : String) (items : List Json),
      spec.dataType = .uint64 → spec.isArray = true → (∀ item ∈ items, item.NumberReadable) →
      ((∃ v, ParameterValue.ofJson (.array items) spec name = .ok v) ↔
          ∀ item ∈ items, (ParameterValue.scalarOfJson .uint64 item).isSome) ∧
        ∀ v, ParameterValue.ofJson (.array items) spec name = .ok v → ∃ b xs, v = .array b ∧
          List.Forall₂ (fun item x => ∃ n, item.integer? = some n ∧ x = .integer n) items xs ∧
          b.count = items.length ∧ b.read .uint64 = .ok xs) :=
  ⟨rfl, integer_parameters_convert_exactly rfl⟩

/-- An unsigned 64-bit parameter of `2^63` is read from JSON and holds it, yet has no double:
the conversion to a double goes through the signed 64-bit reading, which it exceeds. -/
theorem uint64_past_int64_has_no_double :
    ParameterValue.scalarOfJson .uint64 (Json.nat (pow2 63)) =
        some (.integer .uint64 (pow2 63)) ∧
      ∃ e, (ParameterValue.integer .uint64 (pow2 63)).asDouble = .error e :=
  ⟨by decide, _, rfl⟩
end RegionNet
