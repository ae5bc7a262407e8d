import RegionNet.Word

namespace RegionNet

/-!
# IEEE 754 binary values

Floating-point values are kept as their bit patterns, so that equality is exact and a value
survives every copy unchanged. `Binary64` and `Binary32` are the two interchange formats. Both are
read through one description, `Format`, which gives the widths of the fields; rounding a
non-negative rational to a format is exact integer arithmetic, with ties to the even significand.
-/

/-- The field widths of a binary interchange format. -/
structure Format where
  /-- Bits of the stored significand (without the hidden bit). -/
  fraction : Nat
  /-- Bits of the biased exponent. -/
  exponent : Nat
  deriving Repr

namespace Format

/-- The exponent bias. -/
def bias (f : Format) : Nat := pow2 (f.exponent - 1) - 1

/-- The all-ones biased exponent, used by infinities and NaNs. -/
def maxField (f : Format) : Nat := pow2 f.exponent - 1

/-- The exponent of the least significant bit of a subnormal: `1 - bias - fraction`. -/
def minScale (f : Format) : Int := 1 - (f.bias : Int) - f.fraction

/-- The bit pattern of an infinity. -/
def infinityBits (f : Format) (negative : Bool) : Nat :=
  (if negative then pow2 (f.fraction + f.exponent) else 0) + f.maxField * pow2 f.fraction

/-- `num / den` scaled by `2 ^ -scale`, as quotient and a flag for how the remainder compares
with half a unit: `.lt`, `.eq` or `.gt`. -/
def scaled (num den : Nat) (scale : Int) : Nat × Ordering :=
  let (n, d) := if scale ≥ 0 then (num, den * pow2 scale.toNat) else (num * pow2 (-scale).toNat, den)
  (n / d, compare (2 * (n % d)) d)

/-- Round a quotient with its remainder flag to the nearest integer, ties to even. -/
def roundHalfEven (q : Nat) (half : Ordering) : Nat :=
  match half with
  | .lt => q
  | .gt => q + 1
  | .eq => if q % 2 = 0 then q else q + 1

/-- The bit pattern nearest to `num / den` (with the sign bit when `negative`); `den` must be
positive. Values beyond the largest finite number become infinities, tiny ones subnormals or
zero. -/
def round (f : Format) (negative : Bool) (num den : Nat) : Nat :=
  let sign := if negative then pow2 (f.fraction + f.exponent) else 0
  if num = 0 then sign
  else
    -- first guess of the scale that puts the quotient in [2^fraction, 2^(fraction+1))
    let guess : Int := (num.log2 : Int) - den.log2 - f.fraction
    let scale0 := max guess f.minScale
    let (q0, _) := scaled num den scale0
    let scale1 :=
      if q0 ≥ pow2 (f.fraction + 1) then scale0 + 1
      else if q0 < pow2 f.fraction && scale0 > f.minScale then scale0 - 1
      else scale0
    let (q1, _) := scaled num den scale1
    let scale :=
      if q1 ≥ pow2 (f.fraction + 1) then scale1 + 1
      else if q1 < pow2 f.fraction && scale1 > f.minScale then scale1 - 1
      else scale1
    let (q, half) := scaled num den scale
    let r := roundHalfEven q half
    -- rounding up may carry into the next binade
    let (r, scale) := if r = pow2 (f.fraction + 1) then (pow2 f.fraction, scale + 1) else (r, scale)
    if r < pow2 f.fraction then
      -- subnormal (scale is the minimum): the field holds the significand directly
      sign + r
    else
      let biased := scale - f.minScale + 1
      if biased ≥ f.maxField then infinityBits f negative
      else sign + biased.toNat * pow2 f.fraction + (r - pow2 f.fraction)

/-- The parts of a bit pattern: sign, biased exponent field and fraction field. -/
def fields (f : Format) (bits : Nat) : Bool × Nat × Nat :=
  (bits / pow2 (f.fraction + f.exponent) % 2 = 1,
   bits / pow2 f.fraction % pow2 f.exponent,
   bits % pow2 f.fraction)

/-- A finite non-zero value as `significand · pow2 exponent`, with the sign; `none` for zero,
infinities and NaNs. -/
def decode (f : Format) (bits : Nat) : Option (Bool × Nat × Int) :=
  let (neg, e, m) := f.fields bits
  if e = f.maxField then none
  else if e = 0 then
    if m = 0 then none else some (neg, m, f.minScale)
  else some (neg, m + pow2 f.fraction, (e : Int) - 1 + f.minScale)

end Format

/-- The binary64 ("double") format. -/
def binary64Format : Format := ⟨52, 11⟩

/-- The binary32 ("single") format. -/
def binary32Format : Format := ⟨23, 8⟩

/-- A double-precision value, kept as its bit pattern. -/
structure Binary64 where
  bits : UInt64
  deriving DecidableEq, Repr, Inhabited

/-- A single-precision value, kept as its bit pattern. -/
structure Binary32 where
  bits : UInt32
  deriving DecidableEq, Repr, Inhabited

/-- The class of a floating-point value, as far as printing cares. -/
inductive FloatClass where
  /-- Not a number. -/
  | nan
  /-- An infinity, negative when the flag is set. -/
  | infinite (negative : Bool)
  /-- A zero, negative when the flag is set. -/
  | zero (negative : Bool)
  /-- A finite non-zero value `significand · pow2 exponent`. -/
  | finite (negative : Bool) (significand : Nat) (exponent : Int)
  deriving DecidableEq, Repr

/-- Classify a bit pattern of a format. -/
def Format.classify (f : Format) (bits : Nat) : FloatClass :=
  let (neg, e, m) := f.fields bits
  if e = f.maxField then (if m = 0 then .infinite neg else .nan)
  else match f.decode bits with
    | some (n, m, x) => .finite n m x
    | none => .zero neg

namespace Binary64

/-- The value nearest to `num / den`, negated when `negative`. -/
def ofRatio (negative : Bool) (num den : Nat) : Binary64 :=
  ⟨(binary64Format.round negative num den).toUInt64⟩

/-- The value nearest to a natural number. -/
def ofNat (n : Nat) : Binary64 := ofRatio false n 1

/-- The value nearest to an integer. -/
def ofInt (n : Int) : Binary64 := ofRatio (n < 0) n.natAbs 1

/-- Positive zero. -/
def zero : Binary64 := ⟨0⟩

/-- The class of the value. -/
def classify (x : Binary64) : FloatClass := binary64Format.classify x.bits.toNat

/-- The value as a hardware float, for arithmetic. -/
def toFloat (x : Binary64) : Float := Float.ofBits x.bits

/-- The bit pattern of a hardware float. -/
def ofFloat (f : Float) : Binary64 := ⟨f.toBits⟩

/-- The exact value as sign, numerator and denominator (finite values only). -/
def toRatio (x : Binary64) : Option (Bool × Nat × Nat) :=
  match x.classify with
  | .zero neg => some (neg, 0, 1)
  | .finite neg m e =>
      if e ≥ 0 then some (neg, m * pow2 e.toNat, 1) else some (neg, m, pow2 (-e).toNat)
  | _ => none

/-- Whether the value is finite. -/
def isFinite (x : Binary64) : Bool := x.toRatio.isSome

/-- The same value with its sign flipped. -/
def negate (x : Binary64) : Binary64 := ⟨x.bits ^^^ 0x8000000000000000⟩

/-- Whether the value is not a number: all exponent bits set and a non-zero fraction. -/
def isNaN (x : Binary64) : Bool :=
  (x.bits >>> 52) &&& 0x7FF == 0x7FF && x.bits &&& 0xFFFFFFFFFFFFF != 0

/-- The quiet form of a value that is not a number: the top fraction bit set. -/
def quiet (x : Binary64) : Binary64 := ⟨x.bits ||| 0x8000000000000⟩

/-- The value an invalid operation on numbers gives on x86-64: a negative quiet NaN. -/
def defaultNaN : Binary64 := ⟨0xFFF8000000000000⟩

/-- An arithmetic operation as x86-64 performs it. A NaN operand is passed on, quieted, the
first one first; an invalid operation on numbers (such as `0 · ∞` or `∞ - ∞`) gives
`defaultNaN`; any other result is the correctly rounded one. -/
def arith (op : Float → Float → Float) (a b : Binary64) : Binary64 :=
  if a.isNaN then a.quiet
  else if b.isNaN then b.quiet
  else
    let r := ofFloat (op a.toFloat b.toFloat)
    if r.isNaN then defaultNaN else r

/-- Addition as x86-64 performs it. -/
def add (a b : Binary64) : Binary64 := arith (· + ·) a b

/-- Multiplication as x86-64 performs it. -/
def mul (a b : Binary64) : Binary64 := arith (· * ·) a b

instance : Add Binary64 := ⟨add⟩

instance : Mul Binary64 := ⟨mul⟩

/-- A NaN first operand is what a sum gives, quieted. -/
theorem add_nan_left (a b : Binary64) (h : a.isNaN = true) : a + b = a.quiet := by
  show arith _ a b = _
  simp [arith, h]

end Binary64

namespace Binary32

/-- The value nearest to `num / den`, negated when `negative`. -/
def ofRatio (negative : Bool) (num den : Nat) : Binary32 :=
  ⟨(binary32Format.round negative num den).toUInt32⟩

/-- The class of the value. -/
def classify (x : Binary32) : FloatClass := binary32Format.classify x.bits.toNat

/-- The exact value as sign, numerator and denominator (finite values only). -/
def toRatio (x : Binary32) : Option (Bool × Nat × Nat) :=
  match x.classify with
  | .zero neg => some (neg, 0, 1)
  | .finite neg m e =>
      if e ≥ 0 then some (neg, m * pow2 e.toNat, 1) else some (neg, m, pow2 (-e).toNat)
  | _ => none

/-- The double with the same value; every single is exactly a double. -/
def toBinary64 (x : Binary32) : Binary64 :=
  match x.classify with
  | .nan => ⟨(0x7ff8000000000000 : UInt64) ||| ((x.bits.toUInt64 &&& 0x7fffff) <<< 29) |||
      (if x.bits &&& 0x80000000 != 0 then (0x8000000000000000 : UInt64) else 0)⟩
  | .infinite neg => ⟨if neg then 0xfff0000000000000 else 0x7ff0000000000000⟩
  | _ => match x.toRatio with
    | some (neg, n, d) => Binary64.ofRatio neg n d
    | none => Binary64.zero

end Binary32

namespace Binary64

/-- The nearest single to a double, as a narrowing conversion rounds; NaNs stay NaNs. -/
def toBinary32 (x : Binary64) : Binary32 :=
  match x.classify with
  | .nan => ⟨(0x7fc00000 : UInt32) ||| ((x.bits >>> 29).toUInt32 &&& 0x7fffff) |||
      (if x.bits &&& 0x8000000000000000 != 0 then (0x80000000 : UInt32) else 0)⟩
  | .infinite neg => ⟨if neg then 0xff800000 else 0x7f800000⟩
  | _ => match x.toRatio with
    | some (neg, n, d) => Binary32.ofRatio neg n d
    | none => ⟨0⟩

end Binary64

end RegionNet
