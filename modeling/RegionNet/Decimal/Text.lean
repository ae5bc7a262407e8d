import RegionNet.Decimal.Shortest

namespace RegionNet.Decimal

/-!
# Writing floating-point values

The shortest digits of a value are written either positionally (`123.45`, `0.001`) or in
scientific form (`1.5e-7`). Which one, and the small choices around it, are the fields of a
`Layout`; four layouts are used by this library's outputs:

* `Layout.debug`, for values shown inside diagnostic texts: positional for `1e-4 ≤ |x| < 1e16`,
  integers keep a `.0`, exponents carry no `+`;
* `Layout.plain`, for values shown as plain numbers: always positional, integers without `.0`;
* `Layout.json`, for numbers inside JSON text: positional for `1e-5 ≤ |x| < 1e16`, integers keep
  a `.0`, positive exponents carry a `+`;
* `Layout.described`, for numbers named in messages about a value found: always positional,
  integers keep a `.0`.
-/

/-- The choices of one way of writing floating-point values. -/
structure Layout where
  /-- The least exponent of the leading digit that is written positionally. -/
  positionalFrom : Int
  /-- The first exponent of the leading digit written in scientific form; `none` for never. -/
  scientificFrom : Option Int
  /-- Whether an integral value written positionally ends in `.0`. -/
  pointZero : Bool
  /-- Whether a non-negative exponent is written with `+`. -/
  plusExponent : Bool
  deriving Repr

namespace Layout

/-- Diagnostic texts: positional for `1e-4 ≤ |x| < 1e16`, `1.0`, `1e16`, `1e-5`. -/
def debug : Layout := ⟨-4, some 16, true, false⟩

/-- Plain numbers: always positional, `1`, `1000000`, `0.0000001`. -/
def plain : Layout := ⟨0, none, false, false⟩

/-- Numbers in JSON text: positional for `1e-5 ≤ |x| < 1e16`, `1.0`, `1e+16`, `1e-6`. -/
def json : Layout := ⟨-5, some 16, true, true⟩

/-- Numbers named in messages about a value found: always positional, integers keep a `.0`:
`1.0`, `1000000.0`, `0.0000001`. -/
def described : Layout := ⟨0, none, true, false⟩

end Layout

/-- `n` zeros. -/
def zeros (n : Nat) : String := String.ofList (List.replicate n '0')

/-- Write a decimal `digits · 10^exponent` positionally. -/
def positional (pointZero : Bool) (s : Scientific) : String :=
  let text := toString s.digits
  let len := text.length
  if s.exponent ≥ 0 then
    text ++ zeros s.exponent.toNat ++ (if pointZero then ".0" else "")
  else
    let frac := (-s.exponent).toNat
    if frac < len then
      String.ofList (text.toList.take (len - frac)) ++ "." ++ String.ofList (text.toList.drop (len - frac))
    else "0." ++ zeros (frac - len) ++ text

/-- Write a decimal `digits · 10^exponent` in scientific form, `d.ddd` and an exponent. -/
def scientific (plusExponent : Bool) (s : Scientific) : String :=
  let text := toString s.digits
  let lead : Int := s.exponent + text.length - 1
  let mantissa :=
    match text.toList with
    | [] => "0"
    | [d] => String.singleton d
    | d :: rest => String.singleton d ++ "." ++ String.ofList rest
  let sign := if lead < 0 then "-" else if plusExponent then "+" else ""
  mantissa ++ "e" ++ sign ++ toString lead.natAbs

/-- Write a finite non-zero decimal under a layout. -/
def writeScientific (layout : Layout) (s : Scientific) : String :=
  let lead : Int := s.exponent + (toString s.digits).length - 1
  let isScientific : Bool :=
    match layout.scientificFrom with
    | some limit => decide (lead < layout.positionalFrom) || decide (lead ≥ limit)
    | none => false
  if isScientific then scientific layout.plusExponent s else positional layout.pointZero s

/-- Write a classified value under a layout: NaN, infinities, signed zeros and finite values
with their shortest digits from `digitsOf`. -/
def writeClass (layout : Layout) (digitsOf : Nat → Int → Scientific) : FloatClass → String
  | .nan => "NaN"
  | .infinite neg => if neg then "-inf" else "inf"
  | .zero neg => (if neg then "-0" else "0") ++ (if layout.pointZero then ".0" else "")
  | .finite neg m e => (if neg then "-" else "") ++ writeScientific layout (digitsOf m e)

/-- Write a double under a layout. -/
def write64 (layout : Layout) (x : Binary64) : String :=
  writeClass layout shortest64 x.classify

/-- Write a single under a layout. -/
def write32 (layout : Layout) (x : Binary32) : String :=
  writeClass layout shortest32 x.classify

end RegionNet.Decimal
