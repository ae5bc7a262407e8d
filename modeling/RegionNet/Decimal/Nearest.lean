import RegionNet.Ieee

namespace RegionNet.Decimal

/-!
# Reading decimals

A decimal `±digits · 10^exponent` is read as the double nearest to it, ties to the even
significand: the exact rational is handed to the rounding of `Binary64.ofRatio`. Decimals whose
size is far outside the format are settled before any large power is built: above `10^310`
everything is infinite, below `10^-343` everything rounds to zero.

`readFloat?` accepts the usual text of a floating-point number: an optional sign, then digits
with at most one point and at least one digit, then an optional exponent `e` or `E` with an
optional sign and at least one digit; or `inf`, `infinity` or `nan` in any case.
-/

/-- The infinity of a sign. -/
def infinity (negative : Bool) : Binary64 := ⟨(binary64Format.infinityBits negative).toUInt64⟩

/-- The quiet NaN with the sign bit as given. -/
def notANumber (negative : Bool) : Binary64 :=
  ⟨if negative then 0xFFF8000000000000 else 0x7FF8000000000000⟩

/-- The number of decimal digits of a natural (one for zero). -/
def decimalLength (n : Nat) : Nat := (Nat.toDigits 10 n).length

/-- The double nearest to `±digits · 10^exponent`. -/
def nearest (negative : Bool) (digits : Nat) (exponent : Int) : Binary64 :=
  if digits = 0 then Binary64.ofRatio negative 0 1
  else
    let magnitude := exponent + decimalLength digits
    if magnitude > 310 then infinity negative
    else if magnitude < -343 then Binary64.ofRatio negative 0 1
    else if exponent ≥ 0 then Binary64.ofRatio negative (digits * pow10 exponent.toNat) 1
    else Binary64.ofRatio negative digits (pow10 (-exponent).toNat)

/-- The value of a run of decimal digits. -/
def digitsValue (cs : List Char) : Nat :=
  cs.foldl (fun acc c => acc * 10 + (c.toNat - 48)) 0

/-- Split off a sign. -/
def signOf : List Char → Bool × List Char
  | '-' :: rest => (true, rest)
  | '+' :: rest => (false, rest)
  | cs => (false, cs)

/-- Read an exponent: an optional sign and at least one digit. -/
def readExponent? (cs : List Char) : Option Int :=
  let (negative, digits) := signOf cs
  if digits.isEmpty || !digits.all Char.isDigit then none
  else
    let n : Int := digitsValue digits
    some (if negative then -n else n)

/-- Read a decimal with at least one digit, at most one point, and an optional exponent. -/
def readUnsigned? (negative : Bool) (cs : List Char) : Option Binary64 :=
  let mantissa := cs.takeWhile fun c => c ≠ 'e' && c ≠ 'E'
  let rest := cs.dropWhile fun c => c ≠ 'e' && c ≠ 'E'
  let whole := mantissa.takeWhile Char.isDigit
  let afterWhole := mantissa.dropWhile Char.isDigit
  let (fraction, ok) : List Char × Bool :=
    match afterWhole with
    | [] => ([], true)
    | '.' :: tail => (tail, tail.all Char.isDigit)
    | _ => ([], false)
  if !ok || (whole.isEmpty && fraction.isEmpty) then none
  else
    let exponent? : Option Int :=
      match rest with
      | [] => some 0
      | _ :: e => readExponent? e
    exponent?.map fun e =>
      nearest negative (digitsValue (whole ++ fraction)) (e - fraction.length)

/-- Read the text of a floating-point number. -/
def readFloat? (s : String) : Option Binary64 :=
  let (negative, cs) := signOf s.toList
  let word := String.ofList (cs.map Char.toLower)
  if word = "inf" || word = "infinity" then some (infinity negative)
  else if word = "nan" then some (notANumber negative)
  else readUnsigned? negative cs

end RegionNet.Decimal
