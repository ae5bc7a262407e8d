import RegionNet.Ieee

namespace RegionNet.Decimal

/-!
# Shortest decimal digits of a binary value

A finite non-zero binary value `m · 2^q` is read back from any decimal in its rounding interval:
the reals that round to it, with both ends included exactly when `m` is even. The shortest
decimal of the value is found grid by grid: for `n = 1, 2, …` digits, the decimal grid at that
precision has two points next to the value, and the first grid with a point inside the interval
wins. Of two points inside, the nearer is taken, and an exact tie goes to the even last digit.
All comparisons are exact rational arithmetic on naturals.
-/

/-- A decimal `digits · 10 ^ exponent` with no trailing zero in `digits` (and `digits > 0`). -/
structure Scientific where
  digits : Nat
  exponent : Int
  deriving DecidableEq, Repr

/-- Positions of a rational `num / den` against a scaled grid: `10^k` as a rational. -/
def gridStep (k : Int) : Nat × Nat :=
  if k ≥ 0 then (pow10 k.toNat, 1) else (1, pow10 (-k).toNat)

/-- The number of decimal digits of a positive natural. -/
def digitCount (n : Nat) : Nat := (toString n).length

/-- Strip trailing decimal zeros, raising the exponent. -/
def normalize (digits : Nat) (exponent : Int) (fuel : Nat) : Scientific :=
  match fuel with
  | 0 => ⟨digits, exponent⟩
  | fuel + 1 =>
    if digits ≠ 0 && digits % 10 = 0 then normalize (digits / 10) (exponent + 1) fuel
    else ⟨digits, exponent⟩

/-- The rounding interval of `m · 2^q` in a format whose smallest normal significand is
`2^fraction`: the lower and upper ends as rationals over a common denominator, scaled by 2 so
that the half-gaps are integers. Returns `(low, value, high, den)` with all three numerators
over `den`. -/
def interval (fraction : Nat) (minScale : Int) (m : Nat) (q : Int) : Nat × Nat × Nat × Nat :=
  -- the gap below is half as wide at the bottom of a binade (except the lowest one)
  let lowerHalf := if m = pow2 fraction ∧ q > minScale then 1 else 2
  -- numerators over 2^(2 - q) when q < 2, otherwise scaled up
  let v := 4 * m
  let low := v - lowerHalf
  let high := v + 2
  if q ≥ 2 then (low * pow2 (q - 2).toNat, v * pow2 (q - 2).toNat, high * pow2 (q - 2).toNat, 1)
  else (low, v, high, pow2 (2 - q).toNat)

/-- Whether the rational `a / b` lies in `[lo/den, hi/den]` (ends included when `closed`). -/
def within (a b lo hi den : Nat) (closed : Bool) : Bool :=
  if closed then lo * b ≤ a * den && a * den ≤ hi * b
  else lo * b < a * den && a * den < hi * b

/-- The shortest decimal that reads back as `m · 2^q`, for a format with `fraction` stored
significand bits and least exponent `minScale`. The search tries at most `limit` digits. -/
def shortest (fraction : Nat) (minScale : Int) (m : Nat) (q : Int) (limit : Nat := 17) : Scientific :=
  let (lo, v, hi, den) := interval fraction minScale m q
  let closed := m % 2 = 0
  -- decimal exponent of the leading digit: 10^e ≤ value < 10^(e+1)
  let e10 : Int :=
    let approx : Int := Int.ofNat (digitCount (v / den)) - 1
    if v / den = 0 then
      -- value below one: count leading zeros of the fraction
      let rec below (k : Nat) (fuel : Nat) : Int :=
        match fuel with
        | 0 => -(k : Int)
        | fuel + 1 => if v * pow10 k ≥ den then -(k : Int) else below (k + 1) fuel
      below 1 400
    else approx
  let rec search (n : Nat) (fuel : Nat) : Scientific :=
    match fuel with
    | 0 => ⟨0, 0⟩
    | fuel + 1 =>
      let k : Int := e10 - n + 1
      let (sn, sd) := gridStep k
      -- value / 10^k = v·sd / (den·sn)
      let num := v * sd
      let dd := den * sn
      let below := num / dd
      let above := below + 1
      let lowOk := below > 0 && within (below * sn) sd lo hi den closed
      let highOk := within (above * sn) sd lo hi den closed
      if lowOk || highOk then
        let pick :=
          if lowOk && highOk then
            -- compare distances: value - below vs above - value, in units of 1/dd
            let dLow := num - below * dd
            let dHigh := above * dd - num
            if dLow < dHigh then below
            else if dHigh < dLow then above
            else if below % 2 = 0 then below else above
          else if lowOk then below else above
        normalize pick k 400
      else search (n + 1) fuel
  search 1 (limit + 2)

/-- The shortest digits of a finite non-zero double `m · 2^q`. -/
def shortest64 (m : Nat) (q : Int) : Scientific :=
  shortest binary64Format.fraction binary64Format.minScale m q

/-- The shortest digits of a finite non-zero single `m · 2^q`. -/
def shortest32 (m : Nat) (q : Int) : Scientific :=
  shortest binary32Format.fraction binary32Format.minScale m q 9

end RegionNet.Decimal
