import EbmlReport.Number.FixedPlaces

/-!
# The shortest decimal that reads back

Many decimals round to the same double.  `Binary64.shortest` finds one with the
fewest digits, and of those the nearest to the double's exact value; of two that
are equally near it takes the greater.

The reals that round to `mantissa * 2 ^ exponent` form an interval around it, half
a step wide on each side and closed exactly when the mantissa is even.  Below a
power of two the step is half as wide.  A decimal grid has a point in the interval
just when one of the two grid neighbours of the value lies in it, so for one digit,
two digits, and so on only these two are tried.
-/

namespace EbmlReport

/-- Count of decimal digits of `n`, none for zero. -/
def decimalLength (n : Nat) : Nat :=
  if n = 0 then 0 else (Nat.toDigits 10 n).length

/-- The power of ten of the leading digit of `num / den`, for a positive quotient. -/
def leadingPower (num den : Nat) : Int :=
  if den ≤ num then (decimalLength (num / den) : Int) - 1
  else -(decimalLength ((den + num - 1) / num - 1) : Int)

/-- A decimal `digits * 10 ^ power`. -/
structure Decimal where
  digits : Nat
  power : Int
deriving DecidableEq, Repr

namespace Decimal

/-- The same value without zeros at the end of the digits. -/
def strip : (fuel : Nat) → Decimal → Decimal
  | 0, d => d
  | fuel + 1, d =>
      if d.digits ≠ 0 ∧ d.digits % 10 = 0 then strip fuel ⟨d.digits / 10, d.power + 1⟩ else d

/-- The value times `den`, over the grid's own denominator: the two sides of a
comparison of `digits * 10 ^ power` with a fraction over `den`. -/
def cross (d : Decimal) (num den : Nat) : Nat × Nat :=
  (d.digits * 10 ^ d.power.toNat * den, num * 10 ^ (-d.power).toNat)

end Decimal

/-- The reals that round to a double, as fractions over one denominator. -/
structure RoundingInterval where
  low : Nat
  value : Nat
  high : Nat
  den : Nat
  /-- Whether the ends belong to it. -/
  closed : Bool

namespace RoundingInterval

/-- The interval of the double `mantissa * 2 ^ exponent`, in quarter steps. -/
def ofDouble (mantissa : Nat) (exponent : Int) : RoundingInterval :=
  let below := if mantissa = 2 ^ 52 ∧ -1074 < exponent then 1 else 2
  let scale := 2 ^ (exponent - 2).toNat
  { low := (4 * mantissa - below) * scale
    value := 4 * mantissa * scale
    high := (4 * mantissa + 2) * scale
    den := 2 ^ (2 - exponent).toNat
    closed := mantissa % 2 == 0 }

/-- Whether a decimal lies in the interval. -/
def contains (i : RoundingInterval) (d : Decimal) : Bool :=
  let low := d.cross i.low i.den
  let high := d.cross i.high i.den
  if i.closed then low.2 ≤ low.1 && high.1 ≤ high.2 else low.2 < low.1 && high.1 < high.2

/-- The neighbour of the value on the grid of `10 ^ power` that the interval
contains, the nearer if it contains both. -/
def gridPoint? (i : RoundingInterval) (power : Int) : Option Decimal :=
  let floor := i.value * 10 ^ (-power).toNat / (i.den * 10 ^ power.toNat)
  let lower : Decimal := ⟨floor, power⟩
  let upper : Decimal := ⟨floor + 1, power⟩
  match i.contains lower, i.contains upper with
  | true, false => some lower
  | false, true => some upper
  | false, false => none
  | true, true =>
      let down := lower.cross i.value i.den
      let up := upper.cross i.value i.den
      if down.2 - down.1 < up.1 - up.2 then some lower else some upper

/-- The grid point with the fewest digits, tried from one digit up to seventeen,
which always suffice. -/
def fewestDigits? (i : RoundingInterval) : Option Decimal :=
  let leading := leadingPower i.value i.den
  (List.range 17).findSome? fun (extra : Nat) => i.gridPoint? (leading - extra)

end RoundingInterval

/-- The shortest decimal that reads back as `mantissa * 2 ^ exponent`. -/
def shortestDecimal (mantissa : Nat) (exponent : Int) : Decimal :=
  if mantissa = 0 then ⟨0, 0⟩
  else
    match (RoundingInterval.ofDouble mantissa exponent).fewestDigits? with
    | some d => d.strip 17
    | none => ⟨mantissa, 0⟩

/-- The decimal in positional notation, with at least one digit after the point. -/
def Decimal.positional (d : Decimal) : String :=
  match d.power with
  | .ofNat power => toString (d.digits * 10 ^ power) ++ ".0"
  | .negSucc power => pointText (power + 1) d.digits

/-- The decimal with one digit before the point and a power of ten after `e`. -/
def Decimal.scientific (d : Decimal) : String :=
  let digits := (toString d.digits).toList
  let fraction := digits.drop 1
  let tail := if fraction.isEmpty then "" else "." ++ String.ofList fraction
  String.ofList (digits.take 1) ++ tail ++ "e" ++ toString (d.power + fraction.length)

/-- The shortest text of a double: positional from `0.0001` up to sixteen digits
before the point, scientific outside this range. -/
def Binary64.shortest (x : Binary64) : String :=
  match x.read with
  | .nan => "NaN"
  | .infinite negative => signText negative ++ "inf"
  | .finite negative mantissa exponent =>
      let d := shortestDecimal mantissa exponent
      let leading := d.power + (decimalLength d.digits : Int) - 1
      signText negative ++
        if d.digits = 0 ∨ (-4 ≤ leading ∧ leading ≤ 15) then d.positional else d.scientific

end EbmlReport
