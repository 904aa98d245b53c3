import EbmlReport.Number.Binary64

/-!
# Numbers with a fixed count of decimal places

`Binary64.fixed` prints the exact value of a double rounded to a given count of
places.  A value halfway between two neighbours goes to the even one, and the sign
is kept even where all digits are zero.

**Results.**
* `roundHalfEven_exact`: a whole quotient is its own rounding.
-/

namespace EbmlReport

/-- The whole number nearest to `num / den`; a tie goes to the even neighbour. -/
def roundHalfEven (num den : Nat) : Nat :=
  let quotient := num / den
  let twice := 2 * (num % den)
  if twice < den then quotient
  else if den < twice then quotient + 1
  else quotient + quotient % 2

theorem roundHalfEven_exact (n : Nat) {den : Nat} (h : 0 < den) :
    roundHalfEven (n * den) den = n := by
  simp [roundHalfEven, Nat.mul_div_cancel n h, h]

/-- `text` with zeros in front up to the given width. -/
def padZeros (width : Nat) (text : String) : String :=
  String.ofList (List.replicate (width - text.length) '0') ++ text

/-- The decimal text of `n / 10 ^ places`. -/
def pointText (places n : Nat) : String :=
  if places = 0 then toString n
  else toString (n / 10 ^ places) ++ "." ++ padZeros places (toString (n % 10 ^ places))

/-- The sign in front of a printed number. -/
def signText (negative : Bool) : String :=
  if negative then "-" else ""

/-- The whole number nearest to `mantissa * 2 ^ exponent * 10 ^ places`. -/
def scaledMantissa (places mantissa : Nat) : Int → Nat
  | .ofNat exponent => mantissa * 2 ^ exponent * 10 ^ places
  | .negSucc exponent => roundHalfEven (mantissa * 10 ^ places) (2 ^ (exponent + 1))

/-- The value with exactly `places` digits after the point. -/
def Binary64.fixed (places : Nat) (x : Binary64) : String :=
  match x.read with
  | .nan => "NaN"
  | .infinite negative => signText negative ++ "inf"
  | .finite negative mantissa exponent =>
      signText negative ++ pointText places (scaledMantissa places mantissa exponent)

end EbmlReport
