import EbmlReport.Bytes

/-!
# Double-precision numbers as bit patterns

A float payload is kept as the 64 bits of the IEEE 754 double that it denotes.
Payloads of four bytes hold single-precision numbers; every one of them is a
double too, and `Binary64.ofSingle` finds it exactly.

`Binary64.read` splits a pattern into sign, whole mantissa and power of two, on
which all printing works.
-/

namespace EbmlReport

/-- A double-precision number, given by its bits. -/
structure Binary64 where
  bits : UInt64
deriving DecidableEq, Repr

namespace Binary64

/-- What a bit pattern denotes. -/
inductive Reading
  | nan
  | infinite (negative : Bool)
  /-- The number `± mantissa * 2 ^ exponent`. -/
  | finite (negative : Bool) (mantissa : Nat) (exponent : Int)
deriving DecidableEq, Repr

/-- Puts a pattern together from its three fields. -/
def ofFields (negative : Bool) (biased fraction : Nat) : Binary64 :=
  ⟨UInt64.ofNat ((if negative then 2 ^ 63 else 0) + biased * 2 ^ 52 + fraction)⟩

/-- The number that a pattern denotes. -/
def read (x : Binary64) : Reading :=
  let negative : Bool := 2 ^ 63 ≤ x.bits.toNat
  let biased : Nat := x.bits.toNat / 2 ^ 52 % 2 ^ 11
  let fraction : Nat := x.bits.toNat % 2 ^ 52
  if biased = 2047 then
    if fraction = 0 then .infinite negative else .nan
  else if biased = 0 then .finite negative fraction (-1074)
  else .finite negative (2 ^ 52 + fraction) ((biased : Int) - 1075)

/-- The double equal to the single-precision number with the given bits.  A
subnormal single is a normal double, so its leading bit becomes implicit. -/
def ofSingle (bits : Nat) : Binary64 :=
  let negative : Bool := 2 ^ 31 ≤ bits
  let biased : Nat := bits / 2 ^ 23 % 2 ^ 8
  let fraction : Nat := bits % 2 ^ 23
  if biased = 255 then ofFields negative 2047 (fraction * 2 ^ 29)
  else if biased = 0 then
    if fraction = 0 then ofFields negative 0 0
    else
      ofFields negative (fraction.log2 + 874)
        (fraction * 2 ^ (52 - fraction.log2) - 2 ^ 52)
  else ofFields negative (biased + 896) (fraction * 2 ^ 29)

/-- Positive zero. -/
def zero : Binary64 := ⟨0⟩

/-- The double nearest to `n`, for `n` below `2 ^ 64`. -/
def ofNat (n : Nat) : Binary64 :=
  ⟨(UInt64.ofNat n).toFloat.toBits⟩

/-- The rounded product. -/
protected def mul (x y : Binary64) : Binary64 :=
  ⟨(Float.ofBits x.bits * Float.ofBits y.bits).toBits⟩

/-- The rounded quotient. -/
protected def div (x y : Binary64) : Binary64 :=
  ⟨(Float.ofBits x.bits / Float.ofBits y.bits).toBits⟩

instance : Mul Binary64 := ⟨Binary64.mul⟩

instance : Div Binary64 := ⟨Binary64.div⟩

/-- The pattern denotes no number. -/
def isNaN (x : Binary64) : Bool :=
  x.read == .nan

end Binary64

end EbmlReport
