import EbmlReport.Bytes

/-!
# Hexadecimal text

Byte strings and element IDs are shown in base sixteen: bytes as two lower-case
digits each, IDs as a numeral with upper-case digits after `0x`.

**Results.**
* `Hex.length_encode`: two digits for each byte.
-/

namespace EbmlReport

namespace Hex

/-- The digit of a number below sixteen, lower case. -/
def digit (n : Nat) : Char :=
  if n < 10 then Char.ofNat (48 + n) else Char.ofNat (87 + n)

/-- Two digits for each byte. -/
def encode (bytes : Bytes) : List Char :=
  bytes.flatMap fun byte => [digit (byte.toNat / 16), digit (byte.toNat % 16)]

@[simp] theorem length_encode (bytes : Bytes) : (encode bytes).length = 2 * bytes.length := by
  induction bytes with
  | nil => rfl
  | cons byte rest ih =>
      simp only [encode, List.flatMap_cons, List.length_append, List.length_cons,
        List.length_nil] at ih ⊢
      omega

/-- The text of a byte string. -/
def text (bytes : Bytes) : String :=
  String.ofList (encode bytes)

/-- The shortest numeral of `n`, lower case. -/
def numeral (n : Nat) : String :=
  String.ofList (Nat.toDigits 16 n)

/-- An element ID as a numeral: `0x` and upper-case digits. -/
def idText (id : Nat) : String :=
  "0x" ++ String.ofList ((Nat.toDigits 16 id).map Char.toUpper)

end Hex

end EbmlReport
