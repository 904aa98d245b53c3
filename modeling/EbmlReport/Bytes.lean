/-!
# Bytes and the integers they spell

A file is read as a list of bytes, and every number in it is stored with the most
significant byte first.  This module gives the two readings of a byte list as a
number, and the writings that they undo.

* `Bytes.unsigned`: the base-256 numeral, `0` for no bytes;
* `Bytes.signed`: the two's complement reading of the same bytes;
* `Bytes.ofNat`, `Bytes.ofInt`: a number in a given count of bytes, high digits dropped.

**Results.**
* `Bytes.unsigned_append`: reading a concatenation is positional.
* `Bytes.unsigned_lt`: `n` bytes spell a number below `256 ^ n`.
* `Bytes.length_ofNat`, `Bytes.unsigned_ofNat`: writing fills its width, and
  reading it back gives the number modulo `256 ^ width`.
* `Bytes.ofNat_unsigned`: writing what bytes spell gives them back.
* `Bytes.signed_ofInt`: a signed number that fits its width is read back.
-/

namespace EbmlReport

-- A power is that of the core library, also where algebra offers another one.
attribute [instance (high)] instPowNat
attribute [default_instance 20000] instPowNat

/-- A sequence of bytes, in file order. -/
abbrev Bytes := List UInt8

namespace Bytes

/-- The big-endian numeral spelled by the bytes. -/
def unsigned (bytes : Bytes) : Nat :=
  bytes.foldl (fun acc byte => 256 * acc + byte.toNat) 0

/-- The two's complement number spelled by the bytes: the numeral, less
`256 ^ length` when the first bit is set. -/
def signed (bytes : Bytes) : Int :=
  match bytes with
  | [] => 0
  | first :: _ =>
      if first.toNat < 128 then bytes.unsigned
      else (bytes.unsigned : Int) - 256 ^ bytes.length

/-- The last `width` base-256 digits of `n`, most significant first. -/
def ofNat : (width : Nat) → (n : Nat) → Bytes
  | 0, _ => []
  | width + 1, n => ofNat width (n / 256) ++ [UInt8.ofNat (n % 256)]

/-- The two's complement of `n` in `width` bytes. -/
def ofInt (width : Nat) (n : Int) : Bytes :=
  ofNat width (n % (256 ^ width : Nat)).toNat

theorem foldl_unsigned (bytes : Bytes) (acc : Nat) :
    bytes.foldl (fun acc byte => 256 * acc + byte.toNat) acc =
      256 ^ bytes.length * acc + bytes.unsigned := by
  induction bytes generalizing acc with
  | nil => simp [unsigned]
  | cons byte rest ih =>
      simp only [List.foldl_cons, List.length_cons, unsigned]
      rw [ih, ih (256 * 0 + byte.toNat), Nat.pow_succ]
      simp only [Nat.mul_zero, Nat.zero_add, Nat.mul_add, Nat.mul_assoc, Nat.add_assoc]

@[simp] theorem unsigned_nil : unsigned [] = 0 := rfl

theorem unsigned_append (front back : Bytes) :
    unsigned (front ++ back) = 256 ^ back.length * front.unsigned + back.unsigned := by
  unfold unsigned
  rw [List.foldl_append, foldl_unsigned]
  rfl

theorem unsigned_cons (byte : UInt8) (rest : Bytes) :
    unsigned (byte :: rest) = 256 ^ rest.length * byte.toNat + unsigned rest := by
  have h := unsigned_append [byte] rest
  simpa [unsigned] using h

theorem unsigned_lt (bytes : Bytes) : bytes.unsigned < 256 ^ bytes.length := by
  induction bytes with
  | nil => simp
  | cons byte rest ih =>
      rw [unsigned_cons, List.length_cons, Nat.pow_succ]
      have hb : byte.toNat + 1 ≤ 256 := byte.toNat_lt
      calc 256 ^ rest.length * byte.toNat + unsigned rest
          < 256 ^ rest.length * byte.toNat + 256 ^ rest.length := Nat.add_lt_add_left ih _
        _ = 256 ^ rest.length * (byte.toNat + 1) := by rw [Nat.mul_add, Nat.mul_one]
        _ ≤ 256 ^ rest.length * 256 := Nat.mul_le_mul_left _ hb

@[simp] theorem length_ofNat (width n : Nat) : (ofNat width n).length = width := by
  induction width generalizing n with
  | zero => rfl
  | succ width ih => simp [ofNat, ih]

theorem unsigned_ofNat (width n : Nat) : (ofNat width n).unsigned = n % 256 ^ width := by
  induction width generalizing n with
  | zero => simp [ofNat, Nat.mod_one]
  | succ width ih =>
      have hlast : (unsigned [UInt8.ofNat (n % 256)]) = n % 256 := by
        simp [unsigned, UInt8.toNat_ofNat']
      rw [ofNat, unsigned_append, ih, hlast, Nat.pow_succ, Nat.mul_comm (256 ^ width) 256,
        Nat.mod_mul]
      simp [Nat.add_comm]

/-- Bytes are the numeral that they spell, written in as many bytes. -/
theorem ofNat_unsigned (bytes : Bytes) : ofNat bytes.length bytes.unsigned = bytes := by
  -- Digits are written from the last one on.
  induction hlength : bytes.length generalizing bytes with
  | zero =>
      rw [List.length_eq_zero_iff.mp hlength]
      rfl
  | succ width ih =>
      have hne : bytes ≠ [] := List.ne_nil_of_length_eq_add_one hlength
      have hfront : ofNat width (unsigned bytes.dropLast) = bytes.dropLast :=
        ih _ (by rw [List.length_dropLast, hlength, Nat.add_sub_cancel])
      have hbyte : (bytes.getLast hne).toNat < 256 := UInt8.toNat_lt _
      have hvalue : unsigned bytes =
          256 * unsigned bytes.dropLast + (bytes.getLast hne).toNat := by
        have happend := unsigned_append bytes.dropLast [bytes.getLast hne]
        rw [List.dropLast_concat_getLast] at happend
        simpa [unsigned] using happend
      have hhigh : unsigned bytes / 256 = unsigned bytes.dropLast := by omega
      have hlow : unsigned bytes % 256 = (bytes.getLast hne).toNat := by omega
      rw [ofNat, hhigh, hlow, hfront, UInt8.ofNat_toNat, List.dropLast_concat_getLast]

/-- The first of the bytes of a number holds its highest digit. -/
theorem ofNat_succ_eq_cons (width n : Nat) :
    ofNat (width + 1) n = UInt8.ofNat (n / 256 ^ width % 256) :: ofNat width n := by
  induction width generalizing n with
  | zero => simp [ofNat]
  | succ width ih =>
      rw [ofNat, ih, ofNat, List.cons_append, Nat.div_div_eq_div_mul, Nat.pow_succ,
        Nat.mul_comm (256 ^ width) 256]

@[simp] theorem length_ofInt (width : Nat) (n : Int) : (ofInt width n).length = width :=
  length_ofNat ..

/-- The sign of a number is in its first bit, so the upper half of a range is negative. -/
theorem signed_ofNat {width n : Nat} (h : n < 256 ^ width) :
    (ofNat width n).signed = if 2 * n < 256 ^ width then (n : Int) else n - (256 ^ width : Nat) := by
  cases width with
  | zero =>
      have hzero : n = 0 := by omega
      subst hzero
      rfl
  | succ width =>
      rw [Nat.pow_succ] at h
      have hdigit : n / 256 ^ width < 256 := Nat.div_lt_of_lt_mul h
      have hfirst : (UInt8.ofNat (n / 256 ^ width % 256)).toNat = n / 256 ^ width := by
        rw [Nat.mod_eq_of_lt hdigit]
        exact UInt8.toNat_ofNat_of_lt' hdigit
      have hsign : n / 256 ^ width < 128 ↔ 2 * n < 256 ^ width * 256 := by
        rw [Nat.div_lt_iff_lt_mul (Nat.pow_pos (by decide))]
        omega
      rw [ofNat_succ_eq_cons, signed, hfirst, ← ofNat_succ_eq_cons, unsigned_ofNat, length_ofNat,
        Nat.pow_succ, Nat.mod_eq_of_lt h]
      simp only [hsign, Int.pow_succ, Int.natCast_mul, Int.natCast_pow]
      rfl

/-- A width holds the numbers down and up to half its range. -/
theorem signed_ofInt {width : Nat} {n : Int} (hlow : -(256 ^ width : Nat) ≤ 2 * n)
    (hhigh : 2 * n < (256 ^ width : Nat)) : (ofInt width n).signed = n := by
  rw [ofInt]
  by_cases hsign : 0 ≤ n
  · rw [Int.emod_eq_of_lt hsign (by omega), signed_ofNat (by omega), if_pos (by omega)]
    omega
  · rw [← Int.add_emod_right, Int.emod_eq_of_lt (by omega) (by omega), signed_ofNat (by omega),
      if_neg (by omega)]
    omega

end Bytes

end EbmlReport
