import EbmlReport.Value
import Mathlib.Data.Nat.Digits.Defs

/-!
# Payloads and what they spell

What is read from the payload of a number, a date or a text, said without the reading.

Numbers are held in words of 64 bits.  A word is filled by shifting bytes into its low end, and
for a signed number it begins as copies of the sign.  Up to eight bytes push no digit out, so
the word is the number.  The sign of a two's complement number may be repeated in front of it
any number of times, and so a number has an encoding in each width that holds it.

A text is spelled by its UTF-8 encoding, which has a zero byte for the zero character only.  So
zero bytes can stand behind it, and what they cut off is no text with a zero character.

**Results.**
* `Bytes.unsigned_eq_ofDigits`: bytes are digits to base 256.
* `Bytes.signed_widened`: a repeated sign does not change the number.
* `Bytes.toNat_shiftedInto`, `Bytes.toInt_shiftedInto`: numbers as words.
* `Value.decodeText_eq_ok_iff`: which bytes are read as a text.
* `Value.decode_payload`: the law for the kinds of numbers, dates and texts.
-/

namespace EbmlReport

namespace Bytes

variable {bytes front : Bytes}

/-- Bytes are the digits to base 256 of the number they spell, the highest first. -/
theorem unsigned_eq_ofDigits (bytes : Bytes) :
    bytes.unsigned = Nat.ofDigits 256 (bytes.reverse.map UInt8.toNat) := by
  induction bytes with
  | nil => rfl
  | cons byte rest ih =>
      rw [unsigned_cons, ih, List.reverse_cons, List.map_append, Nat.ofDigits_append,
        List.length_map, List.length_reverse, List.map_singleton, Nat.ofDigits_singleton,
        Nat.add_comm]

section Signs

/-- The first bit is set. -/
def Negative (bytes : Bytes) : Prop :=
  128 ≤ (bytes.headD 0).toNat

instance (bytes : Bytes) : Decidable bytes.Negative :=
  inferInstanceAs (Decidable (128 ≤ (bytes.headD 0).toNat))

/-- Eight copies of the first bit. -/
def signByte (bytes : Bytes) : UInt8 :=
  if bytes.Negative then 0xFF else 0

/-- A set first bit counts for its place with a minus sign instead of a plus sign. -/
theorem signed_eq (bytes : Bytes) :
    bytes.signed =
      if bytes.Negative then (bytes.unsigned : Int) - (256 ^ bytes.length : Nat)
      else bytes.unsigned := by
  cases bytes with
  | nil => rfl
  | cons first rest =>
      have hsign : Negative (first :: rest) ↔ ¬ first.toNat < 128 := by
        simp [Negative]
      have hpow : (256 : Int) ^ (first :: rest).length =
          (256 ^ (first :: rest).length : Nat) := by
        rw [Int.natCast_pow]
        rfl
      simp only [signed, hsign, ite_not, hpow]

/-- The first bit is set in the upper half of a range. -/
theorem negative_iff : bytes.Negative ↔ 256 ^ bytes.length ≤ 2 * bytes.unsigned := by
  cases bytes with
  | nil => simp [Negative]
  | cons first rest =>
      have hrest := unsigned_lt rest
      rw [Negative, List.headD_cons, List.length_cons, unsigned_cons, Nat.pow_succ]
      generalize 256 ^ rest.length = place at hrest ⊢
      constructor
      · intro hfirst
        have hdigit := Nat.mul_le_mul_left place hfirst
        omega
      · intro h
        by_contra hfirst
        have hdigit := Nat.mul_le_mul_left place (show first.toNat ≤ 127 by omega)
        omega

/-- A width holds as many numbers below zero as it holds from zero on. -/
theorem signed_bounds (bytes : Bytes) :
    -(256 ^ bytes.length : Nat) ≤ 2 * bytes.signed ∧
      2 * bytes.signed < (256 ^ bytes.length : Nat) := by
  have hlt := unsigned_lt bytes
  rw [signed_eq]
  split
  · rename_i hsign
    have hhalf := negative_iff.mp hsign
    omega
  · rename_i hsign
    have hhalf := mt negative_iff.mpr hsign
    omega

/-- What begins with the sign of a number has that sign. -/
theorem negative_signByte_cons (bytes rest : Bytes) :
    Negative (bytes.signByte :: rest) ↔ bytes.Negative := by
  rw [signByte]
  split
  · rename_i hsign
    simpa [Negative] using hsign
  · rename_i hsign
    simpa [Negative] using hsign

/-- A byte of copies of the sign adds nothing to a number. -/
theorem signed_cons_of_signByte
    {byte : UInt8}
    (hbyte : bytes.signByte = byte) :
    signed (byte :: bytes) = bytes.signed := by
  subst hbyte
  rw [signed_eq, signed_eq, unsigned_cons, List.length_cons, Nat.pow_succ]
  simp only [negative_signByte_cons]
  split
  · rename_i hsign
    have hones : bytes.signByte.toNat = 255 := by
      rw [signByte, if_pos hsign]
      rfl
    rw [hones]
    omega
  · rename_i hsign
    have hzero : bytes.signByte.toNat = 0 := by
      rw [signByte, if_neg hsign]
      rfl
    rw [hzero]
    omega

/-- The sign of a number may be repeated in front of it. -/
theorem signed_widened (count : Nat) (bytes : Bytes) :
    signed (List.replicate count bytes.signByte ++ bytes) = bytes.signed := by
  induction count with
  | zero => rfl
  | succ count ih =>
      have hsign : signByte (List.replicate count bytes.signByte ++ bytes) = bytes.signByte := by
        cases count with
        | zero => rfl
        | succ count =>
            have hsame := negative_signByte_cons bytes
              (List.replicate count bytes.signByte ++ bytes)
            rw [List.replicate_succ, List.cons_append, signByte, signByte]
            exact if_congr hsame rfl rfl
      rw [List.replicate_succ, List.cons_append, signed_cons_of_signByte hsign, ih]

/-- The first bit of an encoding is the sign of the number. -/
theorem signByte_ofInt
    {width : Nat}
    {n : Int}
    (hlow : -(256 ^ width : Nat) ≤ 2 * n)
    (hhigh : 2 * n < (256 ^ width : Nat)) :
    (ofInt width n).signByte = if n < 0 then 0xFF else 0 := by
  have hnumber := signed_ofInt hlow hhigh
  have hlt := unsigned_lt (ofInt width n)
  have hsign : (ofInt width n).Negative ↔ n < 0 := by
    rw [signed_eq] at hnumber
    split at hnumber
    · rename_i hsign
      exact iff_of_true hsign (by omega)
    · rename_i hsign
      exact iff_of_false hsign (by omega)
  simp only [signByte, hsign]

end Signs

section Words

/-- The word that is left when bytes are shifted, one after the other, into the low end of a
word. -/
def shiftedInto (start : BitVec 64) (bytes : Bytes) : BitVec 64 :=
  bytes.foldl (fun word byte => word <<< 8 ||| byte.toBitVec.setWidth 64) start

/-- One byte moves the digits of a word up by one place, and the highest out of it. -/
theorem toNat_shiftLeft_or (word : BitVec 64) (byte : UInt8) :
    (word <<< 8 ||| byte.toBitVec.setWidth 64).toNat =
      (256 * word.toNat + byte.toNat) % 2 ^ 64 := by
  have hbyte : byte.toNat < 2 ^ 8 := byte.toNat_lt
  have hlow : (byte.toBitVec.setWidth 64).toNat = byte.toNat := by
    rw [BitVec.toNat_setWidth, UInt8.toNat_toBitVec]
    omega
  have hhigh : word.toNat <<< 8 % 2 ^ 64 = (word.toNat % 2 ^ 56) <<< 8 := by
    rw [Nat.shiftLeft_eq, Nat.shiftLeft_eq]
    omega
  rw [BitVec.toNat_or, BitVec.toNat_shiftLeft, hlow, hhigh,
    ← Nat.shiftLeft_add_eq_or_of_lt hbyte, Nat.shiftLeft_eq]
  omega

/-- Bytes are shifted into a word as digits behind those of the word, of which the word keeps
the last. -/
theorem toNat_shiftedInto_start (start : BitVec 64) (bytes : Bytes) :
    (shiftedInto start bytes).toNat =
      (256 ^ bytes.length * start.toNat + bytes.unsigned) % 2 ^ 64 := by
  induction bytes generalizing start with
  | nil =>
      have hword := start.isLt
      simp only [shiftedInto, List.foldl_nil, List.length_nil, Nat.pow_zero, Nat.one_mul,
        unsigned_nil, Nat.add_zero, Nat.mod_eq_of_lt hword]
  | cons byte rest ih =>
      have hstep : shiftedInto start (byte :: rest) =
          shiftedInto (start <<< 8 ||| byte.toBitVec.setWidth 64) rest := rfl
      have hdigits : 256 ^ (byte :: rest).length * start.toNat + unsigned (byte :: rest) =
          256 ^ rest.length * (256 * start.toNat + byte.toNat) + unsigned rest := by
        rw [unsigned_cons, List.length_cons, Nat.pow_succ, Nat.mul_add, Nat.mul_assoc,
          Nat.add_assoc]
      rw [hstep, ih, toNat_shiftLeft_or, hdigits, Nat.add_mod, Nat.mul_mod_mod, ← Nat.add_mod]

/-- Up to eight bytes fill a word. -/
theorem pow_length_le (hlength : bytes.length ≤ 8) : 256 ^ bytes.length ≤ 2 ^ 64 :=
  Nat.pow_le_pow_right (by decide : 0 < 256) hlength

/-- Up to eight bytes fill a word of zeros with the number they spell. -/
theorem toNat_shiftedInto (hlength : bytes.length ≤ 8) :
    (shiftedInto 0 bytes).toNat = bytes.unsigned := by
  have hlt := unsigned_lt bytes
  have hle := pow_length_le hlength
  rw [toNat_shiftedInto_start]
  simp only [BitVec.ofNat_eq_ofNat, BitVec.toNat_ofNat]
  rw [Nat.zero_mod, Nat.mul_zero, Nat.zero_add, Nat.mod_eq_of_lt (by omega)]

/-- Up to eight bytes fill a word of signs with the two's complement number they spell. -/
theorem toInt_shiftedInto (hlength : bytes.length ≤ 8) :
    (shiftedInto (if bytes.Negative then -1 else 0) bytes).toInt = bytes.signed := by
  have hle := pow_length_le hlength
  have hbounds := signed_bounds bytes
  -- The digits of the word and the number differ by whole turns, and a word has one number only.
  obtain ⟨turns, hturns⟩ : ∃ turns : Int,
      ((256 ^ bytes.length * (if bytes.Negative then (-1 : BitVec 64) else 0).toNat +
        bytes.unsigned : Nat) : Int) = bytes.signed + (2 ^ 64 : Nat) * turns := by
    rw [signed_eq]
    split
    · refine ⟨(256 ^ bytes.length : Nat), ?_⟩
      have hones : (-1 : BitVec 64).toNat = 2 ^ 64 - 1 := by decide
      rw [hones]
      omega
    · refine ⟨0, ?_⟩
      have hzero : (0 : BitVec 64).toNat = 0 := by decide
      rw [hzero]
      omega
  rw [BitVec.toInt_eq_toNat_bmod, toNat_shiftedInto_start, Int.natCast_emod, Int.emod_bmod, hturns,
    Int.add_mul_bmod_self_left]
  exact Int.bmod_eq_of_le (by omega) (by omega)

end Words

section Padding

/-- What bytes have in front of their first zero byte, or all of them where none is zero. -/
def Unpadded (front bytes : Bytes) : Prop :=
  0 ∉ front ∧ (bytes = front ∨ ∃ padding, bytes = front ++ 0 :: padding)

theorem unpadded_takeWhile (bytes : Bytes) : Unpadded (bytes.takeWhile (· != 0)) bytes := by
  induction bytes with
  | nil => exact ⟨List.not_mem_nil, Or.inl rfl⟩
  | cons byte rest ih =>
      by_cases hbyte : byte = 0
      · subst hbyte
        exact ⟨List.not_mem_nil, Or.inr ⟨rest, rfl⟩⟩
      · obtain ⟨hzero, hrest⟩ := ih
        rw [List.takeWhile_cons_of_pos (by simpa using hbyte)]
        refine ⟨?_, ?_⟩
        · rw [List.mem_cons, not_or]
          exact ⟨Ne.symm hbyte, hzero⟩
        · rcases hrest with hall | ⟨padding, hpadding⟩
          · exact Or.inl (congrArg (byte :: ·) hall)
          · exact Or.inr ⟨padding, congrArg (byte :: ·) hpadding⟩

/-- There is one such front only. -/
theorem Unpadded.takeWhile_eq (h : Unpadded front bytes) : bytes.takeWhile (· != 0) = front := by
  obtain ⟨hzero, hbytes⟩ := h
  have hfront : ∀ byte ∈ front, (byte != 0) = true := by
    intro byte hbyte
    rw [bne_iff_ne]
    rintro rfl
    exact hzero hbyte
  rcases hbytes with rfl | ⟨padding, rfl⟩
  · simpa using @List.takeWhile_append_of_pos _ _ _ [] hfront
  · rw [List.takeWhile_append_of_pos hfront, List.takeWhile_cons_of_neg (by decide),
      List.append_nil]

theorem takeWhile_eq_iff : bytes.takeWhile (· != 0) = front ↔ Unpadded front bytes := by
  constructor
  · rintro rfl
    exact unpadded_takeWhile bytes
  · exact Unpadded.takeWhile_eq

/-- Zero bytes at the end are padding. -/
theorem Unpadded.append_zeros (h : Unpadded front bytes) (count : Nat) :
    Unpadded front (bytes ++ List.replicate count 0) := by
  obtain ⟨hzero, rfl | ⟨padding, rfl⟩⟩ := h
  · refine ⟨hzero, ?_⟩
    cases count with
    | zero => exact Or.inl (List.append_nil _)
    | succ count => exact Or.inr ⟨List.replicate count 0, rfl⟩
  · exact ⟨hzero, Or.inr ⟨padding ++ List.replicate count 0, by
      rw [List.append_assoc, List.cons_append]⟩⟩

end Padding

end Bytes

namespace Value

section Texts

variable {bytes : Bytes} {s : String}

/-- The UTF-8 encoding of a text, character by character. -/
def utf8 (s : String) : Bytes :=
  s.toList.flatMap String.utf8EncodeChar

/-- A string is held as its encoding. -/
theorem toByteArray_eq_utf8 (s : String) : s.toByteArray = (utf8 s).toByteArray :=
  (congrArg String.toByteArray String.ofList_toList).symm.trans String.toByteArray_ofList

/-- Bytes are read as the string that is held as these bytes. -/
theorem fromUTF8?_eq_some_iff {array : ByteArray} :
    String.fromUTF8? array = some s ↔ array = s.toByteArray := by
  unfold String.fromUTF8?
  constructor
  · intro h
    split at h
    · obtain rfl := Option.some.inj h
      rfl
    · cases h
  · rintro rfl
    rw [dif_pos s.isValidUTF8]
    rfl

/-- A text is read from its encoding and any padding, and from nothing else. -/
theorem decodeText_eq_ok_iff : decodeText bytes = .ok s ↔ Bytes.Unpadded (utf8 s) bytes := by
  have hread : decodeText bytes = .ok s ↔
      String.fromUTF8? (bytes.takeWhile (· != 0)).toByteArray = some s := by
    unfold decodeText
    split <;> simp [*]
  have harray : (bytes.takeWhile (· != 0)).toByteArray = (utf8 s).toByteArray ↔
      bytes.takeWhile (· != 0) = utf8 s :=
    ⟨fun h => by simpa using congrArg (fun array => array.data.toList) h, congrArg _⟩
  rw [hread, fromUTF8?_eq_some_iff, toByteArray_eq_utf8, harray, Bytes.takeWhile_eq_iff]

/-- Bytes that are no text have one defect. -/
theorem decodeText_of_no_text (h : ∀ s, ¬ Bytes.Unpadded (utf8 s) bytes) :
    decodeText bytes = .error .notUtf8 := by
  cases hread : decodeText bytes with
  | error reason =>
      unfold decodeText at hread
      split at hread
      · cases hread
      · exact hread.symm
  | ok s => exact absurd (decodeText_eq_ok_iff.mp hread) (h s)

/-- Zero bytes at the end of a text do not matter, nor do they at the end of what is none. -/
theorem decodeText_append_zeros (bytes : Bytes) (count : Nat) :
    decodeText (bytes ++ List.replicate count 0) = decodeText bytes := by
  have hfront := (Bytes.unpadded_takeWhile bytes).append_zeros count
  unfold decodeText
  rw [hfront.takeWhile_eq]

/-- The zero character is encoded as a zero byte. -/
theorem zero_not_mem_of_unpadded (h : Bytes.Unpadded (utf8 s) bytes) : '\x00' ∉ s.toList :=
  fun hchar => h.1 (List.mem_flatMap.mpr ⟨'\x00', hchar, by decide⟩)

/-- Both kinds of texts are read alike. -/
theorem decode_of_textKind
    {kind : Kind}
    (hkind : kind = .ascii ∨ kind = .utf8)
    (bytes : Bytes) :
    decode kind bytes = (decodeText bytes).map text := by
  rcases hkind with rfl | rfl <;> rfl

/-- A payload is read as a text when it is the encoding of that text and padding. -/
theorem decode_eq_text_iff
    {kind : Kind}
    (hkind : kind = .ascii ∨ kind = .utf8) :
    decode kind bytes = .ok (.text s) ↔ Bytes.Unpadded (utf8 s) bytes := by
  rw [← decodeText_eq_ok_iff, decode_of_textKind hkind]
  cases decodeText bytes <;> simp [Except.map]

end Texts

/-- A number is read from each of its encodings, with its sign in front as often as there is
room. -/
theorem decode_widened
    {n : Int}
    {width count : Nat}
    (hroom : count + width ≤ 8)
    (hlow : -(256 ^ width : Nat) ≤ 2 * n)
    (hhigh : 2 * n < (256 ^ width : Nat)) :
    decode .signed (List.replicate count (if n < 0 then 0xFF else 0) ++ Bytes.ofInt width n) =
      .ok (.signed n) := by
  have hnumber := Bytes.signed_widened count (Bytes.ofInt width n)
  rw [Bytes.signByte_ofInt hlow hhigh, Bytes.signed_ofInt hlow hhigh] at hnumber
  have hfew : ¬ 8 < (List.replicate count (if n < 0 then 0xFF else 0) ++
      Bytes.ofInt width n : Bytes).length := by
    rw [List.length_append, List.length_replicate, Bytes.length_ofInt]
    exact Nat.not_lt.mpr hroom
  rw [decode, decodeSigned, if_neg hfew, hnumber, Except.map]

/-- **What payloads of numbers, dates and texts spell.**  Up to eight bytes are read as digits to
base 256, which is what a word of 64 bits holds when they are shifted into it.  For a signed
number they are two's complement, where the sign may be repeated as far as there is room.  More
bytes are refused.  A date is a signed number of no or of eight bytes.  A text is read from its
UTF-8 encoding, behind which there may be a zero byte and then anything, and has no zero
character. -/
theorem decode_payload (bytes : Bytes) :
    let value : Nat := Nat.ofDigits 256 (bytes.reverse.map UInt8.toNat)
    let negative := 128 ≤ (bytes.headD 0).toNat
    let number : Int := if negative then (value : Int) - (2 ^ (8 * bytes.length) : Nat) else value
    (bytes.length ≤ 8 →
      decode .unsigned bytes = .ok (.unsigned value) ∧
        (Bytes.shiftedInto 0 bytes).toNat = value ∧
        decode .signed bytes = .ok (.signed number) ∧
        (Bytes.shiftedInto (if negative then -1 else 0) bytes).toInt = number) ∧
      (8 < bytes.length →
        decode .unsigned bytes = .error (.integerWidth bytes.length) ∧
          decode .signed bytes = .error (.integerWidth bytes.length)) ∧
      (∀ (n : Int) (width count : Nat), count + width ≤ 8 →
        -(256 ^ width : Nat) ≤ 2 * n → 2 * n < (256 ^ width : Nat) →
          decode .signed (List.replicate count (if n < 0 then 0xFF else 0) ++ Bytes.ofInt width n) =
            .ok (.signed n)) ∧
      decode .date bytes =
        (if bytes.length = 0 ∨ bytes.length = 8 then .ok (.date number)
        else .error (.dateWidth bytes.length)) ∧
      (∀ kind, kind = .ascii ∨ kind = .utf8 →
        (∀ s, decode kind bytes = .ok (.text s) ↔ Bytes.Unpadded (utf8 s) bytes) ∧
          ((∀ s, ¬ Bytes.Unpadded (utf8 s) bytes) → decode kind bytes = .error .notUtf8) ∧
          (∀ count, decode kind (bytes ++ List.replicate count 0) = decode kind bytes) ∧
          (∀ s, decode kind bytes = .ok (.text s) → '\x00' ∉ s.toList)) := by
  intro value negative number
  have hvalue : value = bytes.unsigned := (Bytes.unsigned_eq_ofDigits bytes).symm
  have hnumber : number = bytes.signed := by
    have hpow : 2 ^ (8 * bytes.length) = 256 ^ bytes.length := Nat.pow_mul 2 8 _
    simp only [number, hvalue, hpow]
    exact (Bytes.signed_eq bytes).symm
  rw [hvalue, hnumber]
  refine ⟨?_, ?_, ?_, ?_, ?_⟩
  · intro hlength
    have hfew : ¬ 8 < bytes.length := Nat.not_lt.mpr hlength
    refine ⟨?_, Bytes.toNat_shiftedInto hlength, ?_, Bytes.toInt_shiftedInto hlength⟩
    · rw [decode, decodeUnsigned, if_neg hfew, Except.map]
    · rw [decode, decodeSigned, if_neg hfew, Except.map]
  · intro hlength
    refine ⟨?_, ?_⟩
    · rw [decode, decodeUnsigned, if_pos hlength, Except.map]
    · rw [decode, decodeSigned, if_pos hlength, Except.map]
  · exact fun n width count => decode_widened
  · rw [decode, decodeDate]
    split <;> simp_all [Except.map]
  · intro kind hkind
    refine ⟨fun s => decode_eq_text_iff hkind, ?_, ?_, ?_⟩
    · intro hnone
      rw [decode_of_textKind hkind, decodeText_of_no_text hnone, Except.map]
    · intro count
      rw [decode_of_textKind hkind, decode_of_textKind hkind, decodeText_append_zeros]
    · intro s hs
      exact zero_not_mem_of_unpadded ((decode_eq_text_iff hkind).mp hs)

/-- The least number of 64 bits, in its eight bytes.  A byte of its sign in front is one too
many, while the sign of a small number may be repeated.  And a text behind which there is more
than zeros. -/
theorem decode_payload_least :
    let least : Bytes := [0x80, 0, 0, 0, 0, 0, 0, 0]
    let padded : Bytes := [0x47, 0xC3, 0xBC, 0, 0xC3, 0]
    decode .unsigned least = .ok (.unsigned (2 ^ 63)) ∧
      decode .signed least = .ok (.signed (-2 ^ 63)) ∧
      decode .date least = .ok (.date (-2 ^ 63)) ∧
      decode .signed (0xFF :: least) = .error (.integerWidth 9) ∧
      decode .signed [0xFF, 0xFF, 0xFE] = .ok (.signed (-2)) ∧
      decode .utf8 padded = .ok (.text "Gü") ∧
      decode .utf8 (padded ++ [0, 0]) = .ok (.text "Gü") ∧
      decode .utf8 [0xC3, 0x28] = .error .notUtf8 := by
  intro least padded
  obtain ⟨hfew, _, hwidened, hdate, _⟩ := decode_payload least
  obtain ⟨hread, _, hsigned, _⟩ := hfew (by decide)
  obtain ⟨_, hmany, _⟩ := decode_payload (0xFF :: least)
  obtain ⟨_, _, _, _, htexts⟩ := decode_payload padded
  obtain ⟨htext, _, hzeros, _⟩ := htexts .utf8 (Or.inr rfl)
  have hpadded : decode .utf8 padded = .ok (.text "Gü") :=
    (htext "Gü").mpr ⟨by decide +kernel, Or.inr ⟨[0xC3, 0], by decide +kernel⟩⟩
  have hsmall : List.replicate 2 (if (-2 : Int) < 0 then 0xFF else 0) ++ Bytes.ofInt 1 (-2) =
      [0xFF, 0xFF, 0xFE] := by
    decide
  have hnone : ∀ s, ¬ Bytes.Unpadded (utf8 s) [0xC3, 0x28] := by
    intro s hs
    have hinvalid : ¬ ([0xC3, 0x28] : Bytes).toByteArray.IsValidUTF8 := by decide +kernel
    have hfront : [0xC3, 0x28] = utf8 s := hs.takeWhile_eq
    rw [hfront, ← toByteArray_eq_utf8] at hinvalid
    exact hinvalid s.isValidUTF8
  obtain ⟨_, _, _, _, hothers⟩ := decode_payload [0xC3, 0x28]
  refine ⟨hread, hsigned, hdate, (hmany (by decide)).2, ?_, hpadded, (hzeros 2).trans hpadded,
    (hothers .utf8 (Or.inr rfl)).2.1 hnone⟩
  rw [← hsmall]
  exact hwidened (-2) 1 2 (by decide) (by decide) (by decide)

end Value

end EbmlReport
