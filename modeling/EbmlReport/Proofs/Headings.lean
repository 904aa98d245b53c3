import EbmlReport.Heading

/-!
# Headings as stored

What reading a variable-width integer or a heading tells about the bytes it was read
from, and that reading undoes writing.

A stored integer is well formed when its width is between one and eight and its data
leave the marker alone.  A heading is legal when its ID is well formed with at most
four bytes and its size fits the width it is stored in.

**Results.**
* `Heading.decode_eq_some_iff`: a heading is read as an ID and, behind it, a size.
* `Heading.decode_bounds`: it takes at least two bytes and no more than there are.
* `Varint.decode_encode`, `Heading.decode_encode`: reading undoes writing, whatever
  bytes come after.
* `Varint.eq_encode_of_decode`: what an integer was read from is what is written for it.
* `Varint.decode_append`: bytes that come behind an integer do not matter.
* `Varint.decode_of_take`, `Heading.decode_of_take`: what was read depends on the bytes that
  it takes.
* `Varint.decode_take`, `Heading.decode_take`: whether or not anything can be read shows in
  the first eight, or twelve, bytes.
-/

namespace EbmlReport

namespace Varint

/-- What was read has a width that is allowed and that the bytes have. -/
theorem decode_bounds
    {bytes : Bytes}
    {v : Varint}
    (h : decode bytes = .ok (some v)) :
    1 ≤ v.length ∧ v.length ≤ 8 ∧ v.length ≤ bytes.length := by
  cases bytes with
  | nil => simp [decode] at h
  | cons first rest =>
      simp only [decode] at h
      split at h
      · simp at h
      · rename_i width hwidth
        obtain ⟨hlow, hhigh⟩ := width?_eq_some hwidth
        split at h
        · simp at h
        · rename_i hlong
          simp only [Except.ok.injEq, Option.some.injEq] at h
          subst h
          exact ⟨hlow, hhigh, by dsimp only; omega⟩

/-- A width that occurs, and data below the marker of that width. -/
structure WellFormed (v : Varint) : Prop where
  pos : 1 ≤ v.length
  le : v.length ≤ 8
  marker : 2 ^ (7 * v.length) ≤ v.value
  data : v.value < 2 ^ (7 * v.length + 1)

instance (v : Varint) : Decidable v.WellFormed :=
  decidable_of_iff
    (1 ≤ v.length ∧ v.length ≤ 8 ∧ 2 ^ (7 * v.length) ≤ v.value ∧ v.value < 2 ^ (7 * v.length + 1))
    ⟨fun ⟨pos, le, marker, data⟩ => ⟨pos, le, marker, data⟩,
      fun ⟨pos, le, marker, data⟩ => ⟨pos, le, marker, data⟩⟩

/-- Data that fit a width make a well-formed integer of it. -/
theorem ofData_wellFormed
    {length data : Nat}
    (hpos : 1 ≤ length)
    (hle : length ≤ 8)
    (hdata : data < 2 ^ (7 * length)) :
    (ofData length data).WellFormed where
  pos := hpos
  le := hle
  marker := Nat.le_add_right _ _
  data := by
    simp only [ofData, Nat.pow_succ]
    omega

theorem data_ofData
    {length data : Nat}
    (hdata : data < 2 ^ (7 * length)) :
    (ofData length data).data = data := by
  simp only [ofData, Varint.data, Nat.add_mod_left]
  exact Nat.mod_eq_of_lt hdata

/-- The marker stands in the first byte, at the place that tells the width. -/
theorem width?_first
    {v : Varint}
    (hv : v.WellFormed)
    {width : Nat}
    (hwidth : v.length = width + 1) :
    width? (UInt8.ofNat (v.value / 256 ^ width % 256)) = some v.length := by
  have hle := hv.le
  have hmarker := hv.marker
  have hdata := hv.data
  rw [hwidth] at hle hmarker hdata
  have hpow : (256 : Nat) ^ width = 2 ^ (8 * width) := by
    rw [Nat.pow_mul]
  have hlow : 2 ^ (7 - width) ≤ v.value / 256 ^ width := by
    rw [hpow, Nat.le_div_iff_mul_le (Nat.two_pow_pos _), ← Nat.pow_add,
      show 7 - width + 8 * width = 7 * (width + 1) by omega]
    exact hmarker
  have hhigh : v.value / 256 ^ width < 2 ^ (7 - width + 1) := by
    rw [hpow, Nat.div_lt_iff_lt_mul (Nat.two_pow_pos _), ← Nat.pow_add,
      show 7 - width + 1 + 8 * width = 7 * (width + 1) + 1 by omega]
    exact hdata
  have hbyte : v.value / 256 ^ width < 256 :=
    Nat.lt_of_lt_of_le hhigh (Nat.pow_le_pow_right (by decide : 0 < 2) (by omega : _ ≤ 8))
  generalize v.value / 256 ^ width = first at hlow hhigh hbyte
  have hne : first ≠ 0 := by
    have := Nat.two_pow_pos (7 - width)
    omega
  have hfirst : (UInt8.ofNat (first % 256)).toNat = first := by
    rw [UInt8.toNat_ofNat']
    omega
  have hlog : first.log2 = 7 - width := (Nat.log2_eq_iff hne).mpr ⟨hlow, hhigh⟩
  unfold width?
  rw [hfirst, if_neg hne, hlog, hwidth]
  congr 1
  omega

/-- Reading a written integer gives it back, whatever comes after. -/
theorem decode_encode
    {v : Varint}
    (hv : v.WellFormed)
    (rest : Bytes) :
    decode (v.encode ++ rest) = .ok (some v) := by
  obtain ⟨width, hwidth⟩ : ∃ width, v.length = width + 1 := ⟨v.length - 1, by have := hv.pos; omega⟩
  have hvalue : v.value < 256 ^ v.length := by
    have hpow : (256 : Nat) ^ v.length = 2 ^ (8 * v.length) := by
      rw [Nat.pow_mul]
    rw [hpow]
    exact Nat.lt_of_lt_of_le hv.data
      (Nat.pow_le_pow_right (by decide) (by have := hv.pos; omega))
  have hcons : v.encode ++ rest =
      UInt8.ofNat (v.value / 256 ^ width % 256) :: (Bytes.ofNat width v.value ++ rest) := by
    rw [encode, hwidth, Bytes.ofNat_succ_eq_cons, List.cons_append]
  have htake : (v.encode ++ rest).take v.length = v.encode :=
    List.take_left' v.length_encode
  have hlong : ¬ (v.encode ++ rest).length < v.length := by simp
  have hunsigned : v.encode.unsigned = v.value := by
    rw [encode, Bytes.unsigned_ofNat, Nat.mod_eq_of_lt hvalue]
  rw [hcons] at hlong htake ⊢
  simp only [decode, width?_first hv hwidth]
  rw [if_neg hlong, htake, hunsigned]

/-- A first byte has its marker at the place that tells the width. -/
theorem marker_of_width?
    {first : UInt8}
    {width : Nat}
    (h : width? first = some (width + 1)) :
    2 ^ (7 - width) ≤ first.toNat ∧ first.toNat < 2 ^ (7 - width + 1) := by
  unfold width? at h
  split at h
  · simp at h
  · rename_i hne
    have hlt : first.toNat.log2 < 8 := (Nat.log2_lt hne).2 first.toNat_lt
    simp only [Option.some.injEq] at h
    exact (Nat.log2_eq_iff hne).mp (by omega)

/-- A byte with a marker, and as many bytes behind it as that tells, make a well-formed
integer. -/
theorem wellFormed_of_width?
    {first : UInt8}
    {rest : Bytes}
    (h : width? first = some (rest.length + 1)) :
    (⟨Bytes.unsigned (first :: rest), rest.length + 1⟩ : Varint).WellFormed := by
  obtain ⟨_, hle⟩ := width?_eq_some h
  obtain ⟨hlow, hhigh⟩ := marker_of_width? h
  have hrest := Bytes.unsigned_lt rest
  have hpow : (256 : Nat) ^ rest.length = 2 ^ (8 * rest.length) := by
    rw [Nat.pow_mul]
  have hmarker : 2 ^ (7 * (rest.length + 1)) = 256 ^ rest.length * 2 ^ (7 - rest.length) := by
    rw [hpow, ← Nat.pow_add]
    congr 1
    omega
  have htop : 2 ^ (7 * (rest.length + 1) + 1) = 256 ^ rest.length * 2 ^ (7 - rest.length + 1) := by
    rw [hpow, ← Nat.pow_add]
    congr 1
    omega
  refine ⟨Nat.le_add_left _ _, hle, ?_, ?_⟩
  · rw [hmarker, Bytes.unsigned_cons]
    exact Nat.le_trans (Nat.mul_le_mul_left _ hlow) (Nat.le_add_right _ _)
  · rw [htop, Bytes.unsigned_cons]
    calc 256 ^ rest.length * first.toNat + rest.unsigned
        < 256 ^ rest.length * (first.toNat + 1) := by
          rw [Nat.mul_add, Nat.mul_one]
          exact Nat.add_lt_add_left hrest _
      _ ≤ 256 ^ rest.length * 2 ^ (7 - rest.length + 1) := Nat.mul_le_mul_left _ hhigh

/-- What was read is well formed, and the bytes begin with what is written for it. -/
theorem eq_encode_of_decode
    {bytes : Bytes}
    {v : Varint}
    (h : decode bytes = .ok (some v)) :
    v.WellFormed ∧ bytes = v.encode ++ bytes.drop v.length := by
  obtain ⟨hpos, _, hlong⟩ := decode_bounds h
  cases bytes with
  | nil => simp [decode] at h
  | cons first rest =>
      simp only [decode] at h
      split at h
      · simp at h
      · rename_i width hwidth
        split at h
        · simp at h
        · simp only [Except.ok.injEq, Option.some.injEq] at h
          subst h
          dsimp only at hpos hlong ⊢
          obtain ⟨more, rfl⟩ : ∃ more, width = more + 1 := ⟨width - 1, by omega⟩
          have hmore : (rest.take more).length = more := by
            rw [List.length_cons] at hlong
            rw [List.length_take, Nat.min_eq_left (by omega)]
          have htaken : ((first :: rest).take (more + 1)).length = more + 1 := by
            rw [List.length_take, Nat.min_eq_left hlong]
          have hwritten := Bytes.ofNat_unsigned ((first :: rest).take (more + 1))
          rw [htaken] at hwritten
          refine ⟨?_, ?_⟩
          · have hformed := @wellFormed_of_width? first (rest.take more) (by rw [hmore, hwidth])
            rwa [hmore] at hformed
          · rw [encode, hwritten, List.take_append_drop]

/-- A well-formed integer is known by its width and its data, which lie below the marker. -/
theorem WellFormed.eq_ofData
    {v : Varint}
    (hv : v.WellFormed) :
    v.data < 2 ^ (7 * v.length) ∧ v = ofData v.length v.data := by
  have hmarker := hv.marker
  have hdata := hv.data
  rw [Nat.pow_succ] at hdata
  have hrest : v.data = v.value - 2 ^ (7 * v.length) := by
    rw [Varint.data, Nat.mod_eq_sub_mod hmarker, Nat.mod_eq_of_lt (by omega)]
  refine ⟨by omega, ?_⟩
  rw [ofData, hrest, Nat.add_sub_cancel' hmarker]

/-- Bytes that come behind an integer do not matter. -/
theorem decode_append
    {bytes : Bytes}
    {v : Varint}
    (h : decode bytes = .ok (some v))
    (more : Bytes) :
    decode (bytes ++ more) = .ok (some v) := by
  obtain ⟨hformed, hbytes⟩ := eq_encode_of_decode h
  rw [hbytes, List.append_assoc]
  exact decode_encode hformed _

/-- A first byte without a marker stays one. -/
theorem decode_append_of_unmarked
    {bytes : Bytes}
    (h : decode bytes = .error .unmarked)
    (more : Bytes) :
    decode (bytes ++ more) = .error .unmarked := by
  cases bytes with
  | nil => simp [decode] at h
  | cons first rest =>
      rw [List.cons_append]
      simp only [decode] at h ⊢
      split at h
      · rfl
      · split at h <;> simp at h

/-- Eight bytes suffice to read an integer, if the first of them has a marker. -/
theorem exists_or_unmarked
    {bytes : Bytes}
    (h : 8 ≤ bytes.length) :
    (∃ v, decode bytes = .ok (some v)) ∨ decode bytes = .error .unmarked := by
  cases bytes with
  | nil => simp at h
  | cons first rest =>
      simp only [decode]
      cases hwidth : width? first with
      | none => exact Or.inr rfl
      | some width =>
          obtain ⟨_, hle⟩ := width?_eq_some hwidth
          exact Or.inl ⟨_, if_neg (by omega)⟩

/-- An integer is read from its own bytes, whatever comes after. -/
theorem decode_of_take
    {bytes other : Bytes}
    {v : Varint}
    (h : decode bytes = .ok (some v))
    (hsame : other.take v.length = bytes.take v.length) :
    decode other = .ok (some v) := by
  obtain ⟨hpos, _, hlong⟩ := decode_bounds h
  have hlength : v.length ≤ other.length := by
    have hcount := congrArg List.length hsame
    rw [List.length_take, List.length_take] at hcount
    omega
  obtain ⟨width, hwidth⟩ : ∃ width, v.length = width + 1 := ⟨v.length - 1, by omega⟩
  cases bytes with
  | nil => simp [decode] at h
  | cons first rest =>
      cases other with
      | nil =>
          rw [List.length_nil] at hlength
          omega
      | cons first' rest' =>
          have hfirst : first' = first := by
            rw [hwidth, List.take_succ_cons, List.take_succ_cons] at hsame
            exact (List.cons.inj hsame).1
          subst hfirst
          simp only [decode] at h ⊢
          split at h
          · simp at h
          · split at h
            · simp at h
            · simp only [Except.ok.injEq, Option.some.injEq] at h
              subst h
              dsimp only at hsame hlength
              simp only [if_neg (Nat.not_lt.mpr hlength), hsame]

/-- Bytes behind the eighth do not matter. -/
theorem decode_take
    {count : Nat}
    (hcount : 8 ≤ count)
    (bytes : Bytes) :
    decode (bytes.take count) = decode bytes := by
  cases bytes with
  | nil => rw [List.take_nil]
  | cons first rest =>
      obtain ⟨more, rfl⟩ : ∃ more, count = more + 1 := ⟨count - 1, by omega⟩
      have hlength : ((first :: rest).take (more + 1)).length = min (more + 1) (rest.length + 1) := by
        rw [List.length_take, List.length_cons]
      rw [List.take_succ_cons] at hlength ⊢
      simp only [decode, hlength, List.length_cons]
      cases hwidth : width? first with
      | none => rfl
      | some width =>
          obtain ⟨_, hle⟩ := width?_eq_some hwidth
          have htake : (first :: rest.take more).take width = (first :: rest).take width := by
            rw [← List.take_succ_cons, List.take_take, Nat.min_eq_left (by omega)]
          by_cases hshort : rest.length + 1 < width
          · simp only [if_pos hshort, if_pos (show min (more + 1) (rest.length + 1) < width by omega)]
          · simp only [if_neg hshort, if_neg (show ¬ min (more + 1) (rest.length + 1) < width by omega),
              htake]

end Varint

namespace DeclaredSize

/-- A size that a width can hold: a known one is not written as all ones. -/
def Fits (length : Nat) : DeclaredSize → Prop
  | known n => n < 2 ^ (7 * length) - 1
  | unknown => True

instance (length : Nat) : (size : DeclaredSize) → Decidable (size.Fits length)
  | known n => inferInstanceAs (Decidable (n < 2 ^ (7 * length) - 1))
  | unknown => inferInstanceAs (Decidable True)

variable {length : Nat} {size : DeclaredSize}

/-- A size that fits its width is stored as a well-formed integer. -/
theorem toVarint_wellFormed
    (hpos : 1 ≤ length)
    (hle : length ≤ 8)
    (hfits : size.Fits length) :
    (size.toVarint length).WellFormed := by
  have htwo := Nat.two_pow_pos (7 * length)
  cases size with
  | known n =>
      simp only [Fits] at hfits
      exact Varint.ofData_wellFormed hpos hle (by omega)
  | unknown => exact Varint.ofData_wellFormed hpos hle (by omega)

@[simp] theorem length_toVarint (length : Nat) (size : DeclaredSize) :
    (size.toVarint length).length = length := by
  cases size <;> rfl

/-- A stored size stands for itself. -/
theorem ofVarint_toVarint (hfits : size.Fits length) : ofVarint (size.toVarint length) = size := by
  have htwo := Nat.two_pow_pos (7 * length)
  cases size with
  | known n =>
      simp only [Fits] at hfits
      have hdata : (Varint.ofData length n).data = n := Varint.data_ofData (by omega)
      have hfree : (Varint.ofData length n).isReserved = false := by
        simp only [Varint.isReserved, hdata, beq_eq_false_iff_ne, ne_eq]
        simp only [Varint.ofData]
        omega
      simp [toVarint, ofVarint, hfree, hdata]
  | unknown =>
      have hdata : (Varint.ofData length (2 ^ (7 * length) - 1)).data = 2 ^ (7 * length) - 1 :=
        Varint.data_ofData (by omega)
      have hreserved : (Varint.ofData length (2 ^ (7 * length) - 1)).isReserved = true := by
        simp only [Varint.isReserved, hdata, beq_iff_eq]
        rfl
      simp [toVarint, ofVarint, hreserved]

end DeclaredSize

namespace Heading

/-- An ID is a stored integer that is not too long. -/
theorem decodeId_eq_some_iff
    {bytes : Bytes}
    {id : Varint} :
    decodeId bytes = .ok (some id) ↔
      Varint.decode bytes = .ok (some id) ∧ id.length ≤ maxIdLength := by
  unfold decodeId
  cases Varint.decode bytes with
  | error fault => cases fault <;> simp
  | ok found =>
      cases found with
      | none => simp
      | some found =>
          simp only [Except.ok.injEq, Option.some.injEq]
          split
          · rename_i hlong
            constructor
            · intro h
              cases h
            · rintro ⟨rfl, hshort⟩
              exact absurd hlong (Nat.not_lt.mpr hshort)
          · rename_i hshort
            simp only [Except.ok.injEq, Option.some.injEq]
            constructor
            · rintro rfl
              exact ⟨rfl, Nat.le_of_not_lt hshort⟩
            · exact fun h => h.1

/-- A size is any stored integer. -/
theorem decodeSize_eq_some_iff
    {bytes : Bytes}
    {size : DeclaredSize}
    {sizeLength : Nat} :
    decodeSize bytes = .ok (some (size, sizeLength)) ↔
      ∃ found : Varint, Varint.decode bytes = .ok (some found) ∧
        DeclaredSize.ofVarint found = size ∧ found.length = sizeLength := by
  unfold decodeSize
  cases Varint.decode bytes with
  | error fault => cases fault <;> simp
  | ok found => cases found <;> simp

/-- A heading is an ID that is not too long and, behind it, a size. -/
theorem decode_eq_some_iff
    {bytes : Bytes}
    {h : Heading} :
    decode bytes = .ok (some h) ↔
      ∃ id size : Varint, Varint.decode bytes = .ok (some id) ∧ id.length ≤ maxIdLength ∧
        Varint.decode (bytes.drop id.length) = .ok (some size) ∧
        h = ⟨id.value, id.length, .ofVarint size, size.length⟩ := by
  constructor
  · intro hdecode
    unfold decode at hdecode
    split at hdecode
    · cases hdecode
    · cases hdecode
    · rename_i id hid
      obtain ⟨hid, hshort⟩ := decodeId_eq_some_iff.mp hid
      split at hdecode
      · cases hdecode
      · cases hdecode
      · rename_i declared sizeLength hsize
        obtain ⟨size, hfound, rfl, rfl⟩ := decodeSize_eq_some_iff.mp hsize
        cases hdecode
        exact ⟨id, size, hid, hshort, hfound, rfl⟩
  · rintro ⟨id, size, hid, hshort, hsize, rfl⟩
    simp only [decode, decodeId_eq_some_iff.mpr ⟨hid, hshort⟩,
      decodeSize_eq_some_iff.mpr ⟨size, hsize, rfl, rfl⟩]

/-- A heading has at least two bytes and at most twelve, all of them from the bytes it
was read from. -/
theorem decode_bounds
    {bytes : Bytes}
    {h : Heading}
    (hdecode : decode bytes = .ok (some h)) :
    2 ≤ h.length ∧ h.length ≤ maxLength ∧ h.length ≤ bytes.length := by
  obtain ⟨id, size, hid, hshort, hsize, rfl⟩ := decode_eq_some_iff.mp hdecode
  obtain ⟨hidPos, _, hidLength⟩ := Varint.decode_bounds hid
  obtain ⟨hsizePos, hsizeShort, hsizeLength⟩ := Varint.decode_bounds hsize
  rw [List.length_drop] at hsizeLength
  simp only [length, maxLength, maxIdLength] at hshort ⊢
  omega

/-- Only in no bytes there is neither a heading nor a defect. -/
theorem eq_nil_of_decode
    {bytes : Bytes}
    (h : decode bytes = .ok none) :
    bytes = [] := by
  cases bytes with
  | nil => rfl
  | cons first rest =>
      exfalso
      simp only [decode] at h
      split at h
      · simp at h
      · rename_i hid
        simp only [decodeId, Varint.decode] at hid
        split at hid
        · simp at hid
        · simp at hid
        · rename_i hnone
          split at hnone
          · simp at hnone
          · split at hnone <;> simp at hnone
        · split at hid <;> simp at hid
      · split at h <;> simp at h

/-- A heading is read from its own bytes, whatever comes after. -/
theorem decode_of_take
    {bytes other : Bytes}
    {h : Heading}
    (hdecode : decode bytes = .ok (some h))
    (hsame : other.take h.length = bytes.take h.length) :
    decode other = .ok (some h) := by
  obtain ⟨id, size, hid, hshort, hsize, rfl⟩ := decode_eq_some_iff.mp hdecode
  have hidBytes : other.take id.length = bytes.take id.length := by
    have htake := congrArg (List.take id.length) hsame
    simpa only [List.take_take, length, Nat.min_eq_left (Nat.le_add_right _ _)] using htake
  have hsizeBytes : (other.drop id.length).take size.length =
      (bytes.drop id.length).take size.length := by
    have hdrop := congrArg (List.drop id.length) hsame
    simpa only [List.drop_take, length, Nat.add_sub_cancel_left] using hdrop
  exact decode_eq_some_iff.mpr
    ⟨id, size, Varint.decode_of_take hid hidBytes, hshort,
      Varint.decode_of_take hsize hsizeBytes, rfl⟩

/-- Bytes behind the twelfth do not matter. -/
theorem decode_take
    {count : Nat}
    (hcount : maxLength ≤ count)
    (bytes : Bytes) :
    decode (bytes.take count) = decode bytes := by
  have hlong : 12 ≤ count := hcount
  have hid : decodeId (bytes.take count) = decodeId bytes := by
    simp only [decodeId, Varint.decode_take (show 8 ≤ count by omega)]
  simp only [decode, hid]
  cases hfound : decodeId bytes with
  | error defect => rfl
  | ok found =>
      cases found with
      | none => rfl
      | some id =>
          have hshort : id.length ≤ 4 := (decodeId_eq_some_iff.mp hfound).2
          simp only [decodeSize, List.drop_take,
            Varint.decode_take (show 8 ≤ count - id.length by omega)]

/-- A heading that can be written: its ID and its size are each well formed. -/
structure Legal (h : Heading) : Prop where
  id : (⟨h.id, h.idLength⟩ : Varint).WellFormed
  short : h.idLength ≤ maxIdLength
  pos : 1 ≤ h.sizeLength
  le : h.sizeLength ≤ 8
  fits : h.size.Fits h.sizeLength

instance (h : Heading) : Decidable h.Legal :=
  decidable_of_iff
    ((⟨h.id, h.idLength⟩ : Varint).WellFormed ∧ h.idLength ≤ maxIdLength ∧ 1 ≤ h.sizeLength ∧
      h.sizeLength ≤ 8 ∧ h.size.Fits h.sizeLength)
    ⟨fun ⟨id, short, pos, le, fits⟩ => ⟨id, short, pos, le, fits⟩,
      fun ⟨id, short, pos, le, fits⟩ => ⟨id, short, pos, le, fits⟩⟩

@[simp] theorem length_encode (h : Heading) : h.encode.length = h.length := by
  simp [encode, length]

theorem Legal.two_le {h : Heading} (hh : h.Legal) : 2 ≤ h.length := by
  have hid : 1 ≤ h.idLength := hh.id.pos
  have hsize := hh.pos
  simp only [length]
  omega

theorem Legal.le_maxLength {h : Heading} (hh : h.Legal) : h.length ≤ maxLength := by
  have hid := hh.short
  have hsize := hh.le
  simp only [length, maxLength, maxIdLength] at hid ⊢
  omega

/-- Reading a written heading gives it back, whatever comes after. -/
theorem decode_encode
    {h : Heading}
    (hh : h.Legal)
    (rest : Bytes) :
    decode (h.encode ++ rest) = .ok (some h) := by
  have hid : Varint.decode (h.encode ++ rest) = .ok (some ⟨h.id, h.idLength⟩) := by
    rw [encode, List.append_assoc]
    exact Varint.decode_encode hh.id _
  have hdrop : (h.encode ++ rest).drop h.idLength = (h.size.toVarint h.sizeLength).encode ++ rest := by
    rw [encode, List.append_assoc]
    exact List.drop_left' (Bytes.length_ofNat _ _)
  have hsize : Varint.decode ((h.encode ++ rest).drop h.idLength) =
      .ok (some (h.size.toVarint h.sizeLength)) := by
    rw [hdrop]
    exact Varint.decode_encode (DeclaredSize.toVarint_wellFormed hh.pos hh.le hh.fits) rest
  have hshort : ¬ maxIdLength < h.idLength := Nat.not_lt.mpr hh.short
  simp only [decode, decodeId, decodeSize, hid, if_neg hshort, hsize,
    DeclaredSize.ofVarint_toVarint hh.fits, DeclaredSize.length_toVarint]

end Heading

end EbmlReport
