import EbmlReport.Proofs.Headings

/-!
# The codec of headings

Writing a heading and reading one are inverse to each other.  A heading is read from its own
bytes only, and these are what is written for it, so no two byte strings of one pair of widths
stand for the same heading.  Bytes that stop inside a heading are cut short, wherever they stop.

A cut is told apart from the other defects by the order in which bytes are looked at.  The first
byte of a written heading has a marker of an allowed width, so that the ID is neither unmarked
nor too long, however many of its bytes are missing.  The size is looked at when the ID is whole.

**Results.**
* `Varint.decode_of_isPrefix`: an integer that is not all there is cut short.
* `Heading.legal_of_decode`: what was read can be written, and is written as it was read.
* `Heading.decode_of_isPrefix`: a heading that is not all there is cut short.
* `Heading.codec_exact`: reading and writing headings.
-/

namespace EbmlReport

namespace Varint

/-- Bytes that stop inside a written integer are cut short. -/
theorem decode_of_isPrefix
    {v : Varint}
    (hv : v.WellFormed)
    {bytes : Bytes}
    (hpart : bytes <+: v.encode)
    (hne : bytes ≠ [])
    (hproper : bytes ≠ v.encode) :
    decode bytes = .error .cutShort := by
  obtain ⟨more, hmore⟩ := hpart
  have hwhole : decode (bytes ++ more) = .ok (some v) := by
    rw [hmore]
    simpa using decode_encode hv []
  -- Whatever else `bytes` gave, they would give it with `more` behind them, too.
  cases hdecode : decode bytes with
  | error fault =>
      cases fault with
      | cutShort => rfl
      | unmarked =>
          rw [decode_append_of_unmarked hdecode more] at hwhole
          cases hwhole
  | ok found =>
      cases found with
      | none =>
          cases bytes with
          | nil => exact absurd rfl hne
          | cons first rest =>
              exfalso
              simp only [decode] at hdecode
              split at hdecode
              · cases hdecode
              · split at hdecode <;> cases hdecode
      | some found =>
          exfalso
          rw [decode_append hdecode more] at hwhole
          obtain rfl : found = v := by
            simpa using hwhole
          obtain ⟨_, _, hlong⟩ := decode_bounds hdecode
          have hsame : bytes = found.encode :=
            List.IsPrefix.eq_of_length_le ⟨more, hmore⟩ (by rwa [length_encode])
          exact hproper hsame

end Varint

namespace DeclaredSize

/-- The size that a stored integer stands for fits its width, and is stored as that integer. -/
theorem toVarint_ofVarint
    {v : Varint}
    (hv : v.WellFormed) :
    (ofVarint v).Fits v.length ∧ (ofVarint v).toVarint v.length = v := by
  obtain ⟨hdata, hv⟩ := hv.eq_ofData
  unfold ofVarint
  split
  · rename_i hreserved
    have hones : v.data = 2 ^ (7 * v.length) - 1 := by
      simpa [Varint.isReserved] using hreserved
    refine ⟨trivial, ?_⟩
    rw [toVarint, ← hones, ← hv]
  · rename_i hfree
    have hones : v.data ≠ 2 ^ (7 * v.length) - 1 := by
      simpa [Varint.isReserved] using hfree
    refine ⟨?_, ?_⟩
    · rw [Fits]
      omega
    · rw [toVarint, ← hv]

end DeclaredSize

namespace Heading

/-- A heading that was read can be written, and the bytes begin with what is written for it. -/
theorem legal_of_decode
    {bytes : Bytes}
    {h : Heading}
    (hdecode : decode bytes = .ok (some h)) :
    h.Legal ∧ bytes = h.encode ++ bytes.drop h.length := by
  obtain ⟨id, size, hid, hshort, hsize, rfl⟩ := decode_eq_some_iff.mp hdecode
  obtain ⟨hidFormed, hidBytes⟩ := Varint.eq_encode_of_decode hid
  obtain ⟨hsizeFormed, hsizeBytes⟩ := Varint.eq_encode_of_decode hsize
  obtain ⟨hfits, hstored⟩ := DeclaredSize.toVarint_ofVarint hsizeFormed
  refine ⟨⟨hidFormed, hshort, hsizeFormed.pos, hsizeFormed.le, hfits⟩, ?_⟩
  rw [List.drop_drop] at hsizeBytes
  rw [encode, hstored, length, List.append_assoc, ← hsizeBytes]
  exact hidBytes

/-- Bytes that stop inside a written heading are cut short. -/
theorem decode_of_isPrefix
    {h : Heading}
    (hh : h.Legal)
    {bytes : Bytes}
    (hpart : bytes <+: h.encode)
    (hne : bytes ≠ [])
    (hproper : bytes ≠ h.encode) :
    decode bytes = .error .cutShort := by
  have hsizeFormed := DeclaredSize.toVarint_wellFormed hh.pos hh.le hh.fits
  have hid : Varint.encode ⟨h.id, h.idLength⟩ <+: h.encode := List.prefix_append _ _
  by_cases hwhole : Varint.encode ⟨h.id, h.idLength⟩ <+: bytes
  · -- The ID is all there, and the bytes stop in front of the size or inside it.
    obtain ⟨front, rfl⟩ := hwhole
    have hdecodeId :
        decodeId (Varint.encode ⟨h.id, h.idLength⟩ ++ front) = .ok (some ⟨h.id, h.idLength⟩) :=
      decodeId_eq_some_iff.mpr ⟨Varint.decode_encode hh.id front, hh.short⟩
    have hdrop : (Varint.encode ⟨h.id, h.idLength⟩ ++ front).drop h.idLength = front :=
      List.drop_left' (Varint.length_encode _)
    have hfront : front <+: (h.size.toVarint h.sizeLength).encode :=
      (List.prefix_append_right_inj _).mp hpart
    have hfrontProper : front ≠ (h.size.toVarint h.sizeLength).encode := by
      rintro rfl
      exact hproper rfl
    simp only [decode, hdecodeId, hdrop]
    by_cases hempty : front = []
    · subst hempty
      rfl
    · simp only [decodeSize, Varint.decode_of_isPrefix hsizeFormed hfront hempty hfrontProper]
  · -- The bytes stop inside the ID.
    have hinside : bytes <+: Varint.encode ⟨h.id, h.idLength⟩ :=
      (List.prefix_or_prefix_of_prefix hpart hid).resolve_right hwhole
    have hidProper : bytes ≠ Varint.encode ⟨h.id, h.idLength⟩ := by
      rintro rfl
      exact hwhole (List.prefix_refl _)
    simp only [decode, decodeId, Varint.decode_of_isPrefix hh.id hinside hne hidProper]

/-- **Reading and writing headings.**  A legal heading is read from what is written for it,
whatever comes behind, and it takes the bytes of its ID and of its size.  A heading that was read
is legal, and what is written for it is what it was read from.  Bytes that stop inside a written
heading are cut short.  Whether or not there is a heading, the first twelve bytes tell it. -/
theorem codec_exact
    (h : Heading)
    (bytes : Bytes) :
    (h.Legal →
      h.encode.length = h.length ∧ h.length = h.idLength + h.sizeLength ∧
        decode (h.encode ++ bytes) = .ok (some h)) ∧
      (decode bytes = .ok (some h) → h.Legal ∧ bytes.take h.length = h.encode) ∧
      (h.Legal → bytes <+: h.encode → bytes ≠ [] → bytes ≠ h.encode →
        decode bytes = .error .cutShort) ∧
      decode bytes = decode (bytes.take 12) := by
  refine ⟨?_, ?_, ?_, ?_⟩
  · intro hh
    exact ⟨h.length_encode, rfl, decode_encode hh bytes⟩
  · intro hdecode
    obtain ⟨hh, hbytes⟩ := legal_of_decode hdecode
    refine ⟨hh, ?_⟩
    rw [hbytes, List.take_left' h.length_encode]
  · intro hh
    exact decode_of_isPrefix hh
  · exact (decode_take (Nat.le_refl _) bytes).symm

/-- The longest heading there is.  Its ID is all ones but for the marker, its size is not known,
and the bytes that stop in front of the last one are cut short. -/
theorem codec_exact_longest :
    let h : Heading := ⟨0x1FFFFFFF, 4, .unknown, 8⟩
    let bytes : Bytes :=
      [0x1F, 0xFF, 0xFF, 0xFF, 0x01, 0xFF, 0xFF, 0xFF, 0xFF, 0xFF, 0xFF, 0xFF]
    h.Legal ∧ h.encode = bytes ∧ decode (bytes ++ [0xEC, 0x80]) = .ok (some h) ∧
      decode bytes = .ok (some h) ∧ bytes.take h.length = h.encode ∧
      bytes.take 11 ≠ [] ∧ decode (bytes.take 11) = .error .cutShort := by
  intro h bytes
  have hh : h.Legal := by decide
  have hencode : h.encode = bytes := by decide
  have hread : decode bytes = .ok (some h) := by
    have hwritten := ((codec_exact h []).1 hh).2.2
    rwa [List.append_nil, hencode] at hwritten
  have hbehind : decode (bytes ++ [0xEC, 0x80]) = .ok (some h) := by
    rw [← hencode]
    exact ((codec_exact h [0xEC, 0x80]).1 hh).2.2
  have hcut : decode (bytes.take 11) = .error .cutShort :=
    (codec_exact h (bytes.take 11)).2.2.1 hh (hencode ▸ List.take_prefix 11 bytes)
      (by decide) (by decide)
  exact ⟨hh, hencode, hbehind, hread, ((codec_exact h bytes).2.1 hread).2, by decide, hcut⟩

end Heading

/-- A width that no ID has is told when all the bytes that it announces are there, and not
before. -/
example :
    Heading.decode [0x08, 0, 0, 0] = .error .cutShort ∧
      Heading.decode [0x08, 0, 0, 0, 0] = .error (.idTooLong 5) :=
  ⟨rfl, rfl⟩

end EbmlReport
