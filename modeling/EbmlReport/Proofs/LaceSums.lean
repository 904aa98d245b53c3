import EbmlReport.Proofs.BlockBytes
import Mathlib.Tactic.Ring

/-!
# The sum of the sizes of a lace

The sizes of a table are added up as numbers of 64 bits.  A Xiph table of a size takes a byte
for each 255 of it, so the sum is small.  An entry of an EBML table takes at most eight bytes,
which raises a size by no more than `2 ^ 55` over the one before; with at most 255 entries each
size stays below `2 ^ 63`, but 31 of them suffice for a sum beyond 64 bits.

**Results.**
* `Lacing.total_le_of_xiphTable`, `Lacing.bounds_of_ebmlTable`: what sizes a table can have.
* `Lacing.holds_of_readTable`, `Lacing.Holds.readTable_eq`: reading a table to its end.
* `BlockHead.HoldsTable.decode_eq`: what is read from a block with a whole table.
* `BlockHead.decode_lace_sums`: which blocks have sizes with a sum, and what happens to others.
-/

namespace Except

variable {ε α β : Type}

theorem map_eq_error
    {f : α → β}
    {x : Except ε α}
    {e : ε} :
    x.map f = .error e ↔ x = .error e := by
  cases x <;> simp [Except.map]

end Except

namespace EbmlReport

namespace Varint

/-- No width holds a difference above half the range of eight bytes. -/
theorem le_of_holdsSigned
    {length : Nat}
    {n : Int}
    (hpos : 1 ≤ length)
    (hle : length ≤ 8)
    (h : HoldsSigned length n) :
    n ≤ (2 ^ 55 : Nat) := by
  obtain ⟨_, hhigh⟩ := h
  have hhalf : 2 ^ (7 * length) = 2 ^ (7 * length - 1) * 2 := by
    rw [← Nat.pow_succ]
    congr 1
    omega
  have hwide : 2 ^ (7 * length - 1) ≤ 2 ^ 55 := Nat.pow_le_pow_right (by decide) (by omega)
  have hbias : bias length = (2 ^ (7 * length - 1) : Nat) - 1 := rfl
  rw [hbias] at hhigh
  omega

end Varint

namespace Matroska

namespace Lacing

section Bounds

variable {lengths sizes : List Nat}

/-- A Xiph table has a byte for each 255 of its sizes. -/
theorem total_le_of_xiphTable (sizes : List Nat) :
    total sizes ≤ 255 * (xiphTable sizes).length := by
  induction sizes with
  | nil => exact Nat.le_refl 0
  | cons size sizes ih =>
      rw [xiphTable] at ih
      rw [total_cons, xiphTable, List.flatMap_cons, List.length_append, xiphEntry,
        List.length_append, List.length_replicate, List.length_singleton]
      omega

/-- An entry raises a size by at most `2 ^ 55`, so the sizes lie below an arithmetic sequence. -/
theorem bounds_of_entriesFit
    {previous k : Nat}
    (h : EntriesFit (some previous) lengths sizes)
    (hprevious : previous < k * 2 ^ 55) :
    (∀ size ∈ sizes, size < (k + sizes.length) * 2 ^ 55) ∧
      2 * total sizes ≤ sizes.length * (2 * k + sizes.length + 1) * 2 ^ 55 := by
  induction sizes generalizing previous lengths k with
  | nil => simp
  | cons size sizes ih =>
      cases lengths with
      | nil => exact h.elim
      | cons length lengths =>
          obtain ⟨⟨hpos, hle, hfits⟩, hrest⟩ := h
          have hstep := Varint.le_of_holdsSigned hpos hle hfits
          have hsize : size < (k + 1) * 2 ^ 55 := by omega
          obtain ⟨hlater, htotal⟩ := ih hrest hsize
          have hsum : (sizes.length + 1) * (2 * k + (sizes.length + 1) + 1) * 2 ^ 55 =
              2 * ((k + 1) * 2 ^ 55) +
                sizes.length * (2 * (k + 1) + sizes.length + 1) * 2 ^ 55 := by
            ring
          have hmore : (k + (sizes.length + 1)) * 2 ^ 55 = (k + 1 + sizes.length) * 2 ^ 55 := by
            ring
          rw [List.length_cons, total_cons, hsum, hmore]
          refine ⟨List.forall_mem_cons.mpr ⟨?_, hlater⟩, by omega⟩
          exact Nat.lt_of_lt_of_le hsize (Nat.mul_le_mul_right _ (Nat.le_add_right _ _))

/-- The sizes of a whole EBML table, of which the first stands for itself. -/
theorem bounds_of_ebmlTable (h : EntriesFit .none lengths sizes) :
    (∀ size ∈ sizes, size < (sizes.length + 1) * 2 ^ 55) ∧
      2 * total sizes ≤ sizes.length * (sizes.length + 3) * 2 ^ 55 := by
  cases sizes with
  | nil => simp
  | cons size sizes =>
      cases lengths with
      | nil => exact h.elim
      | cons length lengths =>
          obtain ⟨⟨hpos, hle, hfits⟩, hrest⟩ := h
          have hwide : 2 ^ (7 * length) ≤ 2 * 2 ^ 55 :=
            Nat.pow_le_pow_right (by decide) (by omega : 7 * length ≤ 56)
          have hsize : size < 2 * 2 ^ 55 := Nat.lt_of_lt_of_le hfits hwide
          obtain ⟨hlater, htotal⟩ := bounds_of_entriesFit hrest hsize
          have hsum : (sizes.length + 1) * (sizes.length + 1 + 3) * 2 ^ 55 =
              2 * (2 * 2 ^ 55) + sizes.length * (2 * 2 + sizes.length + 1) * 2 ^ 55 := by
            ring
          have hmore : (sizes.length + 1 + 1) * 2 ^ 55 = (2 + sizes.length) * 2 ^ 55 := by
            ring
          rw [List.length_cons, total_cons, hsum, hmore]
          refine ⟨List.forall_mem_cons.mpr ⟨?_, hlater⟩, by omega⟩
          exact Nat.lt_of_lt_of_le hsize (Nat.mul_le_mul_right _ (Nat.le_add_right _ _))

end Bounds

section Tables

variable {lacing : Lacing} {count tableLength remaining : Nat} {table rest : Bytes}
  {held : List Nat} {defect : BlockDefect}

/-- The bytes are a table of these sizes, those of all frames but the last. -/
def Holds (lacing : Lacing) (held : List Nat) (table : Bytes) : Prop :=
  held.length ≤ 255 ∧
    match lacing with
    | none => False
    | fixed => False
    | xiph => table = xiphTable held
    | ebml => ∃ lengths, EntriesFit .none lengths held ∧ table = ebmlTable .none lengths held

theorem Holds.hasTable (h : lacing.Holds held table) : lacing.HasTable := by
  cases lacing with
  | none => exact h.2.elim
  | fixed => exact h.2.elim
  | xiph => exact Or.inl rfl
  | ebml => exact Or.inr rfl

/-- Each size of a table that is not too long stays below `2 ^ 63`. -/
theorem Holds.size_lt
    (h : lacing.Holds held table)
    (hshort : table.length < 2 ^ 48) :
    ∀ size ∈ held, size < 2 ^ 63 := by
  obtain ⟨hcount, htable⟩ := h
  cases lacing with
  | none => exact htable.elim
  | fixed => exact htable.elim
  | xiph =>
      subst htable
      intro size hmem
      have hsize := le_total_of_mem hmem
      have htotal := total_le_of_xiphTable held
      omega
  | ebml =>
      obtain ⟨lengths, hfits, _⟩ := htable
      intro size hmem
      have hsize := (bounds_of_ebmlTable hfits).1 size hmem
      omega

/-- A Xiph table that is not too long, and a table of few sizes, have a sum of 64 bits. -/
theorem Holds.total_lt
    (h : lacing.Holds held table)
    (hshort : table.length < 2 ^ 48)
    (hsmall : lacing = xiph ∨ held.length ≤ 30) :
    total held < 2 ^ 64 := by
  obtain ⟨_, htable⟩ := h
  cases lacing with
  | none => exact htable.elim
  | fixed => exact htable.elim
  | xiph =>
      subst htable
      have htotal := total_le_of_xiphTable held
      omega
  | ebml =>
      obtain ⟨lengths, hfits, _⟩ := htable
      have hfew : held.length ≤ 30 := hsmall.resolve_left (by decide)
      have hcount : held.length * (held.length + 3) ≤ 30 * 33 :=
        Nat.mul_le_mul hfew (by omega)
      have htotal := (bounds_of_ebmlTable hfits).2
      omega

/-- A table is read to its end, whatever comes after. -/
theorem Holds.readTable_eq
    (h : lacing.Holds held table)
    (rest : Bytes) :
    lacing.readTable (held.length + 1) (table ++ rest) = .ok (held, rest) := by
  obtain ⟨hcount, htable⟩ := h
  cases lacing with
  | none => exact htable.elim
  | fixed => exact htable.elim
  | xiph =>
      subst htable
      exact xiphSizes_xiphTable held rest
  | ebml =>
      obtain ⟨lengths, hfits, rfl⟩ := htable
      have hbound : ∀ size ∈ held, size < sizeBound := by
        intro size hmem
        have hsize := (bounds_of_ebmlTable hfits).1 size hmem
        simp only [sizeBound]
        omega
      exact ebmlSizes_of_entriesFit hfits hbound rest

/-- What is read to its end is a table, and the rest comes after. -/
theorem holds_of_readTable
    (hlacing : lacing.HasTable)
    (hpos : 1 ≤ count)
    (hle : count ≤ 256)
    (h : lacing.readTable count table = .ok (held, rest)) :
    held.length + 1 = count ∧ ∃ front, lacing.Holds held front ∧ table = front ++ rest := by
  rcases hlacing with rfl | rfl
  · have hcount := length_xiphSizes h
    have htable := eq_xiphTable_of_xiphSizes h
    exact ⟨by omega, _, ⟨by omega, rfl⟩, htable⟩
  · have hcount := length_ebmlSizes h
    obtain ⟨lengths, hfits, htable⟩ := eq_ebmlTable_of_ebmlSizes h
    exact ⟨by omega, _, ⟨by omega, lengths, hfits, rfl⟩, htable⟩

theorem xiphSize_error (h : xiphSize table = .error defect) : defect = .cutShort := by
  induction table with
  | nil => simpa [xiphSize] using h.symm
  | cons byte table ih =>
      rw [xiphSize] at h
      split at h
      · split at h
        · simp at h
        · rename_i hmore
          exact ih (hmore.trans h)
      · simp at h

theorem xiphSizes_error (h : xiphSizes count table = .error defect) : defect = .cutShort := by
  induction count generalizing table with
  | zero => simp [xiphSizes] at h
  | succ count ih =>
      rw [xiphSizes] at h
      split at h
      · rename_i hfirst
        obtain rfl := Except.error.inj h
        exact xiphSize_error hfirst
      · split at h
        · rename_i hlater
          exact ih (hlater.trans h)
        · simp at h

theorem ebmlSize_error
    {previous : Option Nat}
    {entry : Varint}
    (h : ebmlSize previous entry = .error defect) :
    defect = .laceSizes := by
  cases previous with
  | none => simp [ebmlSize] at h
  | some previous =>
      simp only [ebmlSize] at h
      split at h
      · simp at h
      · simpa using h.symm

theorem ebmlSizes_error
    {previous : Option Nat}
    (h : ebmlSizes count previous table = .error defect) :
    defect = .cutShort ∨ defect = .laceSizes := by
  induction count generalizing previous table with
  | zero => simp [ebmlSizes] at h
  | succ count ih =>
      rw [ebmlSizes] at h
      split at h
      · exact Or.inr (by simpa using h.symm)
      · exact Or.inl (by simpa using h.symm)
      · exact Or.inl (by simpa using h.symm)
      · split at h
        · rename_i hsize
          obtain rfl := Except.error.inj h
          exact Or.inr (ebmlSize_error hsize)
        · split at h
          · rename_i hlater
            exact ih (hlater.trans h)
          · simp at h

/-- Reading a table fails at its end or at an entry that stands for no size. -/
theorem readTable_error (h : lacing.readTable count table = .error defect) :
    defect = .cutShort ∨ defect = .laceSizes := by
  cases lacing with
  | none => simp [readTable] at h
  | fixed => simp [readTable] at h
  | xiph => exact Or.inl (xiphSizes_error h)
  | ebml => exact ebmlSizes_error h

/-- A whole table leaves nothing cut short: the sizes may only not add up, or have no sum. -/
theorem closeSizes_error (h : closeSizes held tableLength remaining = .error defect) :
    defect = .laceSizes ∨ defect = .sumOverflow := by
  rw [closeSizes_eq] at h
  split at h
  · exact Or.inl (Except.error.inj h).symm
  · split at h
    · exact Or.inr (Except.error.inj h).symm
    · split at h
      · exact Or.inl (Except.error.inj h).symm
      · simp at h

/-- The sizes have no sum when it does not fit 64 bits, and it was asked for. -/
theorem closeSizes_eq_sumOverflow_iff :
    closeSizes held tableLength remaining = .error .sumOverflow ↔
      tableLength ≤ remaining ∧ 2 ^ 64 ≤ total held := by
  rw [closeSizes_eq, sizeBound]
  split
  · simp only [reduceCtorEq, Except.error.injEq, false_iff]
    omega
  · split
    · simp only [true_iff]
      omega
    · split <;> simp only [reduceCtorEq, Except.error.injEq, false_iff] <;> omega

/-- Sizes that are too large for the block are refused. -/
theorem closeSizes_of_lt (h : remaining < tableLength + total held) :
    closeSizes held tableLength remaining =
      .error (if tableLength ≤ remaining ∧ 2 ^ 64 ≤ total held then .sumOverflow
        else .laceSizes) := by
  rw [closeSizes_eq, sizeBound]
  split
  · rw [if_neg (by omega)]
  · split
    · rw [if_pos (by omega)]
    · rw [if_pos (by omega), if_neg (by omega)]

/-- Only the sizes of a table that was read to its end are added up. -/
theorem readTable_of_sumOverflow
    (h : lacing.sizes count table remaining = .error .sumOverflow) :
    lacing.HasTable ∧ ∃ held rest, lacing.readTable count table = .ok (held, rest) := by
  have hlacing := hasTable_of_error h (by decide)
  refine ⟨hlacing, ?_⟩
  rw [sizes_of_hasTable hlacing] at h
  cases hread : lacing.readTable count table with
  | ok found => exact ⟨found.1, found.2, rfl⟩
  | error defect =>
      rw [hread] at h
      obtain rfl := Except.error.inj h
      rcases readTable_error hread with hdefect | hdefect <;> simp at hdefect

end Tables

end Lacing

namespace BlockHead

section Sums

variable {bytes rest table : Bytes} {lacing : Lacing} {fixedLength remaining length : Nat}
  {whole : Bool} {held : List Nat}

/-- The block has a lace, and behind its first `fixedLength` bytes stands a whole table of these
sizes. -/
def HoldsTable (bytes : Bytes) (lacing : Lacing) (fixedLength : Nat) (held : List Nat)
    (table : Bytes) : Prop :=
  ∃ track high low flags rest,
    Begins bytes track high low flags (UInt8.ofNat held.length :: (table ++ rest)) ∧
      .ofFlags flags = lacing ∧ lacing.Holds held table ∧ fixedLength = track.length + 4

theorem HoldsTable.length_le (h : HoldsTable bytes lacing fixedLength held table) :
    fixedLength + table.length ≤ bytes.length := by
  obtain ⟨track, high, low, flags, rest, hbegins, _, _, hfixed⟩ := h
  have hlength := hbegins.length_eq
  rw [List.length_cons, List.length_append] at hlength
  omega

theorem HoldsTable.holds (h : HoldsTable bytes lacing fixedLength held table) :
    lacing.Holds held table := by
  obtain ⟨_, _, _, _, _, _, _, hholds, _⟩ := h
  exact hholds

/-- A sum beyond 64 bits takes an EBML table of no fewer than 31 sizes. -/
theorem HoldsTable.of_le_total
    (h : HoldsTable bytes lacing fixedLength held table)
    (hshort : bytes.length < 2 ^ 48)
    (htotal : 2 ^ 64 ≤ Lacing.total held) :
    lacing = .ebml ∧ 31 ≤ held.length := by
  have hlength := h.length_le
  have hholds := h.holds
  have hlarge : ¬ (lacing = .xiph ∨ held.length ≤ 30) := by
    intro hsmall
    have hsum := hholds.total_lt (by omega) hsmall
    omega
  rw [not_or] at hlarge
  exact ⟨hholds.hasTable.resolve_left hlarge.1, by omega⟩

/-- With a whole table at hand the sizes are known or wrong. -/
theorem sizesOf?_of_holds
    (h : lacing.Holds held table)
    (rest : Bytes)
    (remaining : Nat)
    (whole : Bool) :
    sizesOf? lacing (held.length + 1) (table ++ rest) remaining whole =
      (Lacing.closeSizes held table.length remaining).map some := by
  have hsizes : lacing.sizes (held.length + 1) (table ++ rest) remaining =
      Lacing.closeSizes held table.length remaining := by
    rw [Lacing.sizes_of_hasTable h.hasTable, h.readTable_eq rest]
    simp only [List.length_append, Nat.add_sub_cancel]
  rw [sizesOf?, hsizes]
  cases hclose : Lacing.closeSizes held table.length remaining with
  | ok sizes => rfl
  | error defect => rcases Lacing.closeSizes_error hclose with rfl | rfl <;> rfl

/-- What is read from a block with a whole table depends on the sizes in it and on the length of
the block. -/
theorem HoldsTable.decode_eq (h : HoldsTable bytes lacing fixedLength held table) :
    ∃ head : BlockHead, head.lacing = lacing ∧ head.frameCount = held.length + 1 ∧
      ∀ length, decode bytes length =
        if length < fixedLength then .error .cutShort
        else (Lacing.closeSizes held table.length (length - fixedLength)).map
          fun sizes => { head with frameSizes := some sizes } := by
  obtain ⟨track, high, low, flags, rest, hbegins, hflags, hholds, hfixed⟩ := h
  have hlaced : lacing ≠ .none := by
    rintro rfl
    exact hholds.2.elim
  have hlast : (UInt8.ofNat held.length).toNat = held.length := by
    have hcount := hholds.1
    rw [UInt8.toNat_ofNat']
    omega
  refine ⟨⟨track.data, Bytes.signed [high, low], flags, held.length + 1, none⟩, hflags, rfl, ?_⟩
  intro length
  rw [hbegins.decode_eq, hflags, frames_laced hlaced, hlast, sizesOf?_of_holds hholds, hfixed]
  split
  · rfl
  · cases Lacing.closeSizes held table.length (length - (track.length + 4)) <;> rfl

/-- A block with a whole table has no unknown sizes. -/
theorem HoldsTable.frameSizes_ne_none
    {head : BlockHead}
    (h : HoldsTable bytes lacing fixedLength held table)
    (hdecode : decode bytes length = .ok head) :
    head.frameSizes ≠ none := by
  obtain ⟨_, _, _, hread⟩ := h.decode_eq
  rw [hread] at hdecode
  split at hdecode
  · simp at hdecode
  · cases hclose : Lacing.closeSizes held table.length (length - fixedLength) with
    | error defect => simp [hclose, Except.map] at hdecode
    | ok sizes =>
        rw [hclose] at hdecode
        obtain rfl := Except.ok.inj hdecode
        simp

/-- A table stays whole when all the bytes up to its end are kept. -/
theorem HoldsTable.take
    (h : HoldsTable bytes lacing fixedLength held table)
    {kept : Nat}
    (hkept : fixedLength + table.length ≤ kept) :
    HoldsTable (bytes.take kept) lacing fixedLength held table := by
  obtain ⟨track, high, low, flags, rest, hbegins, hflags, hholds, rfl⟩ := h
  have hpart := hbegins.take kept (by omega)
  have htable : table.take (kept - (track.length + 4)) = table :=
    List.take_of_length_le (by omega)
  rw [show kept - (track.length + 3) = kept - (track.length + 4) + 1 by omega, List.take_succ_cons,
    List.take_append, htable] at hpart
  exact ⟨track, high, low, flags, _, hpart, hflags, hholds, rfl⟩

/-- Only sizes that were read are added up. -/
theorem sizes_of_frames_sumOverflow
    (h : frames lacing rest fixedLength length whole = .error .sumOverflow) :
    ∃ last table, rest = last :: table ∧
      lacing.sizes (last.toNat + 1) table (length - (fixedLength + 1)) =
        .error .sumOverflow := by
  by_cases hlaced : lacing = .none
  · rw [hlaced, frames_none] at h
    split at h <;> simp at h
  · cases rest with
    | nil => simp [frames_nil hlaced] at h
    | cons last table =>
        refine ⟨last, table, rfl, ?_⟩
        rw [frames_laced hlaced, sizesOf?] at h
        split at h
        · simp at h
        · cases hsizes : lacing.sizes (last.toNat + 1) table (length - (fixedLength + 1)) with
          | ok sizes => simp [hsizes, Except.map] at h
          | error defect =>
              rw [hsizes] at h
              cases defect with
              | sumOverflow => rfl
              | cutShort => cases whole <;> simp [Except.map] at h
              | _ => simp [Except.map] at h

/-- Reading a block ends with an overflow at a whole table only. -/
theorem holdsTable_of_sumOverflow (h : decode bytes length = .error .sumOverflow) :
    ∃ lacing fixedLength held table, HoldsTable bytes lacing fixedLength held table := by
  rcases begins_or_refused bytes with
    ⟨track, high, low, flags, rest, hbegins⟩ | ⟨_, hcut⟩ | hunmarked
  · rw [hbegins.decode_eq, Except.map_eq_error] at h
    obtain ⟨last, table, rfl, hsizes⟩ := sizes_of_frames_sumOverflow h
    obtain ⟨hlacing, held, rest, hread⟩ := Lacing.readTable_of_sumOverflow hsizes
    have hlast := last.toNat_lt
    obtain ⟨hcount, front, hholds, rfl⟩ :=
      Lacing.holds_of_readTable hlacing (by omega) (by omega) hread
    have hbyte : UInt8.ofNat held.length = last := by
      rw [show held.length = last.toNat by omega, UInt8.ofNat_toNat]
    rw [← hbyte] at hbegins
    exact ⟨_, _, held, front, track, high, low, flags, rest, hbegins, rfl, hholds, rfl⟩
  · simp [hcut] at h
  · simp [decode_of_unmarked hunmarked] at h

/-- A whole table ends the reading with an overflow when it fits the block, and its sizes have no
sum of 64 bits. -/
theorem HoldsTable.decode_eq_sumOverflow_iff
    (h : HoldsTable bytes lacing fixedLength held table)
    (length : Nat) :
    decode bytes length = .error .sumOverflow ↔
      fixedLength + table.length ≤ length ∧ 2 ^ 64 ≤ Lacing.total held := by
  obtain ⟨head, _, _, hdecode⟩ := h.decode_eq
  rw [hdecode]
  split
  · simp only [Except.error.injEq, reduceCtorEq, false_iff]
    omega
  · rw [Except.map_eq_error, Lacing.closeSizes_eq_sumOverflow_iff]
    constructor <;> rintro ⟨hfit, htotal⟩ <;> exact ⟨by omega, htotal⟩

/-- Reading ends with an overflow exactly when the block holds a whole EBML table, of no fewer
than 31 sizes, whose sum does not fit 64 bits. -/
theorem decode_eq_sumOverflow_iff (hshort : bytes.length < 2 ^ 48) :
    decode bytes length = .error .sumOverflow ↔
      ∃ fixedLength held table, HoldsTable bytes .ebml fixedLength held table ∧
        31 ≤ held.length ∧ 2 ^ 64 ≤ Lacing.total held ∧ fixedLength + table.length ≤ length := by
  constructor
  · intro h
    obtain ⟨lacing, fixedLength, held, table, hholds⟩ := holdsTable_of_sumOverflow h
    obtain ⟨hfit, htotal⟩ := (hholds.decode_eq_sumOverflow_iff length).mp h
    obtain ⟨rfl, hcount⟩ := hholds.of_le_total hshort htotal
    exact ⟨fixedLength, held, table, hholds, hcount, htotal, hfit⟩
  · rintro ⟨fixedLength, held, table, hholds, _, htotal, hfit⟩
    exact (hholds.decode_eq_sumOverflow_iff length).mpr ⟨hfit, htotal⟩

/-- **The sum of the sizes of a lace.**  No size of a table passes `2 ^ 63`.  The sum of a Xiph
table, or of up to 30 sizes, does not pass 64 bits, and sizes that leave the block are refused.
An EBML table of 31 sizes or more can have a sum beyond 64 bits.  These, and no other blocks, end
the reading with an overflow, unless already the table itself leaves the block. -/
theorem decode_lace_sums
    (hshort : bytes.length < 2 ^ 48)
    (length : Nat) :
    (∀ lacing fixedLength held table,
      HoldsTable bytes lacing fixedLength held table →
        (∀ size ∈ held, size < 2 ^ 63) ∧
          (lacing = .xiph ∨ held.length ≤ 30 → Lacing.total held < 2 ^ 64) ∧
          (fixedLength ≤ length → length < fixedLength + table.length + Lacing.total held →
            decode bytes length =
              .error (if fixedLength + table.length ≤ length ∧ 2 ^ 64 ≤ Lacing.total held then
                .sumOverflow else .laceSizes))) ∧
      (decode bytes length = .error .sumOverflow ↔
        ∃ fixedLength held table, HoldsTable bytes .ebml fixedLength held table ∧
          31 ≤ held.length ∧ 2 ^ 64 ≤ Lacing.total held ∧
          fixedLength + table.length ≤ length) := by
  refine ⟨?_, decode_eq_sumOverflow_iff hshort⟩
  intro lacing fixedLength held table hholds
  have hlength := hholds.length_le
  refine ⟨?_, ?_, ?_⟩
  · exact hholds.holds.size_lt (by omega)
  · exact hholds.holds.total_lt (by omega)
  · intro hfixed hlarge
    obtain ⟨head, _, _, hdecode⟩ := hholds.decode_eq
    have hfits : table.length ≤ length - fixedLength ↔ fixedLength + table.length ≤ length := by
      omega
    rw [hdecode, if_neg (by omega), Lacing.closeSizes_of_lt (by omega), Except.map_eq_error]
    simp only [hfits]

/-- Two frames whose sizes are told, in a block that is a byte too short for them. -/
theorem decode_lace_sums_ebml :
    let bytes : Bytes := [0x81, 0x00, 0x00, 0x06, 0x02, 0x8A, 0xBF]
    bytes.length < 2 ^ 48 ∧ HoldsTable bytes .ebml 5 [10, 10] [0x8A, 0xBF] ∧
      5 + 2 + Lacing.total [10, 10] = 27 ∧ decode bytes 26 = .error .laceSizes := by
  intro bytes
  have hshort : bytes.length < 2 ^ 48 := by decide
  have hholds : HoldsTable bytes .ebml 5 [10, 10] [0x8A, 0xBF] :=
    ⟨⟨129, 1⟩, 0, 0, 6, [], ⟨by decide, by decide⟩, rfl,
      ⟨by decide, [1, 1], by decide, by decide⟩, rfl⟩
  have hsums := (decode_lace_sums hshort 26).1 _ _ _ _ hholds
  exact ⟨hshort, hholds, rfl, hsums.2.2 (by decide) (by decide)⟩

/-- A block of 33 frames.  The size of the first is half of `2 ^ 55`, and each that is told later
is `2 ^ 55` larger than the one before, the most that an entry of eight bytes can raise it.  The
sizes of 32 frames add up to `2 ^ 64`, far more than the block has, but they are not refused for
that: the addition itself fails. -/
theorem decode_sum_beyond_words :
    let table : Bytes := [0x01, 0x40, 0, 0, 0, 0, 0, 0] ++
      (List.replicate 31 [0x01, 0xFF, 0xFF, 0xFF, 0xFF, 0xFF, 0xFF, 0xFF]).flatten
    let bytes : Bytes := [0x81, 0x00, 0x00, 0x06, 0x20] ++ table
    let held := (List.range 32).map fun i => (2 * i + 1) * 2 ^ 54
    bytes.length = 261 ∧ HoldsTable bytes .ebml 5 held table ∧
      Lacing.total held = 2 ^ 64 ∧ bytes.length < 5 + table.length + Lacing.total held ∧
      decode bytes bytes.length = .error .sumOverflow ∧
      decode bytes bytes.length ≠ .error .laceSizes := by
  intro table bytes held
  have hread : decode bytes bytes.length = .error .sumOverflow := by decide +kernel
  refine ⟨by decide +kernel, ?_, by decide +kernel, by decide +kernel, hread, by simp [hread]⟩
  exact ⟨⟨129, 1⟩, 0, 0, 6, [], ⟨by decide, by decide +kernel⟩, rfl,
    ⟨by decide +kernel, List.replicate 32 8, by decide +kernel, by decide +kernel⟩, rfl⟩

end Sums

end BlockHead

end Matroska

end EbmlReport
