import EbmlReport.Matroska.BlockHead
import EbmlReport.Proofs.Headings

/-!
# Reading undoes writing: blocks

A block is written from its track, timecode and flags and from its frames, one behind the
other.  A laced block has the count of the frames, less one, before them, and a table of the
sizes of all but the last.  An entry of an EBML table may be wider than it needs to be, so
a draft of a block also tells the width of each.

**Results.**
* `Varint.signed_ofSigned`: a difference that a width holds is read back.
* `Lacing.xiphSizes_xiphTable`, `Lacing.ebmlSizes_ebmlTable`: a written table is read to its
  end, whatever comes after.
* `Lacing.sizes_table`: with the frames behind it, a written table gives the size of each.
* `BlockHead.decode_written`: the header of a written block is read, sizes included.
-/

namespace EbmlReport

namespace Varint

/-- The place of zero in the range of data, from which differences are counted. -/
def bias (length : Nat) : Int := 2 ^ (7 * length - 1) - 1

/-- The stored integer of the given width for a difference. -/
def ofSigned (length : Nat) (n : Int) : Varint :=
  ofData length (n + bias length).toNat

/-- A width can hold a difference. -/
def HoldsSigned (length : Nat) (n : Int) : Prop :=
  0 ≤ n + bias length ∧ n + bias length < (2 ^ (7 * length) : Nat)

instance (length : Nat) (n : Int) : Decidable (HoldsSigned length n) :=
  inferInstanceAs (Decidable (_ ∧ _))

theorem toNat_lt_of_holdsSigned
    {length : Nat}
    {n : Int}
    (h : HoldsSigned length n) :
    (n + bias length).toNat < 2 ^ (7 * length) := by
  obtain ⟨hlow, hhigh⟩ := h
  omega

/-- A difference that a width holds is read back. -/
theorem signed_ofSigned
    {length : Nat}
    {n : Int}
    (h : HoldsSigned length n) :
    (ofSigned length n).signed = n := by
  have hdata : (ofSigned length n).data = (n + bias length).toNat :=
    data_ofData (toNat_lt_of_holdsSigned h)
  have hcast := Int.toNat_of_nonneg h.1
  rw [signed, hdata, hcast]
  exact Int.add_sub_cancel ..

end Varint

namespace Matroska

namespace Lacing

/-- The bytes that frames of these sizes take. -/
def total (sizes : List Nat) : Nat :=
  sizes.foldr (· + ·) 0

@[simp] theorem total_nil : total [] = 0 := rfl

@[simp] theorem total_cons (size : Nat) (sizes : List Nat) :
    total (size :: sizes) = size + total sizes := rfl

theorem total_append (front back : List Nat) :
    total (front ++ back) = total front + total back := by
  induction front with
  | nil => simp
  | cons size front ih =>
      rw [List.cons_append, total_cons, ih, total_cons, Nat.add_assoc]

theorem le_total_of_mem
    {sizes : List Nat}
    {size : Nat}
    (h : size ∈ sizes) :
    size ≤ total sizes := by
  induction sizes with
  | nil => simp at h
  | cons first sizes ih =>
      rw [total_cons]
      rcases List.mem_cons.mp h with rfl | hlater
      · exact Nat.le_add_right _ _
      · exact Nat.le_trans (ih hlater) (Nat.le_add_left _ _)

theorem total_replicate (count size : Nat) :
    total (List.replicate count size) = count * size := by
  induction count with
  | zero => simp
  | succ count ih =>
      rw [List.replicate_succ, total_cons, ih, Nat.succ_mul, Nat.add_comm]

/-- Frames that stand one behind the other take the sum of their sizes. -/
theorem length_flatten (frames : List Bytes) :
    frames.flatten.length = total (frames.map List.length) := by
  induction frames with
  | nil => rfl
  | cons frame frames ih =>
      rw [List.flatten_cons, List.length_append, ih, List.map_cons, total_cons]

/-- The two bits of the flags that name a lacing, as a number. -/
def code : Lacing → Nat
  | none => 0
  | xiph => 1
  | fixed => 2
  | ebml => 3

/-- A size in a Xiph table: bytes of 255 and one that is less. -/
def xiphEntry (size : Nat) : Bytes :=
  List.replicate (size / 255) 255 ++ [UInt8.ofNat (size % 255)]

/-- A Xiph table of all the sizes. -/
def xiphTable (sizes : List Nat) : Bytes :=
  sizes.flatMap xiphEntry

/-- A size in an EBML table: the first one as it is, a later one as the difference from the
one before. -/
def ebmlEntry (previous : Option Nat) (length size : Nat) : Varint :=
  match previous with
  | .none => .ofData length size
  | some previous => .ofSigned length ((size : Int) - previous)

/-- An EBML table of all the sizes, each in the width that stands beside it. -/
def ebmlTable (previous : Option Nat) : (lengths sizes : List Nat) → Bytes
  | length :: lengths, size :: sizes =>
      (ebmlEntry previous length size).encode ++ ebmlTable (some size) lengths sizes
  | _, _ => []

/-- A width that occurs and can hold the entry of a size. -/
def EntryFits (previous : Option Nat) (length size : Nat) : Prop :=
  1 ≤ length ∧ length ≤ 8 ∧
    match previous with
    | .none => size < 2 ^ (7 * length)
    | some previous => Varint.HoldsSigned length ((size : Int) - previous)

/-- There is one width for each size, and it can hold the entry. -/
def EntriesFit (previous : Option Nat) : (lengths sizes : List Nat) → Prop
  | [], [] => True
  | length :: lengths, size :: sizes =>
      EntryFits previous length size ∧ EntriesFit (some size) lengths sizes
  | _, _ => False

instance (length size : Nat) : (previous : Option Nat) → Decidable (EntryFits previous length size)
  | .none => inferInstanceAs (Decidable (_ ∧ _ ∧ size < 2 ^ (7 * length)))
  | some _ => inferInstanceAs (Decidable (_ ∧ _ ∧ Varint.HoldsSigned length _))

instance decidableEntriesFit :
    (previous : Option Nat) → (lengths sizes : List Nat) →
      Decidable (EntriesFit previous lengths sizes)
  | _, [], [] => inferInstanceAs (Decidable True)
  | previous, length :: lengths, size :: sizes =>
      have := decidableEntriesFit (some size) lengths sizes
      inferInstanceAs (Decidable (EntryFits previous length size ∧ _))
  | _, [], _ :: _ => inferInstanceAs (Decidable False)
  | _, _ :: _, [] => inferInstanceAs (Decidable False)

/-- The table of a block with frames of these sizes; that of the last is left out. -/
def table (lacing : Lacing) (lengths sizes : List Nat) : Bytes :=
  match lacing with
  | none => []
  | fixed => []
  | xiph => xiphTable sizes.dropLast
  | ebml => ebmlTable .none lengths sizes.dropLast

/-- Frames of these sizes can have that lacing; `lengths` are the widths of the entries of an
EBML table. -/
def Fits (lacing : Lacing) (lengths sizes : List Nat) : Prop :=
  match lacing with
  | none => sizes.length = 1
  | fixed => 1 ≤ sizes.length ∧ sizes.length ≤ 256 ∧ ∀ a ∈ sizes, ∀ b ∈ sizes, a = b
  | xiph => 1 ≤ sizes.length ∧ sizes.length ≤ 256
  | ebml => 1 ≤ sizes.length ∧ sizes.length ≤ 256 ∧ EntriesFit .none lengths sizes.dropLast

instance (lengths sizes : List Nat) : (lacing : Lacing) → Decidable (lacing.Fits lengths sizes)
  | none => inferInstanceAs (Decidable (sizes.length = 1))
  | fixed => inferInstanceAs (Decidable (_ ∧ _ ∧ ∀ a ∈ sizes, ∀ b ∈ sizes, a = b))
  | xiph => inferInstanceAs (Decidable (_ ∧ sizes.length ≤ 256))
  | ebml => inferInstanceAs (Decidable (_ ∧ _ ∧ EntriesFit .none lengths _))

theorem ofFlags_eq
    {lacing : Lacing}
    {flags : UInt8}
    (h : flags.toNat / 2 % 4 = lacing.code) :
    ofFlags flags = lacing := by
  cases lacing <;> simp only [ofFlags, h, code]

section Xiph

/-- Full bytes add up until the first that is not full. -/
theorem xiphSize_run
    (count : Nat)
    {last : Nat}
    (hlast : last < 255)
    (rest : Bytes) :
    xiphSize (List.replicate count 255 ++ UInt8.ofNat last :: rest) =
      .ok (255 * count + last, rest) := by
  have hvalue : (UInt8.ofNat last).toNat = last :=
    UInt8.toNat_ofNat_of_lt' (Nat.lt_trans hlast (by decide))
  induction count with
  | zero =>
      have hend : UInt8.ofNat last ≠ 255 := by
        intro hfull
        rw [hfull] at hvalue
        have hlast' : (255 : UInt8).toNat = 255 := rfl
        omega
      simp [xiphSize, hend, hvalue]
  | succ count ih =>
      rw [List.replicate_succ, List.cons_append, xiphSize, if_pos rfl, ih]
      simp only [Except.ok.injEq, Prod.mk.injEq, and_true]
      omega

theorem xiphSize_xiphEntry
    (size : Nat)
    (rest : Bytes) :
    xiphSize (xiphEntry size ++ rest) = .ok (size, rest) := by
  rw [xiphEntry, List.append_assoc, List.singleton_append,
    xiphSize_run _ (Nat.mod_lt _ (by decide)), Nat.div_add_mod]

/-- A written Xiph table is read to its end, whatever comes after. -/
theorem xiphSizes_xiphTable
    (sizes : List Nat)
    (rest : Bytes) :
    xiphSizes sizes.length (xiphTable sizes ++ rest) = .ok (sizes, rest) := by
  induction sizes with
  | nil => rfl
  | cons size sizes ih =>
      rw [xiphTable] at ih
      rw [xiphTable, List.flatMap_cons, List.length_cons, List.append_assoc, xiphSizes,
        xiphSize_xiphEntry]
      simp only [ih]

end Xiph

section Ebml

variable {previous : Option Nat} {length size : Nat}

theorem ebmlEntry_wellFormed (h : EntryFits previous length size) :
    (ebmlEntry previous length size).WellFormed := by
  obtain ⟨hpos, hle, hfits⟩ := h
  cases previous with
  | none => exact Varint.ofData_wellFormed hpos hle hfits
  | some previous =>
      exact Varint.ofData_wellFormed hpos hle (Varint.toNat_lt_of_holdsSigned hfits)

/-- An entry stands for the size that it was written for. -/
theorem ebmlSize_ebmlEntry
    (h : EntryFits previous length size)
    (hbound : size < sizeBound) :
    ebmlSize previous (ebmlEntry previous length size) = .ok size := by
  obtain ⟨_, _, hfits⟩ := h
  cases previous with
  | none =>
      have hdata := Varint.data_ofData hfits
      simp only [ebmlSize, ebmlEntry, hdata]
  | some previous =>
      have hsum : (previous : Int) + (ebmlEntry (some previous) length size).signed = size := by
        rw [ebmlEntry, Varint.signed_ofSigned hfits]
        omega
      simp only [ebmlSize, hsum]
      rw [if_pos (by omega), Int.toNat_natCast]

/-- A written EBML table is read to its end, whatever comes after, when no size is too large. -/
theorem ebmlSizes_of_entriesFit
    {lengths sizes : List Nat}
    (h : EntriesFit previous lengths sizes)
    (hbound : ∀ size ∈ sizes, size < sizeBound)
    (rest : Bytes) :
    ebmlSizes sizes.length previous (ebmlTable previous lengths sizes ++ rest) =
      .ok (sizes, rest) := by
  -- Each size that is read is the one from which the next difference counts.
  induction sizes generalizing previous lengths with
  | nil =>
      cases lengths with
      | nil => rfl
      | cons length lengths => exact h.elim
  | cons size sizes ih =>
      cases lengths with
      | nil => exact h.elim
      | cons length lengths =>
          obtain ⟨hentry, hrest⟩ := h
          obtain ⟨hfirst, hlater⟩ := List.forall_mem_cons.mp hbound
          have hread := Varint.decode_encode (ebmlEntry_wellFormed hentry)
            (ebmlTable (some size) lengths sizes ++ rest)
          have hsize := ebmlSize_ebmlEntry hentry hfirst
          have hdrop : ((ebmlEntry previous length size).encode ++
              (ebmlTable (some size) lengths sizes ++ rest)).drop
                (ebmlEntry previous length size).length =
              ebmlTable (some size) lengths sizes ++ rest :=
            List.drop_left' (Varint.length_encode _)
          have htail := ih hrest hlater
          rw [ebmlTable, List.length_cons, List.append_assoc, ebmlSizes]
          simp only [hread, hsize, hdrop, htail]

/-- A written EBML table is read to its end, whatever comes after. -/
theorem ebmlSizes_ebmlTable
    {lengths sizes : List Nat}
    (h : EntriesFit previous lengths sizes)
    (hbound : total sizes < sizeBound)
    (rest : Bytes) :
    ebmlSizes sizes.length previous (ebmlTable previous lengths sizes ++ rest) =
      .ok (sizes, rest) :=
  ebmlSizes_of_entriesFit h (fun _ hmem => Nat.lt_of_le_of_lt (le_total_of_mem hmem) hbound) rest

end Ebml

theorem total_dropLast
    {sizes : List Nat}
    (hne : sizes ≠ []) :
    total sizes.dropLast + sizes.getLast hne = total sizes := by
  calc total sizes.dropLast + sizes.getLast hne
      = total (sizes.dropLast ++ [sizes.getLast hne]) := by
        rw [total_append, total_cons, total_nil, Nat.add_zero]
    _ = total sizes := by rw [List.dropLast_concat_getLast]

theorem closeSizes_eq (sizes : List Nat) (tableLength remaining : Nat) :
    closeSizes sizes tableLength remaining =
      if remaining < tableLength then .error .laceSizes
      else if sizeBound ≤ total sizes then .error .sumOverflow
      else if remaining - tableLength < total sizes then .error .laceSizes
      else .ok (sizes ++ [remaining - tableLength - total sizes]) := rfl

/-- What the table and the other frames leave is the size of the last frame. -/
theorem closeSizes_dropLast
    {sizes : List Nat}
    (hne : sizes ≠ [])
    (hbound : total sizes < sizeBound)
    (tableLength : Nat) :
    closeSizes sizes.dropLast tableLength (tableLength + total sizes) = .ok sizes := by
  have htotal := total_dropLast hne
  have hlast : tableLength + total sizes - tableLength - total sizes.dropLast =
      sizes.getLast hne := by
    omega
  rw [closeSizes_eq, if_neg (by omega), if_neg (by omega), if_neg (by omega), hlast, List.dropLast_concat_getLast]

/-- With the frames behind it, a written table gives the size of each of them. -/
theorem sizes_table
    {lacing : Lacing}
    {lengths sizes : List Nat}
    (hfits : lacing.Fits lengths sizes)
    (hbound : total sizes < sizeBound)
    {body : Bytes}
    (hbody : body.length = total sizes) :
    lacing.sizes sizes.length (lacing.table lengths sizes ++ body)
      ((lacing.table lengths sizes).length + body.length) = .ok sizes := by
  rw [hbody]
  cases lacing with
  | none =>
      obtain ⟨size, rfl⟩ := List.length_eq_one_iff.mp hfits
      simp [Lacing.sizes, table]
  | fixed =>
      obtain ⟨hpos, _, hsame⟩ := hfits
      obtain ⟨size, hsize⟩ := List.exists_mem_of_length_pos hpos
      have hequal := List.eq_replicate_of_mem (fun other hother => hsame other hother size hsize)
      have htotal : total sizes = sizes.length * size := by
        rw [hequal, total_replicate, List.length_replicate]
      simp only [Lacing.sizes, table, List.length_nil, Nat.zero_add, htotal, Nat.mul_mod_right,
        if_true, Nat.mul_div_cancel_left _ hpos]
      rw [← hequal]
  | xiph =>
      have hread := xiphSizes_xiphTable sizes.dropLast body
      have hclose := closeSizes_dropLast (List.ne_nil_of_length_pos hfits.1) hbound
        (xiphTable sizes.dropLast).length
      rw [List.length_dropLast] at hread
      simp only [Lacing.sizes, table, hread, List.length_append, Nat.add_sub_cancel]
      exact hclose
  | ebml =>
      obtain ⟨hpos, _, hentries⟩ := hfits
      have hne := List.ne_nil_of_length_pos hpos
      have htotal := total_dropLast hne
      have hread := ebmlSizes_ebmlTable hentries (by omega) body
      have hclose := closeSizes_dropLast hne hbound (ebmlTable .none lengths sizes.dropLast).length
      rw [List.length_dropLast] at hread
      simp only [Lacing.sizes, table, hread, List.length_append, Nat.add_sub_cancel]
      exact hclose

/-- A laced block has from 1 to 256 frames. -/
theorem Fits.count
    {lacing : Lacing}
    {lengths sizes : List Nat}
    (h : lacing.Fits lengths sizes)
    (hlaced : lacing ≠ none) :
    1 ≤ sizes.length ∧ sizes.length ≤ 256 := by
  cases lacing with
  | none => exact absurd rfl hlaced
  | xiph => exact h
  | fixed => exact ⟨h.1, h.2.1⟩
  | ebml => exact ⟨h.1, h.2.1⟩

/-- What stands between the flags and the frames. -/
def opening (lacing : Lacing) (lengths sizes : List Nat) : Bytes :=
  if lacing = none then []
  else UInt8.ofNat (sizes.length - 1) :: lacing.table lengths sizes

end Lacing

/-- A block to be written. -/
structure BlockDraft where
  /-- The bytes that the track number takes. -/
  trackLength : Nat
  track : Nat
  timecode : Int
  flags : UInt8
  lacing : Lacing
  /-- The bytes that each entry of an EBML table takes. -/
  entryLengths : List Nat
  frames : List Bytes
deriving DecidableEq, Repr

namespace BlockDraft

variable (d : BlockDraft)

/-- The size of each frame. -/
def sizes : List Nat := d.frames.map List.length

/-- The track number as it is stored. -/
def trackNumber : Varint := .ofData d.trackLength d.track

/-- What stands behind the flags: the opening of a lace, then the frames. -/
def content : Bytes :=
  d.lacing.opening d.entryLengths d.sizes ++ d.frames.flatten

/-- The bytes of a block. -/
def encode : Bytes :=
  d.trackNumber.encode ++ (Bytes.ofInt 2 d.timecode ++ (d.flags :: d.content))

/-- A block that can be written: the track number fits its width, the timecode two bytes,
and the frames the lacing that the flags name. -/
structure WellFormed : Prop where
  trackLength : 1 ≤ d.trackLength ∧ d.trackLength ≤ 8
  track : d.track < 2 ^ (7 * d.trackLength)
  timecode : -2 ^ 15 ≤ d.timecode ∧ d.timecode < 2 ^ 15
  flags : d.flags.toNat / 2 % 4 = d.lacing.code
  fits : d.lacing.Fits d.entryLengths d.sizes
  total : Lacing.total d.sizes < Lacing.sizeBound

instance : Decidable d.WellFormed :=
  decidable_of_iff
    ((1 ≤ d.trackLength ∧ d.trackLength ≤ 8) ∧ d.track < 2 ^ (7 * d.trackLength) ∧
      (-2 ^ 15 ≤ d.timecode ∧ d.timecode < 2 ^ 15) ∧ d.flags.toNat / 2 % 4 = d.lacing.code ∧
      d.lacing.Fits d.entryLengths d.sizes ∧ Lacing.total d.sizes < Lacing.sizeBound)
    ⟨fun ⟨trackLength, track, timecode, flags, fits, total⟩ =>
        ⟨trackLength, track, timecode, flags, fits, total⟩,
      fun ⟨trackLength, track, timecode, flags, fits, total⟩ =>
        ⟨trackLength, track, timecode, flags, fits, total⟩⟩

/-- The timecode stands in two bytes behind the track number. -/
theorem encode_eq (htimecode : -2 ^ 15 ≤ d.timecode ∧ d.timecode < 2 ^ 15) :
    ∃ high low, Bytes.signed [high, low] = d.timecode ∧
      d.encode = d.trackNumber.encode ++ high :: low :: d.flags :: d.content := by
  obtain ⟨hlow, hhigh⟩ := htimecode
  have hsigned : (Bytes.ofInt 2 d.timecode).signed = d.timecode :=
    Bytes.signed_ofInt (by omega) (by omega)
  exact ⟨_, _, hsigned, rfl⟩

end BlockDraft

namespace BlockHead

/-- The frames of a laced block are read from the count and the table. -/
theorem frames_cons
    {lacing : Lacing}
    (hlaced : lacing ≠ .none)
    {last : UInt8}
    {table : Bytes}
    {fixedLength length : Nat}
    (hlength : fixedLength + 1 ≤ length)
    {sizes : List Nat}
    (hsizes : lacing.sizes (last.toNat + 1) table (length - (fixedLength + 1)) = .ok sizes)
    (whole : Bool) :
    frames lacing (last :: table) fixedLength length whole =
      .ok (last.toNat + 1, some sizes) := by
  have hknown : sizesOf? lacing (last.toNat + 1) table (length - (fixedLength + 1)) whole =
      .ok (some sizes) := by
    rw [sizesOf?, hsizes]
  cases lacing with
  | none => exact absurd rfl hlaced
  | _ => simp only [frames, if_neg (Nat.not_lt.mpr hlength), hknown]

/-- Count and sizes of written frames are read. -/
theorem frames_opening
    {lacing : Lacing}
    {lengths sizes : List Nat}
    (hfits : lacing.Fits lengths sizes)
    (hbound : Lacing.total sizes < Lacing.sizeBound)
    {body : Bytes}
    (hbody : body.length = Lacing.total sizes)
    (fixedLength : Nat)
    (whole : Bool) :
    frames lacing (lacing.opening lengths sizes ++ body) fixedLength
      (fixedLength + (lacing.opening lengths sizes ++ body).length) whole =
        .ok (sizes.length, some sizes) := by
  by_cases hlaced : lacing = .none
  · subst hlaced
    obtain ⟨size, rfl⟩ := List.length_eq_one_iff.mp hfits
    rw [Lacing.total_cons, Lacing.total_nil, Nat.add_zero] at hbody
    simp only [Lacing.opening, if_true, List.nil_append, frames, hbody, Nat.add_sub_cancel_left,
      if_neg (Nat.not_lt.mpr (Nat.le_add_right fixedLength size)), List.length_singleton]
  · obtain ⟨hpos, hcount⟩ := hfits.count hlaced
    have hlast : (UInt8.ofNat (sizes.length - 1)).toNat + 1 = sizes.length := by
      rw [UInt8.toNat_ofNat']
      omega
    have hsizes := Lacing.sizes_table hfits hbound hbody
    rw [Lacing.opening, if_neg hlaced, List.cons_append, List.length_cons, List.length_append]
    generalize lacing.table lengths sizes = table at hsizes ⊢
    have hremaining : fixedLength + (table.length + body.length + 1) - (fixedLength + 1) =
        table.length + body.length := by
      omega
    rw [frames_cons hlaced (by omega) (by rw [hlast, hremaining, hsizes]) whole, hlast]

/-- The header of a written block is read, with the size of each frame. -/
theorem decode_written
    {d : BlockDraft}
    (hd : d.WellFormed) :
    ∃ head : BlockHead,
      decode d.encode d.encode.length = .ok head ∧
        head.track = d.track ∧ head.timecode = d.timecode ∧ head.flags = d.flags ∧
        head.lacing = d.lacing ∧ head.frameCount = d.frames.length ∧
        head.frameSizes = some (d.frames.map List.length) := by
  obtain ⟨high, low, hsigned, hencode⟩ := d.encode_eq hd.timecode
  have hlacing := Lacing.ofFlags_eq hd.flags
  have htrack : d.trackNumber.WellFormed :=
    Varint.ofData_wellFormed hd.trackLength.1 hd.trackLength.2 hd.track
  have hdata : d.trackNumber.data = d.track := Varint.data_ofData hd.track
  have hvarint : Varint.decode d.encode = .ok (some d.trackNumber) := by
    rw [hencode]
    exact Varint.decode_encode htrack _
  have hdrop : d.encode.drop d.trackNumber.length = high :: low :: d.flags :: d.content := by
    rw [hencode]
    exact List.drop_left' (Varint.length_encode _)
  have hlength : d.encode.length = d.trackNumber.length + 3 + d.content.length := by
    rw [hencode, List.length_append, Varint.length_encode]
    simp only [List.length_cons]
    omega
  have hframes (whole : Bool) : frames d.lacing d.content (d.trackNumber.length + 3)
      d.encode.length whole = .ok (d.sizes.length, some d.sizes) := by
    rw [hlength]
    exact frames_opening hd.fits hd.total (Lacing.length_flatten _) _ whole
  have hcount : d.sizes.length = d.frames.length := List.length_map ..
  refine ⟨⟨d.track, d.timecode, d.flags, d.sizes.length, some d.sizes⟩, ?_, rfl, rfl, rfl,
    hlacing, hcount, rfl⟩
  simp only [decode, hvarint, hdrop, hlacing, hframes, hdata, hsigned]

/-- Four frames in an EBML lace.  The second is 64 bytes shorter than the first, one more than
an entry of one byte can hold, and the third 64 longer, which makes an entry of all ones. -/
theorem decode_written_ebml :
    let d : BlockDraft :=
      ⟨2, 129, -10, 0x8E, .ebml, [1, 2, 1],
        [List.replicate 70 1, List.replicate 6 2, List.replicate 70 3, [4, 4, 4]]⟩
    d.WellFormed ∧
      d.encode.take 10 = [0x40, 0x81, 0xFF, 0xF6, 0x8E, 0x03, 0xC6, 0x5F, 0xBF, 0xFF] ∧
      ∃ head : BlockHead,
        decode d.encode d.encode.length = .ok head ∧
          head.track = 129 ∧ head.timecode = -10 ∧ head.flags = 0x8E ∧
          head.lacing = .ebml ∧ head.frameCount = 4 ∧
          head.frameSizes = some [70, 6, 70, 3] := by
  intro d
  have hd : d.WellFormed := by decide +kernel
  exact ⟨hd, by decide +kernel, decode_written hd⟩

end BlockHead

end Matroska

end EbmlReport
