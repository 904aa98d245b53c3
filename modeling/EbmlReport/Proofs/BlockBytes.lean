import EbmlReport.Proofs.Lacing
import EbmlReport.Scan

/-!
# Frames account for every byte

What was read as a table of sizes is what would have been written for them, and the bytes
behind it go on.  So a block that is accepted falls into a fixed part, the opening of its
lace and the frames, and the lengths of these add up.  When the kept bytes end in the table
of a longer block, the sizes are unknown, and nothing is said about them.

**Results.**
* `Lacing.eq_xiphTable_of_xiphSizes`, `Lacing.eq_ebmlTable_of_ebmlSizes`: a table is read from
  what is written for its sizes.
* `Lacing.eq_of_sizes`: the sizes of a lace and its table are what remains of the block.
* `BlockHead.Begins.decode_eq`, `BlockHead.begins_or_refused`: a header is made of what the
  block begins with, and of its frames.
* `BlockHead.decode_accounts`: the law for a block.
-/

namespace EbmlReport

namespace Matroska

namespace Lacing

section Entries

variable {table rest : Bytes} {size : Nat} {sizes : List Nat}

theorem xiphEntry_add (size : Nat) : xiphEntry (255 + size) = 255 :: xiphEntry size := by
  rw [xiphEntry, Nat.add_div_left _ (by decide), Nat.add_mod_left, List.replicate_succ,
    List.cons_append, xiphEntry]

theorem xiphEntry_toNat {byte : UInt8} (h : byte ≠ 255) : xiphEntry byte.toNat = [byte] := by
  have hbyte : byte.toNat < 256 := byte.toNat_lt
  have hfull : byte.toNat ≠ 255 := fun heq => h (UInt8.toNat_inj.mp heq)
  rw [xiphEntry, Nat.div_eq_of_lt (by omega), Nat.mod_eq_of_lt (by omega), UInt8.ofNat_toNat]
  rfl

/-- A size of a Xiph table is read from what is written for it. -/
theorem eq_xiphEntry_of_xiphSize (h : xiphSize table = .ok (size, rest)) :
    table = xiphEntry size ++ rest := by
  induction table generalizing size with
  | nil => simp [xiphSize] at h
  | cons byte table ih =>
      rw [xiphSize] at h
      by_cases hfull : byte = 255
      · rw [if_pos hfull] at h
        split at h
        · rename_i more _ hmore
          simp only [Except.ok.injEq, Prod.mk.injEq] at h
          obtain ⟨rfl, rfl⟩ := h
          rw [xiphEntry_add, List.cons_append, ← ih hmore, hfull]
        · simp at h
      · rw [if_neg hfull] at h
        simp only [Except.ok.injEq, Prod.mk.injEq] at h
        obtain ⟨rfl, rfl⟩ := h
        rw [xiphEntry_toNat hfull, List.singleton_append]

/-- A Xiph table is read from what is written for its sizes. -/
theorem eq_xiphTable_of_xiphSizes
    {count : Nat}
    (h : xiphSizes count table = .ok (sizes, rest)) :
    table = xiphTable sizes ++ rest := by
  induction count generalizing table sizes with
  | zero =>
      simp only [xiphSizes, Except.ok.injEq, Prod.mk.injEq] at h
      obtain ⟨rfl, rfl⟩ := h
      rfl
  | succ count ih =>
      rw [xiphSizes] at h
      split at h
      · simp at h
      · rename_i hfirst
        split at h
        · simp at h
        · rename_i hlater
          simp only [Except.ok.injEq, Prod.mk.injEq] at h
          obtain ⟨rfl, rfl⟩ := h
          have htable := ih hlater
          rw [xiphTable] at htable
          rw [eq_xiphEntry_of_xiphSize hfirst, htable, xiphTable, List.flatMap_cons,
            List.append_assoc]

/-- A size of an EBML table is read from an entry that is written for it. -/
theorem eq_ebmlEntry_of_ebmlSize
    {previous : Option Nat}
    {entry : Varint}
    (hentry : entry.WellFormed)
    (h : ebmlSize previous entry = .ok size) :
    EntryFits previous entry.length size ∧ ebmlEntry previous entry.length size = entry := by
  obtain ⟨hdata, hwritten⟩ := hentry.eq_ofData
  cases previous with
  | none =>
      simp only [ebmlSize, Except.ok.injEq] at h
      subst h
      exact ⟨⟨hentry.pos, hentry.le, hdata⟩, hwritten.symm⟩
  | some previous =>
      simp only [ebmlSize] at h
      split at h
      · rename_i hrange
        simp only [Except.ok.injEq] at h
        have hsize : (size : Int) = previous + entry.signed := by omega
        have hplace : (size : Int) - previous + Varint.bias entry.length = entry.data := by
          rw [hsize, Varint.signed, Varint.bias]
          omega
        refine ⟨⟨hentry.pos, hentry.le, ?_⟩, ?_⟩
        · refine ⟨by omega, ?_⟩
          rw [hplace]
          omega
        · rw [ebmlEntry, Varint.ofSigned, hplace, Int.toNat_natCast, ← hwritten]
      · simp at h

/-- An EBML table is read from what is written for its sizes, in some widths. -/
theorem eq_ebmlTable_of_ebmlSizes
    {count : Nat}
    {previous : Option Nat}
    (h : ebmlSizes count previous table = .ok (sizes, rest)) :
    ∃ lengths, EntriesFit previous lengths sizes ∧
      table = ebmlTable previous lengths sizes ++ rest := by
  induction count generalizing previous table sizes with
  | zero =>
      simp only [ebmlSizes, Except.ok.injEq, Prod.mk.injEq] at h
      obtain ⟨rfl, rfl⟩ := h
      exact ⟨[], trivial, rfl⟩
  | succ count ih =>
      rw [ebmlSizes] at h
      split at h
      · simp at h
      · simp at h
      · simp at h
      · rename_i entry hentry
        split at h
        · simp at h
        · rename_i hsize
          split at h
          · simp at h
          · rename_i hlater
            simp only [Except.ok.injEq, Prod.mk.injEq] at h
            obtain ⟨rfl, rfl⟩ := h
            obtain ⟨hformed, hbytes⟩ := Varint.eq_encode_of_decode hentry
            obtain ⟨hfits, hwritten⟩ := eq_ebmlEntry_of_ebmlSize hformed hsize
            obtain ⟨lengths, hlengths, htable⟩ := ih hlater
            refine ⟨entry.length :: lengths, ⟨hfits, hlengths⟩, ?_⟩
            rw [ebmlTable, hwritten, List.append_assoc, ← htable, ← hbytes]

end Entries

section Sizes

variable {lacing : Lacing} {count tableLength remaining : Nat} {table rest : Bytes}
  {held sizes : List Nat}

/-- The frame sizes stand in a table. -/
def HasTable (lacing : Lacing) : Prop := lacing = xiph ∨ lacing = ebml

/-- Reads the table of a lace of `count` frames, and gives the bytes behind it too. -/
def readTable (lacing : Lacing) (count : Nat) (table : Bytes) :
    Except BlockDefect (List Nat × Bytes) :=
  match lacing with
  | none => .ok ([], table)
  | fixed => .ok ([], table)
  | xiph => xiphSizes (count - 1) table
  | ebml => ebmlSizes (count - 1) .none table

/-- The sizes of a lace with a table are those in it and what is left for the last frame. -/
theorem sizes_of_hasTable
    (hlacing : lacing.HasTable)
    (count : Nat)
    (table : Bytes)
    (remaining : Nat) :
    lacing.sizes count table remaining =
      match lacing.readTable count table with
      | .error defect => .error defect
      | .ok (held, rest) => closeSizes held (table.length - rest.length) remaining := by
  rcases hlacing with rfl | rfl <;> rfl

/-- A table holds the sizes of all frames but the last, whatever that may be, and is read from
what is written for them. -/
theorem eq_of_readTable
    (hlacing : lacing.HasTable)
    (hpos : 1 ≤ count)
    (hle : count ≤ 256)
    (h : lacing.readTable count table = .ok (held, rest)) :
    held.length + 1 = count ∧
      ∃ lengths, ∀ last, lacing.Fits lengths (held ++ [last]) ∧
        table = lacing.table lengths (held ++ [last]) ++ rest := by
  rcases hlacing with rfl | rfl
  · have hcount := length_xiphSizes h
    refine ⟨by omega, [], fun last => ⟨⟨?_, ?_⟩, ?_⟩⟩
    · simp
    · rw [List.length_append, List.length_singleton]
      omega
    · rw [Lacing.table, List.dropLast_concat]
      exact eq_xiphTable_of_xiphSizes h
  · have hcount := length_ebmlSizes h
    obtain ⟨lengths, hfits, htable⟩ := eq_ebmlTable_of_ebmlSizes h
    refine ⟨by omega, lengths, fun last => ⟨⟨?_, ?_, ?_⟩, ?_⟩⟩
    · simp
    · rw [List.length_append, List.length_singleton]
      omega
    · rwa [List.dropLast_concat]
    · rwa [Lacing.table, List.dropLast_concat]

/-- What a table holds leaves the size of the last frame, and all make up what remains. -/
theorem eq_of_closeSizes (h : closeSizes held tableLength remaining = .ok sizes) :
    ∃ last, sizes = held ++ [last] ∧ tableLength + total sizes = remaining := by
  rw [closeSizes_eq] at h
  split at h
  · simp at h
  · split at h
    · simp at h
    · split at h
      · simp at h
      · simp only [Except.ok.injEq] at h
        refine ⟨_, h.symm, ?_⟩
        rw [← h, total_append, total_cons, total_nil]
        omega

/-- A lace has as many sizes as were asked for.  Together with their table, which the bytes
begin with, they make up what remains of the block. -/
theorem eq_of_sizes
    (hlaced : lacing ≠ none)
    (hpos : 1 ≤ count)
    (hle : count ≤ 256)
    (h : lacing.sizes count table remaining = .ok sizes) :
    sizes.length = count ∧
      ∃ lengths rest, lacing.Fits lengths sizes ∧ table = lacing.table lengths sizes ++ rest ∧
        (lacing.table lengths sizes).length + total sizes = remaining := by
  by_cases hlacing : lacing.HasTable
  · rw [sizes_of_hasTable hlacing] at h
    split at h
    · simp at h
    · rename_i held rest hread
      obtain ⟨hcount, lengths, hwritten⟩ := eq_of_readTable hlacing hpos hle hread
      obtain ⟨last, rfl, htotal⟩ := eq_of_closeSizes h
      obtain ⟨hfits, htable⟩ := hwritten last
      refine ⟨?_, lengths, rest, hfits, htable, ?_⟩
      · rw [List.length_append, List.length_singleton, hcount]
      · rw [htable, List.length_append, Nat.add_sub_cancel] at htotal
        exact htotal
  · obtain rfl : lacing = fixed := by
      cases lacing with
      | none => exact absurd rfl hlaced
      | fixed => rfl
      | xiph => exact absurd (Or.inl rfl) hlacing
      | ebml => exact absurd (Or.inr rfl) hlacing
    simp only [Lacing.sizes] at h
    split at h
    · rename_i heven
      simp only [Except.ok.injEq] at h
      subst h
      have hlength : (List.replicate count (remaining / count)).length = count :=
        List.length_replicate
      refine ⟨hlength, [], table, ⟨by omega, by omega, ?_⟩, rfl, ?_⟩
      · intro a ha b hb
        rw [List.eq_of_mem_replicate ha, List.eq_of_mem_replicate hb]
      · rw [total_replicate, Nat.mul_div_cancel' (Nat.dvd_of_mod_eq_zero heven)]
        exact Nat.zero_add _
    · simp at h

/-- Frames of one size can only fail to add up; anything else is wrong with a table. -/
theorem hasTable_of_error
    {defect : BlockDefect}
    (h : lacing.sizes count table remaining = .error defect)
    (hdefect : defect ≠ .laceSizes) :
    lacing.HasTable := by
  cases lacing with
  | none => simp [Lacing.sizes] at h
  | fixed =>
      simp only [Lacing.sizes] at h
      split at h
      · simp at h
      · exact absurd (Except.error.inj h).symm hdefect
  | xiph => exact Or.inl rfl
  | ebml => exact Or.inr rfl

end Sizes

end Lacing

namespace BlockHead

/-- What every block begins with: a track number, the two bytes of a timecode and a byte of
flags, in front of the `rest`. -/
structure Begins (bytes : Bytes) (track : Varint) (high low flags : UInt8) (rest : Bytes) :
    Prop where
  marked : track.WellFormed
  written : bytes = track.encode ++ high :: low :: flags :: rest

section Decoding

variable {bytes rest table : Bytes} {track : Varint} {high low flags last : UInt8}
  {lacing : Lacing} {count fixedLength length remaining : Nat} {whole : Bool}
  {sizes : Option (List Nat)} {head : BlockHead}

theorem Begins.length_eq (h : Begins bytes track high low flags rest) :
    bytes.length = track.length + 3 + rest.length := by
  rw [h.written, List.length_append, Varint.length_encode]
  simp only [List.length_cons]
  omega

theorem Begins.append (h : Begins bytes track high low flags rest) (more : Bytes) :
    Begins (bytes ++ more) track high low flags (rest ++ more) where
  marked := h.marked
  written := by rw [h.written, List.append_assoc, List.cons_append, List.cons_append,
    List.cons_append]

theorem Begins.take
    (h : Begins bytes track high low flags rest)
    (kept : Nat)
    (hkept : track.length + 3 ≤ kept) :
    Begins (bytes.take kept) track high low flags (rest.take (kept - (track.length + 3))) where
  marked := h.marked
  written := by
    obtain ⟨more, rfl⟩ := Nat.exists_eq_add_of_le hkept
    rw [h.written, List.take_append, Varint.length_encode,
      List.take_of_length_le (by rw [Varint.length_encode]; omega),
      show track.length + 3 + more - track.length = more + 3 by omega, Nat.add_sub_cancel_left]
    rfl

/-- The header of a block is made of what it begins with, and of the frames behind. -/
theorem Begins.decode_eq
    (h : Begins bytes track high low flags rest)
    (length : Nat) :
    decode bytes length =
      (frames (.ofFlags flags) rest (track.length + 3) length (length ≤ bytes.length)).map
        fun found => ⟨track.data, Bytes.signed [high, low], flags, found.1, found.2⟩ := by
  have htrack : Varint.decode bytes = .ok (some track) := by
    rw [h.written]
    exact Varint.decode_encode h.marked _
  have hdrop : bytes.drop track.length = high :: low :: flags :: rest := by
    rw [h.written]
    exact List.drop_left' (Varint.length_encode _)
  simp only [decode, htrack, hdrop]
  cases frames (.ofFlags flags) rest (track.length + 3) length (length ≤ bytes.length) <;> rfl

theorem decode_of_unmarked (h : Varint.decode bytes = .error .unmarked) (length : Nat) :
    decode bytes length = .error .trackUnmarked := by
  simp only [decode, h]

theorem decode_of_few
    (htrack : Varint.decode bytes = .ok (some track))
    (hfew : (bytes.drop track.length).length < 3)
    (length : Nat) :
    decode bytes length = .error .cutShort := by
  simp only [decode, htrack]
  split
  · rename_i hdrop
    simp only [hdrop, List.length_cons] at hfew
    omega
  · rfl

/-- Bytes that no block begins with are too few for its fixed part, or have no track number.
They are refused, whatever the length of the block. -/
theorem begins_or_refused (bytes : Bytes) :
    (∃ track high low flags rest, Begins bytes track high low flags rest) ∨
      (bytes.length < 11 ∧ ∀ length, decode bytes length = .error .cutShort) ∨
      Varint.decode bytes = .error .unmarked := by
  have hread := @Varint.exists_or_unmarked bytes
  cases hdecode : Varint.decode bytes with
  | error fault =>
      cases fault with
      | unmarked => exact Or.inr (Or.inr rfl)
      | cutShort =>
          have hfew : bytes.length < 8 := by simpa [hdecode] using hread
          exact Or.inr (Or.inl ⟨by omega, fun length => by simp only [decode, hdecode]⟩)
  | ok found =>
      cases found with
      | none =>
          have hfew : bytes.length < 8 := by simpa [hdecode] using hread
          exact Or.inr (Or.inl ⟨by omega, fun length => by simp only [decode, hdecode]⟩)
      | some track =>
          obtain ⟨_, hle, _⟩ := Varint.decode_bounds hdecode
          obtain ⟨hformed, hbytes⟩ := Varint.eq_encode_of_decode hdecode
          by_cases hfew : (bytes.drop track.length).length < 3
          · have hshort := hfew
            rw [List.length_drop] at hshort
            exact Or.inr (Or.inl ⟨by omega, decode_of_few hdecode hfew⟩)
          · rcases hdrop : bytes.drop track.length with _ | ⟨high, _ | ⟨low, _ | ⟨flags, rest⟩⟩⟩
            · simp [hdrop] at hfew
            · simp [hdrop] at hfew
            · simp [hdrop] at hfew
            · rw [hdrop] at hbytes
              exact Or.inl ⟨track, high, low, flags, rest, hformed, hbytes⟩

/-- A block without a lace is one frame, which takes what the fixed part leaves. -/
theorem frames_none (rest : Bytes) (fixedLength length : Nat) (whole : Bool) :
    frames .none rest fixedLength length whole =
      if length < fixedLength then .error .cutShort
      else .ok (1, some [length - fixedLength]) := rfl

theorem frames_nil (hlaced : lacing ≠ .none) (fixedLength length : Nat) (whole : Bool) :
    frames lacing [] fixedLength length whole = .error .cutShort := by
  cases lacing with
  | none => exact absurd rfl hlaced
  | _ => rfl

/-- A lace has as many frames as its count byte tells, and their sizes, if these are known. -/
theorem frames_laced
    (hlaced : lacing ≠ .none)
    (last : UInt8)
    (table : Bytes)
    (fixedLength length : Nat)
    (whole : Bool) :
    frames lacing (last :: table) fixedLength length whole =
      if length < fixedLength + 1 then .error .cutShort
      else
        (sizesOf? lacing (last.toNat + 1) table (length - (fixedLength + 1)) whole).map
          fun sizes => (last.toNat + 1, sizes) := by
  cases lacing with
  | none => exact absurd rfl hlaced
  | _ =>
      simp only [frames]
      cases sizesOf? _ (last.toNat + 1) table (length - (fixedLength + 1)) whole <;> rfl

/-- The sizes of a lace are those that were read, or are unknown when the kept bytes end in the
table. -/
theorem eq_of_sizesOf? (h : sizesOf? lacing count table remaining whole = .ok sizes) :
    (∃ known, sizes = some known ∧ lacing.sizes count table remaining = .ok known) ∨
      (sizes = none ∧ whole = false ∧ lacing.sizes count table remaining = .error .cutShort) := by
  unfold sizesOf? at h
  split at h
  · rename_i known hknown
    exact Or.inl ⟨known, (Except.ok.inj h).symm, hknown⟩
  · rename_i hshort
    cases whole with
    | true => simp at h
    | false => exact Or.inr ⟨by simpa using h.symm, rfl, hshort⟩
  · simp at h

/-- What a block of frames is made of. -/
theorem eq_of_frames
    (h : frames lacing rest fixedLength length whole = .ok (count, sizes)) :
    (lacing = .none ∧ fixedLength ≤ length ∧ count = 1 ∧ sizes = some [length - fixedLength]) ∨
      (lacing ≠ .none ∧ fixedLength + 1 ≤ length ∧
        ∃ last table, rest = last :: table ∧ count = last.toNat + 1 ∧
          sizesOf? lacing count table (length - (fixedLength + 1)) whole = .ok sizes) := by
  by_cases hlaced : lacing = .none
  · subst hlaced
    rw [frames_none] at h
    split at h
    · simp at h
    · simp only [Except.ok.injEq, Prod.mk.injEq] at h
      exact Or.inl ⟨rfl, by omega, h.1.symm, h.2.symm⟩
  · cases rest with
    | nil => simp [frames_nil hlaced] at h
    | cons last table =>
        rw [frames_laced hlaced] at h
        split at h
        · simp at h
        · cases hfound : sizesOf? lacing (last.toNat + 1) table (length - (fixedLength + 1))
              whole with
          | error defect => simp [hfound, Except.map] at h
          | ok found =>
              simp only [hfound, Except.map, Except.ok.injEq, Prod.mk.injEq] at h
              obtain ⟨rfl, rfl⟩ := h
              exact Or.inr ⟨hlaced, by omega, last, table, rfl, rfl, hfound⟩

/-- A header that was read is that of what the block begins with, and of its frames. -/
theorem eq_of_decode (h : decode bytes length = .ok head) :
    ∃ track high low rest,
      Begins bytes track high low head.flags rest ∧ head.track = track.data ∧
        head.timecode = Bytes.signed [high, low] ∧
        frames head.lacing rest (track.length + 3) length (length ≤ bytes.length) =
          .ok (head.frameCount, head.frameSizes) := by
  rcases begins_or_refused bytes with
    ⟨track, high, low, flags, rest, hbegins⟩ | ⟨_, hshort⟩ | hunmarked
  · rw [hbegins.decode_eq] at h
    cases hframes : frames (.ofFlags flags) rest (track.length + 3) length
        (length ≤ bytes.length) with
    | error defect => simp [hframes, Except.map] at h
    | ok found =>
        simp only [hframes, Except.map, Except.ok.injEq] at h
        subst h
        exact ⟨track, high, low, rest, hbegins, rfl, rfl, hframes⟩
  · simp [hshort] at h
  · simp [decode_of_unmarked hunmarked] at h

end Decoding

section Accounts

variable {bytes rest : Bytes} {lacing : Lacing} {count fixedLength length : Nat} {whole : Bool}
  {sizes : List Nat} {head : BlockHead}

/-- Between the flags and the frames stand the count byte of a lace and its table. -/
theorem length_opening (lacing : Lacing) (lengths sizes : List Nat) :
    (lacing.opening lengths sizes).length =
      (if lacing = .none then 0 else 1) + (lacing.table lengths sizes).length := by
  by_cases hlaced : lacing = .none
  · subst hlaced
    rfl
  · rw [Lacing.opening, if_neg hlaced, if_neg hlaced, List.length_cons, Nat.add_comm]

/-- One frame makes a block without a lace, and the count byte tells the frames of a lace. -/
theorem count_of_frames
    {found : Option (List Nat)}
    (h : frames lacing rest fixedLength length whole = .ok (count, found)) :
    (lacing = .none → count = 1) ∧
      (lacing ≠ .none → ∃ last table, rest = last :: table ∧ count = last.toNat + 1) := by
  rcases eq_of_frames h with ⟨hnone, _, hcount, _⟩ | ⟨hlaced, _, last, table, hrest, hcount, _⟩
  · exact ⟨fun _ => hcount, fun hlaced => absurd hnone hlaced⟩
  · exact ⟨fun hnone => absurd hnone hlaced, fun _ => ⟨last, table, hrest, hcount⟩⟩

/-- Sizes that are known are those of all frames, and the block is used up by them and what
stands before them. -/
theorem known_of_frames
    (h : frames lacing rest fixedLength length whole = .ok (count, some sizes)) :
    sizes.length = count ∧
      ∃ lengths behind, lacing.Fits lengths sizes ∧
        rest = lacing.opening lengths sizes ++ behind ∧
        fixedLength + (lacing.opening lengths sizes).length + Lacing.total sizes = length := by
  rcases eq_of_frames h with
    ⟨rfl, hlong, rfl, hsizes⟩ | ⟨hlaced, hlong, last, table, rfl, rfl, hfound⟩
  · obtain rfl := Option.some.inj hsizes
    refine ⟨rfl, [], rest, rfl, rfl, ?_⟩
    rw [length_opening, Lacing.total_cons, Lacing.total_nil]
    simp only [if_true, Lacing.table, List.length_nil]
    omega
  · rcases eq_of_sizesOf? hfound with ⟨known, hknown, hread⟩ | ⟨hunknown, _⟩
    · obtain rfl := Option.some.inj hknown
      have hlast : last.toNat < 256 := last.toNat_lt
      obtain ⟨hcount, lengths, behind, hfits, htable, htotal⟩ :=
        Lacing.eq_of_sizes hlaced (by omega) (by omega) hread
      have hbyte : UInt8.ofNat (sizes.length - 1) = last := by
        rw [hcount, Nat.add_sub_cancel, UInt8.ofNat_toNat]
      refine ⟨hcount, lengths, behind, hfits, ?_, ?_⟩
      · rw [Lacing.opening, if_neg hlaced, hbyte, htable, List.cons_append]
      · rw [length_opening, if_neg hlaced]
        omega
    · simp at hunknown

/-- Sizes are unknown only when the kept bytes end in a table, and before the block. -/
theorem unknown_of_frames
    (h : frames lacing rest fixedLength length whole = .ok (count, none)) :
    lacing.HasTable ∧ whole = false := by
  rcases eq_of_frames h with ⟨_, _, _, hsizes⟩ | ⟨_, _, _, _, _, _, hfound⟩
  · simp at hsizes
  · rcases eq_of_sizesOf? hfound with ⟨_, hknown, _⟩ | ⟨_, hwhole, hshort⟩
    · simp at hknown
    · exact ⟨Lacing.hasTable_of_error hshort (by decide), hwhole⟩

/-- Bytes can be cut into frames of sizes that add up to them. -/
theorem exists_frames (sizes : List Nat) {bytes : Bytes} (h : bytes.length = Lacing.total sizes) :
    ∃ frames : List Bytes, frames.map List.length = sizes ∧ bytes = frames.flatten := by
  induction sizes generalizing bytes with
  | nil => exact ⟨[], rfl, List.length_eq_zero_iff.mp h⟩
  | cons size sizes ih =>
      rw [Lacing.total_cons] at h
      have hrest : (bytes.drop size).length = Lacing.total sizes := by
        rw [List.length_drop]
        omega
      obtain ⟨frames, hsizes, hframes⟩ := ih hrest
      refine ⟨bytes.take size :: frames, ?_, ?_⟩
      · rw [List.map_cons, hsizes, List.length_take, Nat.min_eq_left (by omega)]
      · rw [List.flatten_cons, ← hframes, List.take_append_drop]

/-- **Frames account for every byte.**  A block that is accepted has one frame, or as many as
its count byte tells.  Sizes that are known are those of all frames; behind the track number,
the timecode and the flags the bytes go on with the count byte and a table of just these sizes,
and all this and the frames themselves take the length of the block.  So the frames are all that
follows in a complete block.  Sizes are unknown only when the kept bytes end in a table, and
before the block; a table without a sum below `2 ^ 64` is not accepted. -/
theorem decode_accounts (h : decode bytes length = .ok head) :
    ∃ track high low rest,
      Begins bytes track high low head.flags rest ∧
        head.track = track.data ∧ head.timecode = Bytes.signed [high, low] ∧
        (head.lacing = .none → head.frameCount = 1) ∧
        (head.lacing ≠ .none → ∃ last table, rest = last :: table ∧
          head.frameCount = last.toNat + 1) ∧
        (∀ sizes, head.frameSizes = some sizes →
          sizes.length = head.frameCount ∧
            ∃ lengths behind,
              head.lacing.Fits lengths sizes ∧
                rest = head.lacing.opening lengths sizes ++ behind ∧
                track.length + 3 + (if head.lacing = .none then 0 else 1) +
                    (head.lacing.table lengths sizes).length + Lacing.total sizes = length ∧
                (bytes.length = length →
                  ∃ frames : List Bytes, frames.map List.length = sizes ∧
                    behind = frames.flatten)) ∧
        (head.frameSizes = none → head.lacing.HasTable ∧ bytes.length < length) := by
  obtain ⟨track, high, low, rest, hbegins, htrack, htimecode, hframes⟩ := eq_of_decode h
  obtain ⟨hsingle, hlaced⟩ := count_of_frames hframes
  refine ⟨track, high, low, rest, hbegins, htrack, htimecode, hsingle, hlaced, ?_, ?_⟩
  · intro sizes hsizes
    rw [hsizes] at hframes
    obtain ⟨hcount, lengths, behind, hfits, hrest, htotal⟩ := known_of_frames hframes
    have hopening := length_opening head.lacing lengths sizes
    refine ⟨hcount, lengths, behind, hfits, hrest, by omega, ?_⟩
    intro hcomplete
    refine exists_frames sizes ?_
    have hlength := hbegins.length_eq
    rw [hrest, List.length_append] at hlength
    omega
  · intro hunknown
    rw [hunknown] at hframes
    obtain ⟨hlacing, hwhole⟩ := unknown_of_frames hframes
    exact ⟨hlacing, Nat.lt_of_not_le (of_decide_eq_false hwhole)⟩

/-- The table of a block whose frames are not among the kept bytes: an entry of two bytes for
the first frame, and for the second that it is two bytes shorter. -/
theorem decode_accounts_ebml :
    let bytes : Bytes := [0x40, 0x81, 0x01, 0x00, 0x06, 0x02, 0x41, 0xF4, 0xBD]
    let head : BlockHead := ⟨129, 256, 6, 3, some [500, 498, 10]⟩
    decode bytes 1017 = .ok head ∧
      ∃ track high low rest lengths behind,
        Begins bytes track high low 6 rest ∧
          Lacing.ebml.Fits lengths [500, 498, 10] ∧
          rest = Lacing.ebml.opening lengths [500, 498, 10] ++ behind ∧
          track.length + 3 + 1 + (Lacing.ebml.table lengths [500, 498, 10]).length + 1008 =
            1017 := by
  intro bytes head
  have hread : decode bytes 1017 = .ok head := by decide +kernel
  have hlacing : head.lacing = .ebml := by decide +kernel
  obtain ⟨track, high, low, rest, hbegins, _, _, _, _, hknown, _⟩ := decode_accounts hread
  obtain ⟨_, lengths, behind, hfits, hrest, htotal, _⟩ := hknown _ rfl
  rw [hlacing] at hfits hrest htotal
  exact ⟨hread, track, high, low, rest, lengths, behind, hbegins, hfits, hrest, htotal⟩

end Accounts

end BlockHead

end Matroska

end EbmlReport
