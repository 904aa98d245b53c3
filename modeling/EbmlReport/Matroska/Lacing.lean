import EbmlReport.Varint

/-!
# Lacing

A block may hold several frames.  How their sizes are stored is called lacing: all
frames of one size, or a table of all sizes but the last, which is what remains.  A
Xiph table writes a size as a run of bytes that add up to it, the last one below 255.
An EBML table writes the first size as a variable-width integer and each later one as
its difference from the one before.

**Results.**
* `Lacing.length_xiphSizes`, `Lacing.length_ebmlSizes`: a table that is read to its
  end has the number of sizes asked for.
-/

namespace EbmlReport

namespace Matroska

/-- Why a block cannot be taken apart. -/
inductive BlockDefect
  /-- The block ends inside its header or its table of sizes. -/
  | cutShort
  /-- The first byte of the track number marks no width. -/
  | trackUnmarked
  /-- The sizes do not add up to the bytes of the block. -/
  | laceSizes
  /-- The sizes of a table have no sum below `2 ^ 64`. -/
  | sumOverflow
deriving DecidableEq, Repr

namespace BlockDefect

/-- The wording of a block defect. -/
def message : BlockDefect → String
  | cutShort => "block header is truncated"
  | trackUnmarked => "invalid track number"
  | laceSizes => "lace sizes do not add up to the block size"
  | sumOverflow => "attempt to add with overflow"

end BlockDefect

/-- How the frame sizes of a block are stored. -/
inductive Lacing
  /-- The block is one frame. -/
  | none
  | xiph
  /-- All frames have one size. -/
  | fixed
  | ebml
deriving DecidableEq, Repr

namespace Lacing

/-- The wording of a lacing. -/
def name : Lacing → String
  | none => "none"
  | xiph => "Xiph"
  | fixed => "fixed"
  | ebml => "EBML"

/-- The lacing that the flags of a block name, in bits 1 and 2. -/
def ofFlags (flags : UInt8) : Lacing :=
  match flags.toNat / 2 % 4 with
  | 0 => none
  | 1 => xiph
  | 2 => fixed
  | _ => ebml

/-- Sizes are below this. -/
def sizeBound : Nat := 2 ^ 64

/-- Reads one size of a Xiph table. -/
def xiphSize : Bytes → Except BlockDefect (Nat × Bytes)
  | [] => .error .cutShort
  | byte :: rest =>
      if byte = 255 then
        match xiphSize rest with
        | .ok (size, rest) => .ok (255 + size, rest)
        | .error defect => .error defect
      else .ok (byte.toNat, rest)

/-- Reads `count` sizes of a Xiph table, and the bytes after them. -/
def xiphSizes : (count : Nat) → Bytes → Except BlockDefect (List Nat × Bytes)
  | 0, table => .ok ([], table)
  | count + 1, table =>
      match xiphSize table with
      | .error defect => .error defect
      | .ok (size, rest) =>
          match xiphSizes count rest with
          | .error defect => .error defect
          | .ok (sizes, rest) => .ok (size :: sizes, rest)

/-- The size that an entry of an EBML table stands for after `previous`. -/
def ebmlSize (previous : Option Nat) (entry : Varint) : Except BlockDefect Nat :=
  match previous with
  | .none => .ok entry.data
  | some previous =>
      let size := (previous : Int) + entry.signed
      if 0 ≤ size ∧ size < sizeBound then .ok size.toNat else .error .laceSizes

/-- Reads `count` sizes of an EBML table, and the bytes after them. -/
def ebmlSizes :
    (count : Nat) → (previous : Option Nat) → Bytes → Except BlockDefect (List Nat × Bytes)
  | 0, _, table => .ok ([], table)
  | count + 1, previous, table =>
      match Varint.decode table with
      | .error .unmarked => .error .laceSizes
      | .error .cutShort => .error .cutShort
      | .ok .none => .error .cutShort
      | .ok (some entry) =>
          match ebmlSize previous entry with
          | .error defect => .error defect
          | .ok size =>
              match ebmlSizes count (some size) (table.drop entry.length) with
              | .error defect => .error defect
              | .ok (sizes, rest) => .ok (size :: sizes, rest)

/-- Adds the size of the last frame to the sizes of a table that takes `tableLength`
of the `remaining` bytes. -/
def closeSizes (sizes : List Nat) (tableLength remaining : Nat) : Except BlockDefect (List Nat) :=
  let total := sizes.foldr (· + ·) 0
  if remaining < tableLength then .error .laceSizes
  else if sizeBound ≤ total then .error .sumOverflow
  else if remaining - tableLength < total then .error .laceSizes
  else .ok (sizes ++ [remaining - tableLength - total])

/-- The sizes of `count` frames.  Table and frames together take `remaining` bytes,
of which the leading ones are given. -/
def sizes (lacing : Lacing) (count : Nat) (table : Bytes) (remaining : Nat) :
    Except BlockDefect (List Nat) :=
  match lacing with
  | none => .ok [remaining]
  | fixed =>
      if remaining % count = 0 then .ok (List.replicate count (remaining / count))
      else .error .laceSizes
  | xiph =>
      match xiphSizes (count - 1) table with
      | .error defect => .error defect
      | .ok (sizes, rest) => closeSizes sizes (table.length - rest.length) remaining
  | ebml =>
      match ebmlSizes (count - 1) .none table with
      | .error defect => .error defect
      | .ok (sizes, rest) => closeSizes sizes (table.length - rest.length) remaining

theorem length_xiphSizes {count : Nat} {table rest : Bytes} {sizes : List Nat}
    (h : xiphSizes count table = .ok (sizes, rest)) : sizes.length = count := by
  induction count generalizing table sizes with
  | zero =>
      simp only [xiphSizes, Except.ok.injEq, Prod.mk.injEq] at h
      simp [← h.1]
  | succ count ih =>
      unfold xiphSizes at h
      split at h
      · simp at h
      · split at h
        · simp at h
        · rename_i hrec
          simp only [Except.ok.injEq, Prod.mk.injEq] at h
          obtain ⟨rfl, rfl⟩ := h
          simp [ih hrec]

theorem length_ebmlSizes {count : Nat} {previous : Option Nat} {table rest : Bytes}
    {sizes : List Nat} (h : ebmlSizes count previous table = .ok (sizes, rest)) :
    sizes.length = count := by
  induction count generalizing previous table sizes with
  | zero =>
      simp only [ebmlSizes, Except.ok.injEq, Prod.mk.injEq] at h
      simp [← h.1]
  | succ count ih =>
      unfold ebmlSizes at h
      split at h
      · simp at h
      · simp at h
      · simp at h
      · split at h
        · simp at h
        · split at h
          · simp at h
          · rename_i hrec
            simp only [Except.ok.injEq, Prod.mk.injEq] at h
            obtain ⟨rfl, rfl⟩ := h
            simp [ih hrec]

end Lacing

end Matroska

end EbmlReport
