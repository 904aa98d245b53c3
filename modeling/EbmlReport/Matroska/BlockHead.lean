import EbmlReport.Matroska.Lacing

/-!
# Block headers

A block opens with the number of its track, a timecode relative to its cluster, and a
byte of flags.  A laced block goes on with the count of its frames, less one, and a
table of their sizes.

A scan keeps only the leading bytes of a block.  A table that runs past them leaves
the sizes unknown; a table that runs past the block itself is a defect.
-/

namespace EbmlReport

namespace Matroska

/-- The opening of a block. -/
structure BlockHead where
  track : Nat
  /-- Relative to the timestamp of the cluster. -/
  timecode : Int
  flags : UInt8
  frameCount : Nat
  /-- The size of each frame, when the table was read to its end. -/
  frameSizes : Option (List Nat)
deriving DecidableEq, Repr

namespace BlockHead

variable (h : BlockHead)

/-- How the frame sizes are stored. -/
def lacing : Lacing := .ofFlags h.flags

/-- The frame can be decoded by itself; said of simple blocks only. -/
def isKeyframe : Bool := h.flags.toNat / 128 % 2 == 1

/-- The frame is decoded but not shown. -/
def isInvisible : Bool := h.flags.toNat / 8 % 2 == 1

/-- The frame may be dropped when there is no time for it. -/
def isDiscardable : Bool := h.flags.toNat % 2 == 1

/-- The frame sizes of a laced block, if its kept bytes hold the whole table. -/
def sizesOf? (lacing : Lacing) (count : Nat) (table : Bytes) (remaining : Nat)
    (whole : Bool) : Except BlockDefect (Option (List Nat)) :=
  match lacing.sizes count table remaining with
  | .ok sizes => .ok (some sizes)
  | .error .cutShort => if whole then .error .cutShort else .ok none
  | .error defect => .error defect

/-- Count and sizes of the frames of a block of `length` bytes whose fixed part takes
`fixedLength` of them; `rest` are the kept bytes after the fixed part. -/
def frames (lacing : Lacing) (rest : Bytes) (fixedLength length : Nat) (whole : Bool) :
    Except BlockDefect (Nat × Option (List Nat)) :=
  match lacing, rest with
  | .none, _ =>
      if length < fixedLength then .error .cutShort
      else .ok (1, some [length - fixedLength])
  | _, [] => .error .cutShort
  | _, last :: table =>
      if length < fixedLength + 1 then .error .cutShort
      else
        let count := last.toNat + 1
        match sizesOf? lacing count table (length - (fixedLength + 1)) whole with
        | .ok sizes => .ok (count, sizes)
        | .error defect => .error defect

/-- Reads the header of a block of `length` bytes, of which the leading ones are
given. -/
def decode (bytes : Bytes) (length : Nat) : Except BlockDefect BlockHead :=
  match Varint.decode bytes with
  | .error .unmarked => .error .trackUnmarked
  | .error .cutShort => .error .cutShort
  | .ok none => .error .cutShort
  | .ok (some track) =>
      match bytes.drop track.length with
      | high :: low :: flags :: rest =>
          match frames (.ofFlags flags) rest (track.length + 3) length (length ≤ bytes.length) with
          | .ok (count, sizes) =>
              .ok ⟨track.data, Bytes.signed [high, low], flags, count, sizes⟩
          | .error defect => .error defect
      | _ => .error .cutShort

end BlockHead

end Matroska

end EbmlReport
