import EbmlReport.Defect
import EbmlReport.Varint

/-!
# Element headings

Every element opens with its ID and the size of its payload, both variable-width
integers.  An ID keeps its marker and has at most four bytes; a size whose data
bits are all set stands for a size that was not known when the file was written.

`Heading.decode` reads a heading and `Heading.encode` writes one.
-/

namespace EbmlReport

/-- The payload size that an element declares. -/
inductive DeclaredSize
  | known (length : Nat)
  /-- The end is found by content. -/
  | unknown
deriving DecidableEq, Repr

namespace DeclaredSize

/-- The length, when one is declared. -/
def known? : DeclaredSize → Option Nat
  | known length => some length
  | unknown => none

/-- The size that a stored integer stands for. -/
def ofVarint (v : Varint) : DeclaredSize :=
  if v.isReserved then unknown else known v.data

/-- The stored integer of a size at a given width. -/
def toVarint (length : Nat) : DeclaredSize → Varint
  | known n => Varint.ofData length n
  | unknown => Varint.ofData length (2 ^ (7 * length) - 1)

end DeclaredSize

/-- An element's ID and declared size, with the widths in which they are stored. -/
structure Heading where
  /-- The ID, marker included. -/
  id : Nat
  idLength : Nat
  size : DeclaredSize
  sizeLength : Nat
deriving DecidableEq, Repr

namespace Heading

/-- No ID has more bytes than this. -/
def maxIdLength : Nat := 4

/-- No heading has more bytes than this: an ID of four and a size of eight. -/
def maxLength : Nat := 12

/-- Bytes that the heading takes. -/
def length (h : Heading) : Nat :=
  h.idLength + h.sizeLength

/-- Reads an element ID at the start of `bytes`. -/
def decodeId (bytes : Bytes) : Except Defect (Option Varint) :=
  match Varint.decode bytes with
  | .error .unmarked => .error .idUnmarked
  | .error .cutShort => .error .cutShort
  | .ok none => .ok none
  | .ok (some v) =>
      if maxIdLength < v.length then .error (.idTooLong v.length) else .ok (some v)

/-- Reads an element size, and the bytes it takes, at the start of `bytes`. -/
def decodeSize (bytes : Bytes) : Except Defect (Option (DeclaredSize × Nat)) :=
  match Varint.decode bytes with
  | .error .unmarked => .error .sizeUnmarked
  | .error .cutShort => .error .cutShort
  | .ok none => .ok none
  | .ok (some v) => .ok (some (.ofVarint v, v.length))

/-- Reads a heading at the start of `bytes`.  There is none in no bytes; one that
the end of `bytes` cuts is a defect. -/
def decode (bytes : Bytes) : Except Defect (Option Heading) :=
  match decodeId bytes with
  | .error defect => .error defect
  | .ok none => .ok none
  | .ok (some id) =>
      match decodeSize (bytes.drop id.length) with
      | .error defect => .error defect
      | .ok none => .error .cutShort
      | .ok (some (size, sizeLength)) => .ok (some ⟨id.value, id.length, size, sizeLength⟩)

/-- The bytes of a heading. -/
def encode (h : Heading) : Bytes :=
  Bytes.ofNat h.idLength h.id ++ (h.size.toVarint h.sizeLength).encode

end Heading

end EbmlReport
