import EbmlReport.Bytes

/-!
# Variable-width integers

An EBML integer announces its own width.  The first byte holds a marker, the
highest bit that is set; a marker at place `k` from the left means that the
integer takes `k` bytes, from one to eight.  The bits after the marker, seven for
each byte, are the data.

**Results.**
* `Varint.width?_eq_some`: a width is between one and eight.
* `Varint.length_encode`: writing takes the width that the integer names.
-/

namespace EbmlReport

/-- A variable-width integer as stored: `value` still carries the marker. -/
structure Varint where
  value : Nat
  length : Nat
deriving DecidableEq, Repr

namespace Varint

/-- Why no integer can be read from bytes that are there. -/
inductive Fault
  /-- The first byte is zero, so no bit of it marks a width. -/
  | unmarked
  /-- There are fewer bytes than the marker announces. -/
  | cutShort
deriving DecidableEq, Repr

/-- The width that a first byte announces; zero has no marker. -/
def width? (first : UInt8) : Option Nat :=
  if first.toNat = 0 then none else some (8 - first.toNat.log2)

/-- Reads the integer at the start of `bytes`; there is none in no bytes. -/
def decode (bytes : Bytes) : Except Fault (Option Varint) :=
  match bytes with
  | [] => .ok none
  | first :: _ =>
      match width? first with
      | none => .error .unmarked
      | some width =>
          if bytes.length < width then .error .cutShort
          else .ok (some ⟨Bytes.unsigned (bytes.take width), width⟩)

/-- The stored integer of the given width and data. -/
def ofData (length data : Nat) : Varint :=
  ⟨2 ^ (7 * length) + data, length⟩

/-- The bytes of a stored integer. -/
def encode (v : Varint) : Bytes :=
  Bytes.ofNat v.length v.value

/-- The number without its marker. -/
def data (v : Varint) : Nat :=
  v.value % 2 ^ (7 * v.length)

/-- The data counted from the middle of its range, as differences between lace
sizes are stored. -/
def signed (v : Varint) : Int :=
  (v.data : Int) - (2 ^ (7 * v.length - 1) - 1)

/-- All data bits are set, which is reserved for "unknown". -/
def isReserved (v : Varint) : Bool :=
  v.data == 2 ^ (7 * v.length) - 1

theorem width?_eq_some {first : UInt8} {width : Nat} (h : width? first = some width) :
    1 ≤ width ∧ width ≤ 8 := by
  unfold width? at h
  split at h
  · simp at h
  · rename_i hne
    have hlt : first.toNat.log2 < 8 :=
      (Nat.log2_lt hne).2 first.toNat_lt
    simp only [Option.some.injEq] at h
    omega

@[simp] theorem length_encode (v : Varint) : v.encode.length = v.length := by
  simp [encode]

end Varint

end EbmlReport
