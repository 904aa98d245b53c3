import EbmlReport.Bytes

/-!
# Contents of a file

The contents of a file are its length and the byte at each offset.  Bytes are never
laid out in memory as a whole, so a file may be of any length.

**Results.**
* `Contents.length_slice`: a slice has the length asked for.
* `Contents.slice_append`: slices that meet make up one slice.
-/

namespace EbmlReport

/-- A file as a length and its bytes. -/
structure Contents where
  length : Nat
  byteAt : Nat → UInt8

namespace Contents

/-- The contents that a byte array holds. -/
def ofByteArray (bytes : ByteArray) : Contents where
  length := bytes.size
  byteAt i := if h : i < bytes.size then bytes[i] else 0

/-- The contents that a list of bytes holds. -/
def ofBytes (bytes : Bytes) : Contents where
  length := bytes.length
  byteAt i := bytes.getD i 0

/-- The bytes from `offset` on, as many as `length`. -/
def slice (c : Contents) (offset length : Nat) : Bytes :=
  (List.range' offset length).map c.byteAt

@[simp] theorem length_slice (c : Contents) (offset length : Nat) :
    (c.slice offset length).length = length := by
  simp [slice]

theorem slice_append (c : Contents) (offset front back : Nat) :
    c.slice offset front ++ c.slice (offset + front) back = c.slice offset (front + back) := by
  unfold slice
  rw [← List.map_append, List.range'_append_1]

end Contents

end EbmlReport
