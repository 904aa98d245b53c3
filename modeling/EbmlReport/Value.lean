import EbmlReport.Calendar
import EbmlReport.Defect
import EbmlReport.Text.Quoted
import EbmlReport.Vocabulary

/-!
# Values of leaf elements

`Value.decode` reads the payload of a leaf according to its kind, and `Value.display`
is the wording of a value in reports.
-/

namespace EbmlReport

/-- The decoded payload of a leaf. -/
inductive Value
  | unsigned (n : Nat)
  | signed (n : Int)
  | float (x : Binary64)
  | text (s : String)
  /-- Nanoseconds since the start of 2001. -/
  | date (nanos : Int)
  /-- An opaque payload: its length and the leading bytes that were kept. -/
  | binary (length : Nat) (preview : Bytes)
deriving DecidableEq, Repr

namespace Value

/-- An opaque payload with the usual preview. -/
def ofBinary (length : Nat) (preview : Bytes) : Value :=
  binary length (preview.take previewLimit)

/-- Reads an unsigned integer of up to eight bytes. -/
def decodeUnsigned (bytes : Bytes) : Except Defect Nat :=
  if 8 < bytes.length then .error (.integerWidth bytes.length) else .ok bytes.unsigned

/-- Reads a signed integer of up to eight bytes. -/
def decodeSigned (bytes : Bytes) : Except Defect Int :=
  if 8 < bytes.length then .error (.integerWidth bytes.length) else .ok bytes.signed

/-- Reads a float of no, four or eight bytes; none stand for zero. -/
def decodeFloat (bytes : Bytes) : Except Defect Binary64 :=
  match bytes.length with
  | 0 => .ok .zero
  | 4 => .ok (.ofSingle bytes.unsigned)
  | 8 => .ok ⟨UInt64.ofNat bytes.unsigned⟩
  | other => .error (.floatWidth other)

/-- Reads a date of no or eight bytes. -/
def decodeDate (bytes : Bytes) : Except Defect Int :=
  match bytes.length with
  | 0 => .ok bytes.signed
  | 8 => .ok bytes.signed
  | other => .error (.dateWidth other)

/-- Reads text up to the first zero byte; what follows is padding. -/
def decodeText (bytes : Bytes) : Except Defect String :=
  match String.fromUTF8? (bytes.takeWhile (· != 0)).toByteArray with
  | some s => .ok s
  | none => .error .notUtf8

/-- Reads a whole payload of the given kind. -/
def decode (kind : Kind) (bytes : Bytes) : Except Defect Value :=
  match kind with
  | .unsigned => (decodeUnsigned bytes).map unsigned
  | .signed => (decodeSigned bytes).map signed
  | .float => (decodeFloat bytes).map float
  | .ascii => (decodeText bytes).map text
  | .utf8 => (decodeText bytes).map text
  | .date => (decodeDate bytes).map date
  | .binary => .ok (ofBinary bytes.length bytes)
  | .master => .ok (ofBinary bytes.length bytes)

/-- The wording of an opaque payload: its length and at most the usual preview. -/
def binaryText (length : Nat) (preview : Bytes) : String :=
  let shown := preview.take previewLimit
  if shown.isEmpty then s!"<{length} bytes>"
  else
    s!"<{length} bytes: " ++ Hex.text shown ++ (if shown.length < length then "..." else "") ++ ">"

/-- The wording of a value in reports. -/
def display : Value → String
  | unsigned n => toString n
  | signed n => toString n
  | float x => x.fixed 6
  | text s => Quoted.text s
  | date nanos => Calendar.text nanos
  | binary length preview => binaryText length preview

end Value

end EbmlReport
