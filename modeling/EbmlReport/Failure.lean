import EbmlReport.Defect

/-!
# Failures of a scan

A scan as a whole ends without a result when the stream under it fails, when a defect
cannot be recovered from, or when it is cancelled.
-/

namespace EbmlReport

/-- Why bytes could not be read from a stream. -/
inductive StreamError
  /-- The bytes asked for do not lie inside the stream. -/
  | outOfBounds (offset length size : Nat)
  /-- The stream ended before the length that it announced. -/
  | endedEarly
  /-- A refilled window does not hold the bytes it was refilled for. -/
  | windowShort
  /-- There is no such file. -/
  | notFound
  /-- The device under the stream failed, in its own words. -/
  | device (words : String)
deriving DecidableEq, Repr

namespace StreamError

/-- The wording of a stream error. -/
def message : StreamError → String
  | outOfBounds offset length size =>
      s!"read of {length} bytes at offset {offset} exceeds source length {size}"
  | endedEarly => "failed to fill whole buffer"
  | windowShort => "window refill came up short"
  | notFound => "No such file or directory (os error 2)"
  | device words => words

end StreamError

/-- Why a scan has no result. -/
inductive Failure
  | stream (cause : StreamError)
  /-- A defect that ends the scan, with the offset of the element that has it. -/
  | format (offset : Nat) (reason : Defect)
  | cancelled
deriving DecidableEq, Repr

namespace Failure

/-- The wording of a failure. -/
def message : Failure → String
  | stream cause => "IO error: " ++ cause.message
  | format offset reason => s!"format error at byte {offset}: " ++ reason.message
  | cancelled => "scan cancelled"

end Failure

end EbmlReport
