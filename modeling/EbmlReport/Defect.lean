/-!
# Defects

A defect is one way in which the structure of a file is wrong at some place.  A
scan either stops at a defect or records it at the element where it was found.
-/

namespace EbmlReport

/-- What is wrong with a piece of an EBML file. -/
inductive Defect
  /-- The first byte of an element ID marks no width. -/
  | idUnmarked
  /-- An element ID is longer than four bytes. -/
  | idTooLong (length : Nat)
  /-- The first byte of an element size marks no width. -/
  | sizeUnmarked
  /-- The bytes end inside an element ID or size. -/
  | cutShort
  /-- Nothing tells where an element of unknown size ends. -/
  | boundaryUnresolvable
  /-- A container lies deeper than the limit of the scan. -/
  | tooDeep (limit : Nat)
  /-- A text payload is not UTF-8. -/
  | notUtf8
  /-- An integer payload has more than eight bytes. -/
  | integerWidth (length : Nat)
  /-- A float payload has a length other than 0, 4 and 8. -/
  | floatWidth (length : Nat)
  /-- A date payload has a length other than 0 and 8. -/
  | dateWidth (length : Nat)
  /-- A text payload is larger than a scan takes into memory. -/
  | oversized (length : Nat)
  /-- An element declares more bytes than its parent has left. -/
  | overrunsParent (declared available : Nat)
deriving DecidableEq, Repr

namespace Defect

/-- The wording of a defect in reports. -/
def message : Defect → String
  | idUnmarked => "invalid element ID prefix (no VINT marker)"
  | idTooLong length => s!"invalid element ID length: {length} bytes"
  | sizeUnmarked => "invalid element size prefix (no VINT marker)"
  | cutShort => "unexpected end of data in VINT"
  | boundaryUnresolvable => "cannot resolve element boundary"
  | tooDeep limit => s!"maximum nesting depth of {limit} exceeded"
  | notUtf8 => "invalid UTF-8 string"
  | integerWidth length => s!"invalid integer length: {length}"
  | floatWidth length => s!"invalid float length: {length}"
  | dateWidth length => s!"invalid date length: {length}"
  | oversized length => s!"value of {length} bytes is too large to decode"
  | overrunsParent declared available =>
      s!"element declares {declared} bytes but only {available} remain in its parent"

end Defect

end EbmlReport
