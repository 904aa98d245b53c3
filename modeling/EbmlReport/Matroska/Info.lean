import EbmlReport.Forest
import EbmlReport.Matroska.Code

/-!
# Segment information

Title, writing program, duration and date of a segment.  When a field is given more
than once the last one counts.
-/

namespace EbmlReport

namespace Matroska

/-- General information about a segment. -/
structure Info where
  /-- The leading bytes of the identifier, which are all of a conforming one. -/
  segmentUid : Option Bytes
  segmentFilename : Option String
  title : Option String
  muxingApp : Option String
  writingApp : Option String
  /-- Nanoseconds in one timestamp tick. -/
  timestampScale : Option Nat
  /-- In timestamp ticks. -/
  duration : Option Binary64
  dateUtc : Option Int
deriving DecidableEq, Repr

namespace Info

/-- The information that the children of an Info element make up. -/
def ofChildren (children : Forest) : Info where
  segmentUid := children.lastAs (fun e => e.binary?.map Prod.snd) Code.segmentUid
  segmentFilename := children.lastAs Element.text? Code.segmentFilename
  title := children.lastAs Element.text? Code.title
  muxingApp := children.lastAs Element.text? Code.muxingApp
  writingApp := children.lastAs Element.text? Code.writingApp
  timestampScale := children.lastAs Element.unsigned? Code.timestampScale
  duration := children.lastAs Element.float? Code.duration
  dateUtc := children.lastAs Element.date? Code.dateUtc

/-- Nanoseconds in one tick when a segment does not say. -/
def defaultTimestampScale : Nat := 1000000

/-- Nanoseconds in one tick. -/
def effectiveTimestampScale (info : Info) : Nat :=
  info.timestampScale.getD defaultTimestampScale

/-- The duration in seconds: ticks times scale, over the nanoseconds of a second, each
step rounded to the nearest double. -/
def durationInSeconds (info : Info) : Option Binary64 :=
  info.duration.map fun ticks =>
    ticks * .ofNat info.effectiveTimestampScale / .ofNat 1000000000

end Info

end Matroska

end EbmlReport
