import EbmlReport.Forest
import EbmlReport.Matroska.Code

/-!
# Indices of a segment

A seek entry tells where a top-level element of the segment lies; a cue point tells
where the frames of a moment lie, for one or more tracks.  When a field is given more
than once the last one counts, except for the time of a cue point, where the first
one does.
-/

namespace EbmlReport

namespace Matroska

/-- Where a top-level element lies. -/
structure SeekEntry where
  id : Option Nat
  /-- Counted from the start of the segment's payload. -/
  position : Option Nat
deriving DecidableEq, Repr

namespace SeekEntry

/-- The ID that an opaque payload of one to four bytes spells. -/
def idOf? (e : Element) : Option Nat :=
  match e.binary? with
  | some (length, preview) =>
      if 1 ≤ length ∧ length ≤ 4 then some (preview.unsigned % 2 ^ 32) else none
  | none => none

/-- The entry that the children of a Seek element make up. -/
def ofChildren (children : Forest) : SeekEntry where
  id := children.lastAs idOf? Code.seekId
  position := children.lastAs Element.unsigned? Code.seekPosition

end SeekEntry

/-- Where the frames of one track lie. -/
structure CuePosition where
  track : Option Nat
  clusterPosition : Option Nat
  relativePosition : Option Nat
  duration : Option Nat
  blockNumber : Option Nat
deriving DecidableEq, Repr

/-- The position that the children of a CueTrackPositions element make up. -/
def CuePosition.ofChildren (children : Forest) : CuePosition where
  track := children.lastAs Element.unsigned? Code.cueTrack
  clusterPosition := children.lastAs Element.unsigned? Code.cueClusterPosition
  relativePosition := children.lastAs Element.unsigned? Code.cueRelativePosition
  duration := children.lastAs Element.unsigned? Code.cueDuration
  blockNumber := children.lastAs Element.unsigned? Code.cueBlockNumber

/-- Where the frames of one moment lie. -/
structure CuePoint where
  time : Option Nat
  positions : List CuePosition
deriving DecidableEq, Repr

/-- The cue point that the children of a CuePoint element make up. -/
def CuePoint.ofChildren (children : Forest) : CuePoint where
  time := children.firstAs Element.unsigned? Code.cueTime
  positions := (children.withId Code.cueTrackPositions).map fun e => .ofChildren e.children

end Matroska

end EbmlReport
