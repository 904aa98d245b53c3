import EbmlReport.Forest
import EbmlReport.Matroska.Code

/-!
# Tracks

A track entry describes one stream of frames.  When one of its fields is given more
than once the last one counts, except that all overlays count.  In the planes of a
combined track the first one counts.
-/

namespace EbmlReport

namespace Matroska

/-- What a track carries. -/
inductive TrackType
  | video
  | audio
  | complex
  | logo
  | subtitle
  | buttons
  | control
  | metadata
  | other (code : Nat)
deriving DecidableEq, Repr

namespace TrackType

/-- The type behind its number in a file. -/
def ofCode : Nat → TrackType
  | 1 => video
  | 2 => audio
  | 3 => complex
  | 16 => logo
  | 17 => subtitle
  | 18 => buttons
  | 32 => control
  | 33 => metadata
  | code => other code

/-- The wording of a track type. -/
def name : TrackType → String
  | video => "video"
  | audio => "audio"
  | complex => "complex"
  | logo => "logo"
  | subtitle => "subtitle"
  | buttons => "buttons"
  | control => "control"
  | metadata => "metadata"
  | other code => s!"unknown ({code})"

end TrackType

/-- Picture sizes of a video track. -/
structure Video where
  pixelWidth : Option Nat
  pixelHeight : Option Nat
  displayWidth : Option Nat
  displayHeight : Option Nat
  interlaced : Option Nat
deriving DecidableEq, Repr

/-- The settings that the children of a Video element make up. -/
def Video.ofChildren (children : Forest) : Video where
  pixelWidth := children.lastAs Element.unsigned? Code.pixelWidth
  pixelHeight := children.lastAs Element.unsigned? Code.pixelHeight
  displayWidth := children.lastAs Element.unsigned? Code.displayWidth
  displayHeight := children.lastAs Element.unsigned? Code.displayHeight
  interlaced := children.lastAs Element.unsigned? Code.flagInterlaced

/-- Sampling of an audio track. -/
structure Audio where
  samplingFrequency : Option Binary64
  outputSamplingFrequency : Option Binary64
  channels : Option Nat
  bitDepth : Option Nat
deriving DecidableEq, Repr

/-- The settings that the children of an Audio element make up. -/
def Audio.ofChildren (children : Forest) : Audio where
  samplingFrequency := children.lastAs Element.float? Code.samplingFrequency
  outputSamplingFrequency := children.lastAs Element.float? Code.outputSamplingFrequency
  channels := children.lastAs Element.unsigned? Code.channels
  bitDepth := children.lastAs Element.unsigned? Code.bitDepth

/-- A track that takes part in a stereoscopic one. -/
structure TrackPlane where
  uid : Option Nat
  /-- The left eye is 0, the right eye 1, the background 2. -/
  planeType : Option Nat
deriving DecidableEq, Repr

/-- The plane that the children of a TrackPlane element make up. -/
def TrackPlane.ofChildren (children : Forest) : TrackPlane where
  uid := children.firstAs Element.unsigned? Code.trackPlaneUid
  planeType := children.firstAs Element.unsigned? Code.trackPlaneType

/-- How a track is made from other tracks. -/
structure TrackOperation where
  planes : List TrackPlane
  joinUids : List Nat
deriving DecidableEq, Repr

/-- The operation that the children of a TrackOperation element make up. -/
def TrackOperation.ofChildren (children : Forest) : TrackOperation where
  planes := (children.withId Code.trackCombinePlanes).flatMap fun planes =>
    (planes.children.withId Code.trackPlane).map fun plane => .ofChildren plane.children
  joinUids := (children.withId Code.trackJoinBlocks).flatMap fun blocks =>
    blocks.children.allAs Element.unsigned? Code.trackJoinUid

/-- One track. -/
structure Track where
  number : Option Nat
  uid : Option Nat
  trackType : Option TrackType
  flagEnabled : Option Nat
  flagDefault : Option Nat
  flagForced : Option Nat
  flagLacing : Option Nat
  name : Option String
  language : Option String
  languageBcp47 : Option String
  codecId : Option String
  codecName : Option String
  codecPrivateLength : Option Nat
  /-- Nanoseconds for each frame. -/
  defaultDuration : Option Nat
  codecDelay : Option Nat
  seekPreRoll : Option Nat
  video : Option Video
  audio : Option Audio
  /-- The tracks to use when this one has no data. -/
  overlays : List Nat
  operation : Option TrackOperation
deriving DecidableEq, Repr

/-- The track that the children of a TrackEntry element make up. -/
def Track.ofChildren (children : Forest) : Track where
  number := children.lastAs Element.unsigned? Code.trackNumber
  uid := children.lastAs Element.unsigned? Code.trackUid
  trackType := (children.lastAs Element.unsigned? Code.trackType).map .ofCode
  flagEnabled := children.lastAs Element.unsigned? Code.flagEnabled
  flagDefault := children.lastAs Element.unsigned? Code.flagDefault
  flagForced := children.lastAs Element.unsigned? Code.flagForced
  flagLacing := children.lastAs Element.unsigned? Code.flagLacing
  name := children.lastAs Element.text? Code.name
  language := children.lastAs Element.text? Code.language
  languageBcp47 := children.lastAs Element.text? Code.languageBcp47
  codecId := children.lastAs Element.text? Code.codecId
  codecName := children.lastAs Element.text? Code.codecName
  codecPrivateLength := children.lastAs Element.binaryLength? Code.codecPrivate
  defaultDuration := children.lastAs Element.unsigned? Code.defaultDuration
  codecDelay := children.lastAs Element.unsigned? Code.codecDelay
  seekPreRoll := children.lastAs Element.unsigned? Code.seekPreRoll
  video := (children.last? Code.video).map fun e => .ofChildren e.children
  audio := (children.last? Code.audio).map fun e => .ofChildren e.children
  overlays := children.allAs Element.unsigned? Code.trackOverlay
  operation := (children.last? Code.trackOperation).map fun e => .ofChildren e.children

end Matroska

end EbmlReport
