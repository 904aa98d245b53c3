/-!
# Codes of Matroska elements

The element IDs that occur in Matroska and WebM files, each with its marker, as it
stands in a file.
-/

namespace EbmlReport

namespace Matroska

namespace Code

/-! ### The header element of every EBML file, and elements of all document types -/

def ebml : Nat := 0x1A45DFA3
def ebmlVersion : Nat := 0x4286
def ebmlReadVersion : Nat := 0x42F7
def ebmlMaxIdLength : Nat := 0x42F2
def ebmlMaxSizeLength : Nat := 0x42F3
def docType : Nat := 0x4282
def docTypeVersion : Nat := 0x4287
def docTypeReadVersion : Nat := 0x4285
def void : Nat := 0xEC
def crc32 : Nat := 0xBF

/-! ### The segment and its index of top-level elements -/

def segment : Nat := 0x18538067
def seekHead : Nat := 0x114D9B74
def seek : Nat := 0x4DBB
def seekId : Nat := 0x53AB
def seekPosition : Nat := 0x53AC

/-! ### Segment information -/

def info : Nat := 0x1549A966
def segmentUid : Nat := 0x73A4
def segmentFilename : Nat := 0x7384
def prevUid : Nat := 0x3CB923
def prevFilename : Nat := 0x3C83AB
def nextUid : Nat := 0x3EB923
def nextFilename : Nat := 0x3E83BB
def timestampScale : Nat := 0x2AD7B1
def duration : Nat := 0x4489
def dateUtc : Nat := 0x4461
def title : Nat := 0x7BA9
def muxingApp : Nat := 0x4D80
def writingApp : Nat := 0x5741

/-! ### Clusters and blocks -/

def cluster : Nat := 0x1F43B675
def timestamp : Nat := 0xE7
def position : Nat := 0xA7
def prevSize : Nat := 0xAB
def simpleBlock : Nat := 0xA3
def blockGroup : Nat := 0xA0
def block : Nat := 0xA1
def blockDuration : Nat := 0x9B
def referenceBlock : Nat := 0xFB
def discardPadding : Nat := 0x75A2

/-! ### Tracks -/

def tracks : Nat := 0x1654AE6B
def trackEntry : Nat := 0xAE
def trackNumber : Nat := 0xD7
def trackUid : Nat := 0x73C5
def trackType : Nat := 0x83
def flagEnabled : Nat := 0xB9
def flagDefault : Nat := 0x88
def flagForced : Nat := 0x55AA
def flagLacing : Nat := 0x9C
def minCache : Nat := 0x6DE7
def maxCache : Nat := 0x6DF8
def defaultDuration : Nat := 0x23E383
def maxBlockAdditionId : Nat := 0x55EE
def name : Nat := 0x536E
def language : Nat := 0x22B59C
def languageBcp47 : Nat := 0x22B59D
def codecId : Nat := 0x86
def codecPrivate : Nat := 0x63A2
def codecName : Nat := 0x258688
def codecDelay : Nat := 0x56AA
def seekPreRoll : Nat := 0x56BB
def trackOverlay : Nat := 0x6FAB

/-! ### Tracks made of other tracks -/

def trackOperation : Nat := 0xE2
def trackCombinePlanes : Nat := 0xE3
def trackPlane : Nat := 0xE4
def trackPlaneUid : Nat := 0xE5
def trackPlaneType : Nat := 0xE6
def trackJoinBlocks : Nat := 0xE9
def trackJoinUid : Nat := 0xED

/-! ### Video settings -/

def video : Nat := 0xE0
def flagInterlaced : Nat := 0x9A
def pixelWidth : Nat := 0xB0
def pixelHeight : Nat := 0xBA
def displayWidth : Nat := 0x54B0
def displayHeight : Nat := 0x54BA
def displayUnit : Nat := 0x54B2

/-! ### Audio settings -/

def audio : Nat := 0xE1
def samplingFrequency : Nat := 0xB5
def outputSamplingFrequency : Nat := 0x78B5
def channels : Nat := 0x9F
def bitDepth : Nat := 0x6264

/-! ### Cues -/

def cues : Nat := 0x1C53BB6B
def cuePoint : Nat := 0xBB
def cueTime : Nat := 0xB3
def cueTrackPositions : Nat := 0xB7
def cueTrack : Nat := 0xF7
def cueClusterPosition : Nat := 0xF1
def cueRelativePosition : Nat := 0xF0
def cueDuration : Nat := 0xB2
def cueBlockNumber : Nat := 0x5378

/-! ### Attachments -/

def attachments : Nat := 0x1941A469
def attachedFile : Nat := 0x61A7
def fileDescription : Nat := 0x467E
def fileName : Nat := 0x466E
def fileMediaType : Nat := 0x4660
def fileData : Nat := 0x465C
def fileUid : Nat := 0x46AE

/-! ### Chapters -/

def chapters : Nat := 0x1043A770
def editionEntry : Nat := 0x45B9
def editionUid : Nat := 0x45BC
def chapterAtom : Nat := 0xB6
def chapterUid : Nat := 0x73C4
def chapterTimeStart : Nat := 0x91
def chapterTimeEnd : Nat := 0x92
def chapterDisplay : Nat := 0x80
def chapString : Nat := 0x85
def chapLanguage : Nat := 0x437C

/-! ### Tags -/

def tags : Nat := 0x1254C367
def tag : Nat := 0x7373
def targets : Nat := 0x63C0
def targetTypeValue : Nat := 0x68CA
def targetType : Nat := 0x63CA
def tagTrackUid : Nat := 0x63C5
def tagEditionUid : Nat := 0x63C9
def tagChapterUid : Nat := 0x63C4
def tagAttachmentUid : Nat := 0x63C6
def simpleTag : Nat := 0x67C8
def tagName : Nat := 0x45A3
def tagLanguage : Nat := 0x447A
def tagDefault : Nat := 0x4484
def tagString : Nat := 0x4487
def tagBinary : Nat := 0x4485

end Code

end Matroska

end EbmlReport
