import EbmlReport.Matroska.Code
import EbmlReport.Text.Hex
import EbmlReport.Vocabulary

/-!
# The vocabulary of Matroska

The elements of the Matroska specification that reports know by name, with the kind of
their payload and the containers in which they may stand.

**Results.**
* `Matroska.ids_nodup`: no ID is listed twice.
-/

namespace EbmlReport

namespace Matroska

open Code in
/-- The elements of the specification. -/
def definitions : List Definition :=
  [
    ⟨ebml, "EBML", .master, .root⟩,
    ⟨ebmlVersion, "EBMLVersion", .unsigned, .within [ebml]⟩,
    ⟨ebmlReadVersion, "EBMLReadVersion", .unsigned, .within [ebml]⟩,
    ⟨ebmlMaxIdLength, "EBMLMaxIDLength", .unsigned, .within [ebml]⟩,
    ⟨ebmlMaxSizeLength, "EBMLMaxSizeLength", .unsigned, .within [ebml]⟩,
    ⟨docType, "DocType", .ascii, .within [ebml]⟩,
    ⟨docTypeVersion, "DocTypeVersion", .unsigned, .within [ebml]⟩,
    ⟨docTypeReadVersion, "DocTypeReadVersion", .unsigned, .within [ebml]⟩,
    ⟨void, "Void", .binary, .anywhere⟩,
    ⟨crc32, "CRC-32", .binary, .anywhere⟩,
    ⟨segment, "Segment", .master, .root⟩,
    ⟨seekHead, "SeekHead", .master, .within [segment]⟩,
    ⟨seek, "Seek", .master, .within [seekHead]⟩,
    ⟨seekId, "SeekID", .binary, .within [seek]⟩,
    ⟨seekPosition, "SeekPosition", .unsigned, .within [seek]⟩,
    ⟨info, "Info", .master, .within [segment]⟩,
    ⟨segmentUid, "SegmentUID", .binary, .within [info]⟩,
    ⟨segmentFilename, "SegmentFilename", .utf8, .within [info]⟩,
    ⟨prevUid, "PrevUID", .binary, .within [info]⟩,
    ⟨prevFilename, "PrevFilename", .utf8, .within [info]⟩,
    ⟨nextUid, "NextUID", .binary, .within [info]⟩,
    ⟨nextFilename, "NextFilename", .utf8, .within [info]⟩,
    ⟨timestampScale, "TimestampScale", .unsigned, .within [info]⟩,
    ⟨duration, "Duration", .float, .within [info]⟩,
    ⟨dateUtc, "DateUTC", .date, .within [info]⟩,
    ⟨title, "Title", .utf8, .within [info]⟩,
    ⟨muxingApp, "MuxingApp", .utf8, .within [info]⟩,
    ⟨writingApp, "WritingApp", .utf8, .within [info]⟩,
    ⟨cluster, "Cluster", .master, .within [segment]⟩,
    ⟨timestamp, "Timestamp", .unsigned, .within [cluster]⟩,
    ⟨position, "Position", .unsigned, .within [cluster]⟩,
    ⟨prevSize, "PrevSize", .unsigned, .within [cluster]⟩,
    ⟨simpleBlock, "SimpleBlock", .binary, .within [cluster]⟩,
    ⟨blockGroup, "BlockGroup", .master, .within [cluster]⟩,
    ⟨block, "Block", .binary, .within [blockGroup]⟩,
    ⟨blockDuration, "BlockDuration", .unsigned, .within [blockGroup]⟩,
    ⟨referenceBlock, "ReferenceBlock", .signed, .within [blockGroup]⟩,
    ⟨discardPadding, "DiscardPadding", .signed, .within [blockGroup]⟩,
    ⟨tracks, "Tracks", .master, .within [segment]⟩,
    ⟨trackEntry, "TrackEntry", .master, .within [tracks]⟩,
    ⟨trackNumber, "TrackNumber", .unsigned, .within [trackEntry]⟩,
    ⟨trackUid, "TrackUID", .unsigned, .within [trackEntry]⟩,
    ⟨trackType, "TrackType", .unsigned, .within [trackEntry]⟩,
    ⟨flagEnabled, "FlagEnabled", .unsigned, .within [trackEntry]⟩,
    ⟨flagDefault, "FlagDefault", .unsigned, .within [trackEntry]⟩,
    ⟨flagForced, "FlagForced", .unsigned, .within [trackEntry]⟩,
    ⟨flagLacing, "FlagLacing", .unsigned, .within [trackEntry]⟩,
    ⟨minCache, "MinCache", .unsigned, .within [trackEntry]⟩,
    ⟨maxCache, "MaxCache", .unsigned, .within [trackEntry]⟩,
    ⟨defaultDuration, "DefaultDuration", .unsigned, .within [trackEntry]⟩,
    ⟨maxBlockAdditionId, "MaxBlockAdditionID", .unsigned, .within [trackEntry]⟩,
    ⟨name, "Name", .utf8, .within [trackEntry]⟩,
    ⟨language, "Language", .ascii, .within [trackEntry]⟩,
    ⟨languageBcp47, "LanguageBCP47", .ascii, .within [trackEntry]⟩,
    ⟨codecId, "CodecID", .ascii, .within [trackEntry]⟩,
    ⟨codecPrivate, "CodecPrivate", .binary, .within [trackEntry]⟩,
    ⟨codecName, "CodecName", .utf8, .within [trackEntry]⟩,
    ⟨codecDelay, "CodecDelay", .unsigned, .within [trackEntry]⟩,
    ⟨seekPreRoll, "SeekPreRoll", .unsigned, .within [trackEntry]⟩,
    ⟨trackOverlay, "TrackOverlay", .unsigned, .within [trackEntry]⟩,
    ⟨trackOperation, "TrackOperation", .master, .within [trackEntry]⟩,
    ⟨trackCombinePlanes, "TrackCombinePlanes", .master, .within [trackOperation]⟩,
    ⟨trackPlane, "TrackPlane", .master, .within [trackCombinePlanes]⟩,
    ⟨trackPlaneUid, "TrackPlaneUID", .unsigned, .within [trackPlane]⟩,
    ⟨trackPlaneType, "TrackPlaneType", .unsigned, .within [trackPlane]⟩,
    ⟨trackJoinBlocks, "TrackJoinBlocks", .master, .within [trackOperation]⟩,
    ⟨trackJoinUid, "TrackJoinUID", .unsigned, .within [trackJoinBlocks]⟩,
    ⟨video, "Video", .master, .within [trackEntry]⟩,
    ⟨flagInterlaced, "FlagInterlaced", .unsigned, .within [video]⟩,
    ⟨pixelWidth, "PixelWidth", .unsigned, .within [video]⟩,
    ⟨pixelHeight, "PixelHeight", .unsigned, .within [video]⟩,
    ⟨displayWidth, "DisplayWidth", .unsigned, .within [video]⟩,
    ⟨displayHeight, "DisplayHeight", .unsigned, .within [video]⟩,
    ⟨displayUnit, "DisplayUnit", .unsigned, .within [video]⟩,
    ⟨audio, "Audio", .master, .within [trackEntry]⟩,
    ⟨samplingFrequency, "SamplingFrequency", .float, .within [audio]⟩,
    ⟨outputSamplingFrequency, "OutputSamplingFrequency", .float, .within [audio]⟩,
    ⟨channels, "Channels", .unsigned, .within [audio]⟩,
    ⟨bitDepth, "BitDepth", .unsigned, .within [audio]⟩,
    ⟨cues, "Cues", .master, .within [segment]⟩,
    ⟨cuePoint, "CuePoint", .master, .within [cues]⟩,
    ⟨cueTime, "CueTime", .unsigned, .within [cuePoint]⟩,
    ⟨cueTrackPositions, "CueTrackPositions", .master, .within [cuePoint]⟩,
    ⟨cueTrack, "CueTrack", .unsigned, .within [cueTrackPositions]⟩,
    ⟨cueClusterPosition, "CueClusterPosition", .unsigned, .within [cueTrackPositions]⟩,
    ⟨cueRelativePosition, "CueRelativePosition", .unsigned, .within [cueTrackPositions]⟩,
    ⟨cueDuration, "CueDuration", .unsigned, .within [cueTrackPositions]⟩,
    ⟨cueBlockNumber, "CueBlockNumber", .unsigned, .within [cueTrackPositions]⟩,
    ⟨attachments, "Attachments", .master, .within [segment]⟩,
    ⟨attachedFile, "AttachedFile", .master, .within [attachments]⟩,
    ⟨fileDescription, "FileDescription", .utf8, .within [attachedFile]⟩,
    ⟨fileName, "FileName", .utf8, .within [attachedFile]⟩,
    ⟨fileMediaType, "FileMediaType", .ascii, .within [attachedFile]⟩,
    ⟨fileData, "FileData", .binary, .within [attachedFile]⟩,
    ⟨fileUid, "FileUID", .unsigned, .within [attachedFile]⟩,
    ⟨chapters, "Chapters", .master, .within [segment]⟩,
    ⟨editionEntry, "EditionEntry", .master, .within [chapters]⟩,
    ⟨editionUid, "EditionUID", .unsigned, .within [editionEntry]⟩,
    ⟨chapterAtom, "ChapterAtom", .master, .within [editionEntry, chapterAtom]⟩,
    ⟨chapterUid, "ChapterUID", .unsigned, .within [chapterAtom]⟩,
    ⟨chapterTimeStart, "ChapterTimeStart", .unsigned, .within [chapterAtom]⟩,
    ⟨chapterTimeEnd, "ChapterTimeEnd", .unsigned, .within [chapterAtom]⟩,
    ⟨chapterDisplay, "ChapterDisplay", .master, .within [chapterAtom]⟩,
    ⟨chapString, "ChapString", .utf8, .within [chapterDisplay]⟩,
    ⟨chapLanguage, "ChapLanguage", .ascii, .within [chapterDisplay]⟩,
    ⟨tags, "Tags", .master, .within [segment]⟩,
    ⟨tag, "Tag", .master, .within [tags]⟩,
    ⟨targets, "Targets", .master, .within [tag]⟩,
    ⟨targetTypeValue, "TargetTypeValue", .unsigned, .within [targets]⟩,
    ⟨targetType, "TargetType", .ascii, .within [targets]⟩,
    ⟨tagTrackUid, "TagTrackUID", .unsigned, .within [targets]⟩,
    ⟨tagEditionUid, "TagEditionUID", .unsigned, .within [targets]⟩,
    ⟨tagChapterUid, "TagChapterUID", .unsigned, .within [targets]⟩,
    ⟨tagAttachmentUid, "TagAttachmentUID", .unsigned, .within [targets]⟩,
    ⟨simpleTag, "SimpleTag", .master, .within [tag, simpleTag]⟩,
    ⟨tagName, "TagName", .utf8, .within [simpleTag]⟩,
    ⟨tagLanguage, "TagLanguage", .ascii, .within [simpleTag]⟩,
    ⟨tagDefault, "TagDefault", .unsigned, .within [simpleTag]⟩,
    ⟨tagString, "TagString", .utf8, .within [simpleTag]⟩,
    ⟨tagBinary, "TagBinary", .binary, .within [simpleTag]⟩]

theorem ids_nodup : (definitions.map Definition.id).Nodup := by
  decide +kernel

/-- Bytes kept of a block, enough for its header and most lace tables. -/
def blockPreviewLength : Nat := 256

/-- The vocabulary of Matroska and WebM files.  A shallow scan passes over clusters. -/
def vocabulary : Vocabulary :=
  .ofTable definitions [Code.cluster]
    [(Code.simpleBlock, blockPreviewLength), (Code.block, blockPreviewLength)]

/-- The name of an element, or its ID when the specification does not list it. -/
def nameOf (id : Nat) : String :=
  match vocabulary.lookup id with
  | some definition => definition.name
  | none => "Unknown(" ++ Hex.idText id ++ ")"

end Matroska

end EbmlReport
