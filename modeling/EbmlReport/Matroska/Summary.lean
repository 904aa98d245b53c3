import EbmlReport.Matroska.Catalogue

/-!
# Summaries of records

What a report says about each record: a label, one line for each field that is
there, and then what lies below.  Text from the file is quoted.
-/

namespace EbmlReport

/-- An item with one-line fields and then other outlines below it. -/
def Outline.entry (label : String) (fields : List String) (below : Outline String) :
    Outline String :=
  .single label (.ofItems fields ++ below)

namespace Matroska

namespace Summary

/-- The line of a field, if it is there. -/
def field (name : String) (value : Option String) : List String :=
  match value with
  | some text => [name ++ ": " ++ text]
  | none => []

/-- The line of a numeric field. -/
def number (name : String) (value : Option Nat) : List String :=
  field name (value.map toString)

/-- The line of a text field. -/
def words (name : String) (value : Option String) : List String :=
  field name (value.map Quoted.text)

/-- The line of a number with its unit. -/
def measure (name : String) (value : Option Nat) (unit : String) : List String :=
  field name (value.map fun n => toString n ++ " " ++ unit)

/-- The line of a frequency. -/
def frequency (name : String) (value : Option Binary64) : List String :=
  field name (value.map (Binary64.fixed 6))

/-- One line for each number of a list. -/
def numbers (name : String) (values : List Nat) : List String :=
  values.map fun n => name ++ ": " ++ toString n

/-- A text, or a question mark for none. -/
def orMark (value : Option String) : String :=
  value.getD "?"

/-- A number, or a question mark for none. -/
def numberOrMark (value : Option Nat) : String :=
  orMark (value.map toString)

/-- A quoted text, or a question mark for none. -/
def wordsOrMark (value : Option String) : String :=
  orMark (value.map Quoted.text)

/-- The summary of the EBML header. -/
def ofHeader (h : Header) : Outline String :=
  .entry "EBML Header"
    (number "EBMLVersion" h.version ++
      number "EBMLReadVersion" h.readVersion ++
      number "EBMLMaxIDLength" h.maxIdLength ++
      number "EBMLMaxSizeLength" h.maxSizeLength ++
      words "DocType" h.docType ++
      number "DocTypeVersion" h.docTypeVersion ++
      number "DocTypeReadVersion" h.docTypeReadVersion)
    .nil

/-- The line of the timestamp scale, which is never left out. -/
def timestampScale (info : Info) : String :=
  "TimestampScale: " ++
    match info.timestampScale with
    | some scale => toString scale
    | none => toString Info.defaultTimestampScale ++ " (default)"

/-- The line of the duration, in ticks and in seconds. -/
def duration (info : Info) : List String :=
  match info.duration, info.durationInSeconds with
  | some ticks, some seconds =>
      ["Duration: " ++ ticks.fixed 6 ++ " (" ++ seconds.fixed 6 ++ " s)"]
  | _, _ => []

/-- The summary of the information about a segment. -/
def ofInfo (info : Info) : Outline String :=
  .entry "Info"
    (field "SegmentUID" (info.segmentUid.map Hex.text) ++
      words "SegmentFilename" info.segmentFilename ++
      words "Title" info.title ++
      words "MuxingApp" info.muxingApp ++
      words "WritingApp" info.writingApp ++
      [timestampScale info] ++
      duration info ++
      field "DateUTC" (info.dateUtc.map Calendar.text))
    .nil

/-- The summary of a seek entry. -/
def ofSeekEntry (entry : SeekEntry) : Outline String :=
  .entry
    ("Seek " ++ orMark (entry.id.map nameOf) ++ " at " ++ numberOrMark entry.position)
    [] .nil

/-- The summary of video settings. -/
def ofVideo (video : Video) : Outline String :=
  .entry "Video"
    (number "PixelWidth" video.pixelWidth ++
      number "PixelHeight" video.pixelHeight ++
      number "DisplayWidth" video.displayWidth ++
      number "DisplayHeight" video.displayHeight ++
      number "FlagInterlaced" video.interlaced)
    .nil

/-- The summary of audio settings. -/
def ofAudio (audio : Audio) : Outline String :=
  .entry "Audio"
    (frequency "SamplingFrequency" audio.samplingFrequency ++
      frequency "OutputSamplingFrequency" audio.outputSamplingFrequency ++
      number "Channels" audio.channels ++
      number "BitDepth" audio.bitDepth)
    .nil

/-- The line of a plane. -/
def planeLine (plane : TrackPlane) : String :=
  "TrackPlane: uid " ++ numberOrMark plane.uid ++ ", type " ++ numberOrMark plane.planeType

/-- The summary of a track operation. -/
def ofOperation (operation : TrackOperation) : Outline String :=
  .entry "TrackOperation"
    (operation.planes.map planeLine ++ numbers "TrackJoinUID" operation.joinUids) .nil

/-- The outline of a part that may be absent. -/
def optional {α : Type} (summary : α → Outline String) : Option α → Outline String
  | some part => summary part
  | none => .nil

/-- The summary of a track. -/
def ofTrack (track : Track) : Outline String :=
  .entry
    ("Track " ++ numberOrMark track.number ++ ": " ++
      orMark (track.trackType.map TrackType.name))
    (number "TrackUID" track.uid ++
      number "FlagEnabled" track.flagEnabled ++
      number "FlagDefault" track.flagDefault ++
      number "FlagForced" track.flagForced ++
      number "FlagLacing" track.flagLacing ++
      words "Name" track.name ++
      words "Language" track.language ++
      words "LanguageBCP47" track.languageBcp47 ++
      words "CodecID" track.codecId ++
      words "CodecName" track.codecName ++
      measure "CodecPrivate" track.codecPrivateLength "bytes" ++
      measure "DefaultDuration" track.defaultDuration "ns" ++
      measure "CodecDelay" track.codecDelay "ns" ++
      measure "SeekPreRoll" track.seekPreRoll "ns" ++
      numbers "TrackOverlay" track.overlays)
    (optional ofVideo track.video ++ optional ofAudio track.audio ++
      optional ofOperation track.operation)

/-- The parts of a block's line, after its place and size. -/
def blockParts (block : Block) (header : BlockHead) (clusterTimestamp : Option Nat) :
    List String :=
  ["track " ++ toString header.track] ++
    ["timecode " ++ toString header.timecode ++
      match block.absoluteTime clusterTimestamp with
      | some absolute => " (absolute " ++ toString absolute ++ ")"
      | none => ""] ++
    (if block.kind = .simple ∧ header.isKeyframe then ["keyframe"] else []) ++
    (if header.isInvisible then ["invisible"] else []) ++
    (if header.isDiscardable then ["discardable"] else []) ++
    ["lacing " ++ header.lacing.name] ++
    ["frames " ++ toString header.frameCount] ++
    (match header.lacing, header.frameSizes with
      | .none, _ => []
      | _, none => []
      | _, some sizes => ["frame sizes " ++ String.intercalate "/" (sizes.map toString)]) ++
    (match block.duration with
      | some duration => ["duration " ++ toString duration]
      | none => []) ++
    (if block.kind = .group then ["references " ++ toString block.references] else [])

/-- The line of a block. -/
def lineOfBlock (clusterTimestamp : Option Nat) (block : Block) : String :=
  let place := s!"{block.kind.name} @{block.offset} size={block.size}"
  match block.header with
  | .ok header =>
      place ++ ": " ++ String.intercalate ", " (blockParts block header clusterTimestamp)
  | .error defect => place ++ " !! " ++ defect.message

/-- The summary of a cluster. -/
def ofCluster (cluster : Cluster) : Outline String :=
  .entry s!"Cluster @{cluster.offset}"
    (number "Timestamp" cluster.timestamp ++
      number "Position" cluster.position ++
      number "PrevSize" cluster.prevSize ++
      cluster.blocks.map (lineOfBlock cluster.timestamp))
    .nil

/-- A part of a line that may be absent. -/
def part (name : String) (value : Option Nat) : List String :=
  match value with
  | some n => [name ++ " " ++ toString n]
  | none => []

/-- The line of a cue position. -/
def cueLine (position : CuePosition) : String :=
  String.intercalate ", "
    (["track " ++ numberOrMark position.track] ++
      ["cluster " ++ numberOrMark position.clusterPosition] ++
      part "relative" position.relativePosition ++
      part "block" position.blockNumber ++
      part "duration" position.duration)

/-- The summary of a cue point. -/
def ofCuePoint (point : CuePoint) : Outline String :=
  .entry ("CuePoint time=" ++ numberOrMark point.time) (point.positions.map cueLine) .nil

/-- The summary of an attachment. -/
def ofAttachment (attachment : Attachment) : Outline String :=
  .entry ("AttachedFile " ++ wordsOrMark attachment.fileName)
    (words "FileMediaType" attachment.mediaType ++
      words "FileDescription" attachment.description ++
      measure "FileData" attachment.dataLength "bytes" ++
      number "FileUID" attachment.uid)
    .nil

/-- The line of a chapter title.  The language stands as it is in the file. -/
def displayLine (display : ChapterDisplay) : String :=
  "ChapterDisplay: " ++ wordsOrMark display.string ++
    match display.language with
    | some language => " (" ++ language ++ ")"
    | none => ""

/-- The fields of a chapter. -/
def chapterFields (chapter : Chapter) : List String :=
  number "ChapterTimeStart" chapter.timeStart ++
    number "ChapterTimeEnd" chapter.timeEnd ++
    chapter.displays.map displayLine

/-- The summary of chapters. -/
def ofChapters : Outline Chapter → Outline String
  | .nil => .nil
  | .node chapter inside rest =>
      .node ("Chapter " ++ numberOrMark chapter.uid)
        (.ofItems (chapterFields chapter) ++ ofChapters inside) (ofChapters rest)

/-- The summary of an edition. -/
def ofEdition (edition : Edition) : Outline String :=
  .entry ("Edition " ++ numberOrMark edition.uid) [] (ofChapters edition.chapters)

/-- The label of a named text. -/
def simpleTagLabel (tag : SimpleTag) : String :=
  wordsOrMark tag.name ++
    match tag.string, tag.binaryLength with
    | some string, _ => " = " ++ Quoted.text string
    | none, some length => " = <" ++ toString length ++ " bytes>"
    | none, none => ""

/-- The fields of a named text. -/
def simpleTagFields (tag : SimpleTag) : List String :=
  words "TagLanguage" tag.language ++ number "TagDefault" tag.isDefault

/-- The summary of named texts. -/
def ofSimpleTags : Outline SimpleTag → Outline String
  | .nil => .nil
  | .node tag below rest =>
      .node (simpleTagLabel tag) (.ofItems (simpleTagFields tag) ++ ofSimpleTags below)
        (ofSimpleTags rest)

/-- The fields of a tag's targets. -/
def targetFields (targets : Targets) : List String :=
  number "TargetTypeValue" targets.typeValue ++
    words "TargetType" targets.targetType ++
    numbers "TagTrackUID" targets.trackUids ++
    numbers "TagEditionUID" targets.editionUids ++
    numbers "TagChapterUID" targets.chapterUids ++
    numbers "TagAttachmentUID" targets.attachmentUids

/-- The summary of a tag. -/
def ofTag (tag : Tag) : Outline String :=
  .entry "Tag" ((tag.targets.map targetFields).getD []) (ofSimpleTags tag.simpleTags)

/-- A heading over summaries, left out when there are none. -/
def group {α : Type} (heading : String) (summary : α → Outline String) (items : List α) :
    Outline String :=
  if items.isEmpty then .nil else .entry heading [] (.join (items.map summary))

/-- A heading with the count of what stands below it. -/
def counted {α : Type} (heading : String) (items : List α) : String :=
  s!"{heading} ({items.length})"

/-- The clusters of a segment, with the count of those not read. -/
def clusters (segment : Segment) : Outline String :=
  if segment.clusters.isEmpty ∧ segment.skippedClusters = 0 ∧ segment.corruptClusters = 0 then
    .nil
  else
    .entry (counted "Clusters" segment.clusters)
      ((if segment.skippedClusters = 0 then []
        else [s!"{segment.skippedClusters} more skipped by shallow scan"]) ++
        (if segment.corruptClusters = 0 then [] else [s!"{segment.corruptClusters} corrupt"]))
      (.join (segment.clusters.map ofCluster))

/-- The summary of a segment. -/
def ofSegment (segment : Segment) : Outline String :=
  .entry s!"Segment @{segment.offset}" []
    (optional ofInfo segment.info ++
      group "SeekHead" ofSeekEntry segment.seekEntries ++
      group (counted "Tracks" segment.tracks) ofTrack segment.tracks ++
      clusters segment ++
      group (counted "Cues" segment.cuePoints) ofCuePoint segment.cuePoints ++
      group (counted "Attachments" segment.attachments) ofAttachment segment.attachments ++
      group "Chapters" ofEdition segment.editions ++
      group (counted "Tags" segment.tags) ofTag segment.tags)

/-- The summary of a catalogue. -/
def ofCatalogue (d : Catalogue) : Outline String :=
  optional ofHeader d.header ++ .join (d.segments.map ofSegment)

end Summary

end Matroska

end EbmlReport
