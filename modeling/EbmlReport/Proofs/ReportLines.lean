import EbmlReport.Proofs.ElementTree
import EbmlReport.Proofs.SingleLines

/-!
# The lines of a report

A report is printed line by line, so what it says can be read off its text only if no line
has a line feed inside.  Names and wordings have none, and text from a file is quoted.  The
one exception is the language of a chapter title, which stands in its line as it is in the
file; a report is in single lines just when all of these languages are.

**Results.**
* `Summary.oneLine_ofChapters_iff`: what a summary of chapters takes over from the languages.
* `Report.splitOn_text_iff`: the text of a report splits into its lines just when none of
  these has a line feed.
* `Report.lines_are_single_iff`: the law of the lines of a report.
* `Report.brokenLanguage_breaks_line`: a file on which a line breaks.
-/

namespace EbmlReport

namespace Matroska

/-- The languages of the titles of a chapter. -/
def Chapter.languages (chapter : Chapter) : List String :=
  chapter.displays.filterMap ChapterDisplay.language

/-- The languages of all chapter titles of an edition. -/
def Edition.languages (edition : Edition) : List String :=
  (edition.chapters.preorder 0).flatMap fun node => node.2.languages

/-- The languages of all chapter titles of a catalogue. -/
def Catalogue.chapterLanguages (d : Catalogue) : List String :=
  d.segments.flatMap fun segment => segment.editions.flatMap Edition.languages

theorem oneLine_nameOf (id : Nat) : OneLine (nameOf id) := by
  have hnames : ∀ definition ∈ definitions, OneLine definition.name := by decide +kernel
  unfold nameOf
  split
  · rename_i definition hlisted
    have hfound : definitions.find? (fun definition => definition.id == id) = some definition :=
      hlisted
    exact hnames definition (List.mem_of_find?_eq_some hfound)
  · simp +decide

theorem oneLine_trackTypeName (trackType : TrackType) : OneLine trackType.name := by
  have hother : ∀ code, (TrackType.other code).name = "unknown (" ++ toString code ++ ")" :=
    fun _ => rfl
  cases trackType with
  | other code => simp +decide [hother]
  | _ => decide

namespace Summary

section Fields

variable {name unit : String}

@[simp] theorem oneLineEach_field {value : Option String}
    (hname : OneLine name)
    (hvalue : ∀ text, value = some text → OneLine text) :
    OneLineEach (field name value) := by
  cases value with
  | none => simp [field]
  | some text => simp +decide [field, hname, hvalue text rfl]

@[simp] theorem oneLineEach_number (hname : OneLine name) (value : Option Nat) :
    OneLineEach (number name value) :=
  oneLineEach_field hname (by simp)

@[simp] theorem oneLineEach_words (hname : OneLine name) (value : Option String) :
    OneLineEach (words name value) :=
  oneLineEach_field hname (by simp)

@[simp] theorem oneLineEach_measure
    (hname : OneLine name)
    (hunit : OneLine unit)
    (value : Option Nat) :
    OneLineEach (measure name value unit) :=
  oneLineEach_field hname (by simp +decide [hunit])

@[simp] theorem oneLineEach_frequency (hname : OneLine name) (value : Option Binary64) :
    OneLineEach (frequency name value) :=
  oneLineEach_field hname (by simp)

@[simp] theorem oneLineEach_numbers (hname : OneLine name) (values : List Nat) :
    OneLineEach (numbers name values) := by
  simp +decide [numbers, hname]

@[simp] theorem oneLineEach_part (hname : OneLine name) (value : Option Nat) :
    OneLineEach (part name value) := by
  cases value <;> simp +decide [part, hname]

theorem oneLine_orMark {value : Option String}
    (hvalue : ∀ text, value = some text → OneLine text) :
    OneLine (orMark value) := by
  cases value with
  | none => decide
  | some text => exact hvalue text rfl

@[simp] theorem oneLine_numberOrMark (value : Option Nat) : OneLine (numberOrMark value) :=
  oneLine_orMark (by simp)

@[simp] theorem oneLine_wordsOrMark (value : Option String) : OneLine (wordsOrMark value) :=
  oneLine_orMark (by simp)

end Fields

section Records

theorem oneLine_ofHeader (header : Header) : (ofHeader header).All OneLine := by
  simp +decide [ofHeader]

theorem oneLine_ofInfo (info : Info) : (ofInfo info).All OneLine := by
  have hscale : OneLine (timestampScale info) := by
    unfold timestampScale
    split <;> simp +decide
  have hduration : OneLineEach (duration info) := by
    unfold duration
    split <;> simp +decide
  simp +decide [ofInfo, hscale, hduration]

theorem oneLine_ofSeekEntry (entry : SeekEntry) : (ofSeekEntry entry).All OneLine := by
  have hid : OneLine (orMark (entry.id.map nameOf)) := oneLine_orMark (by simp [oneLine_nameOf])
  simp +decide [ofSeekEntry, hid]

theorem oneLine_optional {α : Type} {summary : α → Outline String}
    (h : ∀ part, (summary part).All OneLine)
    (part : Option α) :
    (optional summary part).All OneLine := by
  cases part with
  | none => trivial
  | some part => exact h part

theorem oneLine_ofTrack (track : Track) : (ofTrack track).All OneLine := by
  have hvideo : ∀ video, (ofVideo video).All OneLine := by simp +decide [ofVideo]
  have haudio : ∀ audio, (ofAudio audio).All OneLine := by simp +decide [ofAudio]
  have hplane : ∀ plane, OneLine (planeLine plane) := by
    intro plane
    unfold planeLine
    simp +decide
  have hoperation : ∀ operation, (ofOperation operation).All OneLine := by
    simp +decide [ofOperation, hplane]
  have htype : OneLine (orMark (track.trackType.map TrackType.name)) :=
    oneLine_orMark (by simp [oneLine_trackTypeName])
  simp +decide [ofTrack, htype, oneLine_optional hvideo, oneLine_optional haudio,
    oneLine_optional hoperation]

theorem oneLineEach_blockParts (block : Block) (header : BlockHead) (timestamp : Option Nat) :
    OneLineEach (blockParts block header timestamp) := by
  have hlacing : ∀ lacing : Lacing, OneLine lacing.name := by
    intro lacing
    cases lacing <;> decide
  have hsizes : ∀ sizes : List Nat, OneLine (String.intercalate "/" (sizes.map toString)) :=
    fun sizes => oneLine_intercalate (by decide) (by simp)
  unfold blockParts
  simp only [oneLineEach_append]
  refine ⟨⟨⟨⟨⟨⟨⟨⟨⟨?_, ?_⟩, ?_⟩, ?_⟩, ?_⟩, ?_⟩, ?_⟩, ?_⟩, ?_⟩, ?_⟩
  · simp +decide
  · split <;> simp +decide
  · split <;> simp +decide
  · split <;> simp +decide
  · split <;> simp +decide
  · simp +decide [hlacing]
  · simp +decide
  · split <;> simp +decide [hsizes]
  · split <;> simp +decide
  · split <;> simp +decide

theorem oneLine_lineOfBlock (timestamp : Option Nat) (block : Block) :
    OneLine (lineOfBlock timestamp block) := by
  have hkind : ∀ kind : BlockKind, OneLine kind.name := by
    intro kind
    cases kind <;> decide
  have hdefect : ∀ defect : BlockDefect, OneLine defect.message := by
    intro defect
    cases defect <;> decide
  unfold lineOfBlock
  simp only
  split
  · rename_i header _
    have hparts : OneLine (String.intercalate ", " (blockParts block header timestamp)) :=
      oneLine_intercalate (by decide) (oneLineEach_blockParts block header timestamp)
    simp +decide [hkind, hparts]
  · simp +decide [hkind, hdefect]

theorem oneLine_ofCluster (cluster : Cluster) : (ofCluster cluster).All OneLine := by
  simp +decide [ofCluster, oneLine_lineOfBlock]

theorem oneLine_ofCuePoint (point : CuePoint) : (ofCuePoint point).All OneLine := by
  have hcue : ∀ position, OneLine (cueLine position) :=
    fun position => oneLine_intercalate (by decide) (by simp +decide)
  simp +decide [ofCuePoint, hcue]

theorem oneLine_ofAttachment (attachment : Attachment) :
    (ofAttachment attachment).All OneLine := by
  simp +decide [ofAttachment]

theorem oneLine_ofSimpleTags (tags : Outline SimpleTag) : (ofSimpleTags tags).All OneLine := by
  induction tags with
  | nil => trivial
  | node tag below rest ihBelow ihRest =>
      have hlabel : OneLine (simpleTagLabel tag) := by
        unfold simpleTagLabel
        split <;> simp +decide
      simp +decide [ofSimpleTags, simpleTagFields, hlabel, ihBelow, ihRest]

theorem oneLine_ofTag (tag : Tag) : (ofTag tag).All OneLine := by
  have htargets : OneLineEach ((tag.targets.map targetFields).getD []) := by
    cases tag.targets <;> simp +decide [targetFields]
  simp +decide [ofTag, htargets, oneLine_ofSimpleTags]

end Records

section Chapters

/-- The line of a title is a single line just when its language, if given, is one. -/
theorem oneLine_displayLine_iff {display : ChapterDisplay} :
    OneLine (displayLine display) ↔
      ∀ language, display.language = some language → OneLine language := by
  unfold displayLine
  cases display.language with
  | none => simp +decide
  | some language => simp +decide

/-- The titles of a chapter are single lines just when their languages are. -/
theorem oneLineEach_chapterFields_iff {chapter : Chapter} :
    OneLineEach (chapterFields chapter) ↔ OneLineEach chapter.languages := by
  have hlanguages : OneLineEach chapter.languages ↔
      ∀ display ∈ chapter.displays, ∀ language,
        display.language = some language → OneLine language := by
    simp only [OneLineEach, Chapter.languages, List.mem_filterMap]
    constructor
    · intro h display hdisplay language hlanguage
      exact h language ⟨display, hdisplay, hlanguage⟩
    · rintro h language ⟨display, hdisplay, hlanguage⟩
      exact h display hdisplay language hlanguage
  rw [hlanguages]
  simp +decide [chapterFields, oneLine_displayLine_iff]

/-- A summary of chapters is in single lines just when the languages in it are. -/
theorem oneLine_ofChapters_iff {chapters : Outline Chapter} (depth : Nat) :
    (ofChapters chapters).All OneLine ↔
      OneLineEach ((chapters.preorder depth).flatMap fun node => node.2.languages) := by
  induction chapters generalizing depth with
  | nil => simp [ofChapters, Outline.preorder]
  | node chapter inside rest ihInside ihRest =>
      rw [Outline.preorder, List.flatMap_cons, List.flatMap_append, oneLineEach_append,
        oneLineEach_append, ← ihInside, ← ihRest, ← oneLineEach_chapterFields_iff]
      simp +decide [ofChapters, and_assoc]

theorem oneLine_ofEdition_iff {edition : Edition} :
    (ofEdition edition).All OneLine ↔ OneLineEach edition.languages := by
  simp +decide [ofEdition, oneLine_ofChapters_iff 0, Edition.languages]

end Chapters

section Segments

variable {α : Type} {heading : String} {summary : α → Outline String} {items : List α}

theorem oneLine_counted (hheading : OneLine heading) (items : List α) :
    OneLine (counted heading items) := by
  have hcounted : counted heading items =
      heading ++ " (" ++ toString items.length ++ ")" := rfl
  simp +decide [hcounted, hheading]

theorem oneLine_group_iff (hheading : OneLine heading) :
    (group heading summary items).All OneLine ↔
      ∀ item ∈ items, (summary item).All OneLine := by
  unfold group
  split
  · rename_i hnone
    simp [List.isEmpty_iff.mp hnone]
  · simp [hheading]

theorem oneLine_counted_group
    (hheading : OneLine heading)
    (hsummary : ∀ item, (summary item).All OneLine)
    (items : List α) :
    (group (counted heading items) summary items).All OneLine :=
  (oneLine_group_iff (oneLine_counted hheading items)).mpr fun item _ => hsummary item

theorem oneLine_clusters (segment : Segment) : (clusters segment).All OneLine := by
  have hskipped : ∀ n : Nat,
      OneLineEach (if n = 0 then [] else [s!"{n} more skipped by shallow scan"]) := by
    intro n
    split <;> simp +decide
  have hcorrupt : ∀ n : Nat, OneLineEach (if n = 0 then [] else [s!"{n} corrupt"]) := by
    intro n
    split <;> simp +decide
  have hheading : OneLine (counted "Clusters" segment.clusters) :=
    oneLine_counted (by decide) segment.clusters
  unfold clusters
  split
  · trivial
  · rw [Outline.oneLine_entry, oneLineEach_append, Outline.all_join, List.forall_mem_map]
    exact ⟨hheading, ⟨hskipped _, hcorrupt _⟩, fun cluster _ => oneLine_ofCluster cluster⟩

/-- Of all that the summary of a segment shows only languages of chapter titles can have a
line feed. -/
theorem oneLine_ofSegment_iff {segment : Segment} :
    (ofSegment segment).All OneLine ↔
      ∀ edition ∈ segment.editions, OneLineEach edition.languages := by
  have hlabel : OneLine s!"Segment @{segment.offset}" := by simp +decide
  have hinfo : (optional ofInfo segment.info).All OneLine := oneLine_optional oneLine_ofInfo _
  have hseek : (group "SeekHead" ofSeekEntry segment.seekEntries).All OneLine :=
    (oneLine_group_iff (by decide)).mpr fun entry _ => oneLine_ofSeekEntry entry
  have htracks : (group (counted "Tracks" segment.tracks) ofTrack segment.tracks).All OneLine :=
    oneLine_counted_group (by decide) oneLine_ofTrack _
  have hcues :
      (group (counted "Cues" segment.cuePoints) ofCuePoint segment.cuePoints).All OneLine :=
    oneLine_counted_group (by decide) oneLine_ofCuePoint _
  have hattachments : (group (counted "Attachments" segment.attachments) ofAttachment
      segment.attachments).All OneLine :=
    oneLine_counted_group (by decide) oneLine_ofAttachment _
  have htags : (group (counted "Tags" segment.tags) ofTag segment.tags).All OneLine :=
    oneLine_counted_group (by decide) oneLine_ofTag _
  have hchapters : (group "Chapters" ofEdition segment.editions).All OneLine ↔
      ∀ edition ∈ segment.editions, OneLineEach edition.languages := by
    simp only [oneLine_group_iff (show OneLine "Chapters" by decide), oneLine_ofEdition_iff]
  rw [ofSegment]
  simp only [Outline.oneLine_entry, Outline.all_append, hlabel, hinfo, hseek, htracks,
    oneLine_clusters, hcues, hattachments, hchapters, htags, oneLineEach_nil, true_and, and_true]

end Segments

end Summary

theorem Summary.oneLine_ofCatalogue_iff {d : Catalogue} :
    (Summary.ofCatalogue d).All OneLine ↔ OneLineEach d.chapterLanguages := by
  have hheader : (optional ofHeader d.header).All OneLine := oneLine_optional oneLine_ofHeader _
  rw [ofCatalogue, Outline.all_append, Outline.all_join, List.forall_mem_map]
  simp only [hheader, true_and, oneLine_ofSegment_iff, Catalogue.chapterLanguages,
    oneLineEach_flatMap]

namespace Report

section Elements

theorem oneLine_defectMessage (defect : Defect) : OneLine defect.message := by
  unfold Defect.message
  split <;> simp +decide

theorem oneLine_frameText (frame : Frame) : OneLine (frameText frame) := by
  have hname : OneLine (if isPlaceholder frame then "!! corrupt" else nameOf frame.id) := by
    split
    · decide
    · exact oneLine_nameOf frame.id
  rw [frameText_eq, oneLine_append]
  refine ⟨hname, ?_⟩
  unfold placeText
  split <;> simp +decide

theorem oneLine_binaryText (length : Nat) (preview : Bytes) :
    OneLine (Value.binaryText length preview) := by
  have hmore : ∀ shown : Nat, OneLine (if shown < length then "..." else "") := by
    intro shown
    split <;> decide
  unfold Value.binaryText
  simp only
  split
  · simp +decide
  · simp +decide only [oneLine_append, Nat.toString_eq_repr, oneLine_repr, oneLine_hexText, hmore,
      and_self]

theorem oneLine_display (value : Value) : OneLine value.display := by
  cases value with
  | unsigned n => simp [Value.display]
  | signed n => simp [Value.display]
  | float x => exact oneLine_fixed 6 x
  | text s => exact oneLine_quotedText s
  | date nanos => exact oneLine_dateText nanos
  | binary length preview => exact oneLine_binaryText length preview

theorem oneLine_contentText (frame : Frame) (content : Content) :
    OneLine (contentText frame content) := by
  unfold contentText
  split
  · simp +decide [oneLine_display]
  · decide
  · split <;> simp +decide [oneLine_defectMessage]

theorem oneLine_errorText (frame : Frame) : OneLine (errorText frame) := by
  unfold errorText
  split
  · simp +decide [oneLine_defectMessage]
  · decide

theorem oneLine_elementOutline (forest : Forest) : (elementOutline forest).All OneLine := by
  induction forest with
  | nil => trivial
  | leaf frame content rest ih =>
      simp [elementOutline, oneLine_frameText, oneLine_contentText, oneLine_errorText, ih]
  | master frame children rest ihChildren ihRest =>
      simp [elementOutline, oneLine_frameText, oneLine_errorText, ihChildren, ihRest]

theorem oneLine_warningMessage (warning : Warning) : OneLine warning.message := by
  unfold Warning.message
  split <;> simp +decide

theorem oneLineEach_warningLines (warnings : List Warning) :
    OneLineEach (warningLines warnings) := by
  unfold warningLines
  split
  · exact oneLineEach_nil
  · rw [oneLineEach_cons, Outline.oneLine_draw_iff, Outline.oneLine_ofItems, oneLineEach_map]
    exact ⟨by decide, fun warning _ => oneLine_warningMessage warning⟩

theorem oneLine_settingsLine (s : Settings) : OneLine (settingsLine s) := by
  have hshallow : OneLine (toString s.shallow) := by
    cases s.shallow <;> decide
  have hrecovery : OneLine s.recovery.name := by
    cases s.recovery <;> decide
  simp +decide [settingsLine_eq, hshallow, hrecovery]

end Elements

/-- The lines of a report are single lines just when the languages of its chapter titles
are. -/
theorem oneLineEach_lines_iff (d : Catalogue) (s : Settings) :
    OneLineEach (ofCatalogue d s).lines ↔ OneLineEach d.chapterLanguages := by
  simp +decide only [ofCatalogue, oneLineEach_append, oneLineEach_cons,
    oneLine_settingsLine, Outline.oneLine_draw_iff, oneLine_elementOutline,
    oneLineEach_warningLines, Summary.oneLine_ofCatalogue_iff, and_true, true_and]

section Splitting

/-- No piece of a split has the separator in it. -/
theorem not_mem_of_mem_splitOn
    {separator : Char}
    {text piece : List Char}
    (h : piece ∈ text.splitOn separator) :
    separator ∉ piece := by
  induction text generalizing piece with
  | nil =>
      rw [List.splitOn_eq_singleton List.not_mem_nil, List.mem_singleton] at h
      rw [h]
      exact List.not_mem_nil
  | cons c text ih =>
      rw [List.splitOn_cons_eq_if_modifyHead] at h
      obtain ⟨first, later, hsplit⟩ :=
        List.exists_cons_of_ne_nil (List.splitOn_ne_nil separator text)
      rw [hsplit] at h ih
      split at h
      · rcases List.mem_cons.mp h with rfl | hlater
        · exact List.not_mem_nil
        · exact ih hlater
      · rename_i hother
        rcases List.mem_cons.mp h with rfl | hlater
        · have hfirst : separator ∉ first := ih List.mem_cons_self
          rw [List.mem_cons, not_or]
          exact ⟨fun hsame => hother (beq_iff_eq.mpr hsame.symm), hfirst⟩
        · exact ih (List.mem_cons_of_mem first hlater)

theorem text_cons (line : String) (lines : List String) :
    (Report.mk (line :: lines)).text.toList =
      line.toList ++ '\n' :: (Report.mk lines).text.toList := by
  simp [text, String.toList_append]

/-- Split behind each line feed, the text of a report falls into its lines just when none of
these has a line feed. -/
theorem splitOn_text_iff (r : Report) :
    r.text.toList.splitOn '\n' = r.lines.map String.toList ++ [[]] ↔ OneLineEach r.lines := by
  constructor
  · intro hsplit line hline
    have hpiece : line.toList ∈ r.text.toList.splitOn '\n' := by
      rw [hsplit]
      exact List.mem_append_left _ (List.mem_map_of_mem hline)
    exact not_mem_of_mem_splitOn hpiece
  · obtain ⟨lines⟩ := r
    intro hlines
    induction lines with
    | nil => rfl
    | cons line lines ih =>
        obtain ⟨hline, hlater⟩ := oneLineEach_cons.mp hlines
        rw [text_cons, List.splitOn_append_cons_self_of_not_mem hline, ih hlater]
        rfl

end Splitting

/-- **Lines of a report.**  No line of a report has a line feed in it, and its text falls
into its lines, just when the languages of the chapter titles have none: no other text of a
file can add a line. -/
theorem lines_are_single_iff (d : Catalogue) (s : Settings) :
    ((∀ line ∈ (ofCatalogue d s).lines, '\n' ∉ line.toList) ↔
        ∀ language ∈ d.chapterLanguages, '\n' ∉ language.toList) ∧
      ((ofCatalogue d s).text.toList.splitOn '\n' =
          (ofCatalogue d s).lines.map String.toList ++ [[]] ↔
        ∀ language ∈ d.chapterLanguages, '\n' ∉ language.toList) :=
  ⟨oneLineEach_lines_iff d s,
    (splitOn_text_iff (ofCatalogue d s)).trans (oneLineEach_lines_iff d s)⟩

/-- A file with a chapter title in the language `e`, line feed, `f`. -/
def brokenLanguage : Contents :=
  .ofBytes
    [0x1A, 0x45, 0xDF, 0xA3, 0x8B,
        0x42, 0x82, 0x88, 0x6D, 0x61, 0x74, 0x72, 0x6F, 0x73, 0x6B, 0x61,
      0x18, 0x53, 0x80, 0x67, 0x95,
        0x10, 0x43, 0xA7, 0x70, 0x90,
          0x45, 0xB9, 0x8D,
            0xB6, 0x8B,
              0x80, 0x89,
                0x85, 0x81, 0x54,
                0x43, 0x7C, 0x83, 0x65, 0x0A, 0x66]

/-- The report on that file has a line that is printed as two. -/
theorem brokenLanguage_breaks_line :
    ∃ r, ofContents brokenLanguage {} = .ok r ∧
      (∃ line ∈ r.lines, '\n' ∈ line.toList) ∧
      r.text.toList.splitOn '\n' ≠ r.lines.map String.toList ++ [[]] := by
  have hlanguages :
      (brokenLanguage.scan vocabulary {}).map
        (fun forest => (Catalogue.ofForest forest).chapterLanguages) = .ok ["e\nf"] := by
    decide +kernel
  cases hscan : brokenLanguage.scan vocabulary {} with
  | error failure => simp [hscan, Except.map] at hlanguages
  | ok forest =>
      rw [hscan] at hlanguages
      have hread : (Catalogue.ofForest forest).chapterLanguages = ["e\nf"] :=
        Except.ok.inj hlanguages
      have hbroken : ¬ OneLineEach (ofCatalogue (Catalogue.ofForest forest) {}).lines := by
        rw [oneLineEach_lines_iff, hread]
        decide
      refine ⟨ofCatalogue (Catalogue.ofForest forest) {}, ?_, ?_, ?_⟩
      · rw [ofContents, Catalogue.read, hscan]
        rfl
      · simpa [OneLineEach, OneLine] using hbroken
      · rwa [ne_eq, splitOn_text_iff]

end Report

end Matroska

end EbmlReport
