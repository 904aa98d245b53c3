import EbmlReport.Matroska.Summary

/-!
# Reports

A report has one entry for each of its lines: the settings of the scan, the summary of
the records, the element tree, and the warnings if there are any.

In the element tree the line of an element gives its name, its place and size, and its
value.  Bytes without a heading have the line of a stand-in.  Whatever a scan
recovered from is marked by `!!` in the line of the element.

**Results.**
* `Report.size_elementOutline`: the element tree has one entry for each element.
-/

namespace EbmlReport

namespace Matroska

/-- A report, line by line. -/
structure Report where
  lines : List String
deriving DecidableEq, Repr

namespace Report

/-- The bytes of the element are not known to be an element. -/
def isPlaceholder (frame : Frame) : Bool :=
  frame.heading.length == 0

/-- Name, place and size of an element. -/
def frameText (frame : Frame) : String :=
  (if isPlaceholder frame then "!! corrupt" else nameOf frame.id) ++
    s!" @{frame.heading.start} " ++
    match frame.declared with
    | .known length => s!"size={length}"
    | .unknown => s!"size=unknown (resolved {frame.data.length})"

/-- The wording of what a leaf holds. -/
def contentText (frame : Frame) : Content → String
  | .value v => ": " ++ v.display
  | .skipped => " [skipped]"
  | .corrupt reason =>
      if isPlaceholder frame then ": " ++ reason.message else " !! corrupt: " ++ reason.message

/-- The wording of a recovered defect. -/
def errorText (frame : Frame) : String :=
  match frame.error with
  | some defect => " !! " ++ defect.message
  | none => ""

/-- The outline of elements. -/
def elementOutline : Forest → Outline String
  | .nil => .nil
  | .leaf frame content rest =>
      .node (frameText frame ++ contentText frame content ++ errorText frame) .nil
        (elementOutline rest)
  | .master frame children rest =>
      .node (frameText frame ++ errorText frame) (elementOutline children) (elementOutline rest)

/-- The line that names the settings of a scan. -/
def settingsLine (s : Settings) : String :=
  s!"Options: shallow={s.shallow} max_depth={s.maxDepth} recovery={s.recovery.name}"

/-- The lines about warnings. -/
def warningLines (warnings : List Warning) : List String :=
  if warnings.isEmpty then []
  else "Warnings" :: (Outline.ofItems (warnings.map Warning.message)).draw

/-- The report on a catalogue. -/
def ofCatalogue (d : Catalogue) (s : Settings) : Report where
  lines :=
    ["Matroska report", settingsLine s, "Summary"] ++
      (Summary.ofCatalogue d).draw ++
      ["Element tree"] ++
      (elementOutline d.elements).draw ++
      warningLines d.warnings

/-- The text of a report, each line with its end. -/
def text (r : Report) : String :=
  String.join (r.lines.map fun line => line ++ "\n")

/-- The report on a stream. -/
def ofBuffered (b : Buffered) (s : Settings) : Except Failure Report :=
  (Catalogue.readBuffered b s).map fun d => ofCatalogue d s

/-- The report on contents. -/
def ofContents (c : Contents) (s : Settings) : Except Failure Report :=
  (Catalogue.read c s).map fun d => ofCatalogue d s

theorem size_elementOutline (forest : Forest) (depth : Nat) :
    (elementOutline forest).size = (forest.preorder depth).length := by
  induction forest generalizing depth with
  | nil => rfl
  | leaf frame content rest ih =>
      simp only [elementOutline, Outline.size, Forest.preorder, List.length_cons, ih depth]
      omega
  | master frame children rest ihc ihr =>
      simp only [elementOutline, Outline.size, Forest.preorder, List.length_cons,
        List.length_append, ihc (depth + 1), ihr depth]
      omega

end Report

end Matroska

end EbmlReport
