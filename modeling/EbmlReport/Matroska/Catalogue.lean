import EbmlReport.Matroska.Header
import EbmlReport.Matroska.Segment
import EbmlReport.Matroska.Specification
import EbmlReport.Scan

/-!
# Catalogues

A catalogue is the element forest of a file together with the records found in it and
with warnings about its structure.  Any forest makes up a catalogue, be it read from a
file or put together otherwise.

**Results.**
* `Catalogue.mem_headerWarnings_iff`, `Catalogue.mem_docTypeWarnings_iff`,
  `Catalogue.mem_segmentWarnings_iff`, `Catalogue.mem_recoveryWarnings_iff`: what the lists of
  warnings contain.
-/

namespace EbmlReport

namespace Matroska

/-- A structural problem that does not stop a scan. -/
inductive Warning
  | headerNotFirst (offset : Nat)
  | headerMissing
  | unexpectedDocType (docType : String)
  | docTypeMissing
  | segmentMissing
  /-- A block group without a block. -/
  | emptyGroup (offset : Nat)
  /-- That many elements are malformed. -/
  | recovered (count : Nat)
deriving DecidableEq, Repr

namespace Warning

/-- The wording of a warning. -/
def message : Warning → String
  | headerNotFirst offset => s!"EBML header is not the first element (found at byte {offset})"
  | headerMissing => "EBML header missing"
  | unexpectedDocType docType => "unexpected DocType " ++ Quoted.text docType
  | docTypeMissing => "EBML header has no DocType"
  | segmentMissing => "no Segment element found"
  | emptyGroup offset => s!"BlockGroup at byte {offset} has no Block"
  | recovered count => s!"{count} malformed element(s) recovered, see element tree"

end Warning

/-- The records of a file with its elements. -/
structure Catalogue where
  elements : Forest
  header : Option Header
  segments : List Segment
  warnings : List Warning

namespace Catalogue

variable {elements : Forest} {header : Option Header} {segments : List Segment}
  {warning : Warning}

/-- The document types that the specification describes. -/
def knownDocTypes : List String := ["matroska", "webm"]

/-- Warnings about the place of the EBML header. -/
def headerWarnings (elements : Forest) : List Warning :=
  match elements.toList with
  | [] => [.headerMissing]
  | first :: rest =>
      if first.id = Code.ebml then []
      else
        match rest.find? fun e => e.id == Code.ebml with
        | some e => [.headerNotFirst e.frame.heading.start]
        | none => [.headerMissing]

/-- There is no header, or the first one is not the first element. -/
theorem mem_headerWarnings_iff :
    warning ∈ headerWarnings elements ↔
      (elements.first? Code.ebml = none ∧ warning = .headerMissing) ∨
        ∃ e, elements.first? Code.ebml = some e ∧ elements.toList.head? ≠ some e ∧
          warning = .headerNotFirst e.frame.heading.start := by
  unfold headerWarnings Forest.first?
  cases elements.toList with
  | nil => simp
  | cons first rest =>
      by_cases hid : first.id = Code.ebml
      · simp [hid]
      · cases hfind : rest.find? fun e => e.id == Code.ebml with
        | none => simp [hid, hfind]
        | some e =>
            have hne : first ≠ e := by
              rintro rfl
              simpa [hid] using List.find?_some hfind
            simp [hid, hfind, hne]

/-- Warnings about the document type. -/
def docTypeWarnings : Option Header → List Warning
  | none => []
  | some header =>
      match header.docType with
      | none => [.docTypeMissing]
      | some docType =>
          if knownDocTypes.contains docType then [] else [.unexpectedDocType docType]

/-- The header has no document type, or one that the specification does not describe. -/
theorem mem_docTypeWarnings_iff :
    warning ∈ docTypeWarnings header ↔
      ∃ found, header = some found ∧
        ((found.docType = none ∧ warning = .docTypeMissing) ∨
          ∃ docType, found.docType = some docType ∧ docType ∉ knownDocTypes ∧
            warning = .unexpectedDocType docType) := by
  cases header with
  | none => simp [docTypeWarnings]
  | some found =>
      cases hdocType : found.docType with
      | none => simp [docTypeWarnings, hdocType]
      | some docType =>
          by_cases hknown : docType ∈ knownDocTypes
          · simp [docTypeWarnings, hdocType, hknown]
          · simp [docTypeWarnings, hdocType, hknown]

/-- Warnings about segments. -/
def segmentWarnings (segments : List Segment) : List Warning :=
  if segments.isEmpty then [.segmentMissing]
  else
    segments.flatMap fun segment =>
      segment.clusters.flatMap fun cluster => cluster.emptyGroups.map .emptyGroup

/-- There is no segment, or a cluster of one notes a group. -/
theorem mem_segmentWarnings_iff :
    warning ∈ segmentWarnings segments ↔
      (segments = [] ∧ warning = .segmentMissing) ∨
        ∃ segment ∈ segments, ∃ cluster ∈ segment.clusters, ∃ offset ∈ cluster.emptyGroups,
          warning = .emptyGroup offset := by
  cases segments with
  | nil => simp [segmentWarnings]
  | cons segment rest => simp [segmentWarnings, List.mem_flatMap, eq_comm]

/-- A warning about malformed elements, if there are any. -/
def recoveryWarnings (elements : Forest) : List Warning :=
  if elements.malformedCount = 0 then [] else [.recovered elements.malformedCount]

/-- There are malformed elements, and the warning says how many. -/
theorem mem_recoveryWarnings_iff :
    warning ∈ recoveryWarnings elements ↔
      0 < elements.malformedCount ∧ warning = .recovered elements.malformedCount := by
  unfold recoveryWarnings
  split
  · simp [*]
  · simp [Nat.pos_iff_ne_zero, *]

/-- The catalogue that a forest makes up. -/
def ofForest (elements : Forest) : Catalogue :=
  let header := (elements.first? Code.ebml).map fun e => Header.ofChildren e.children
  let segments := (elements.withId Code.segment).map Segment.ofElement
  { elements
    header
    segments
    warnings := headerWarnings elements ++ docTypeWarnings header ++ segmentWarnings segments ++
      recoveryWarnings elements }

/-- The catalogue of the given contents. -/
def read (c : Contents) (s : Settings) : Except Failure Catalogue :=
  (c.scan vocabulary s).map ofForest

/-- The catalogue of a buffered stream. -/
def readBuffered (b : Buffered) (s : Settings) : Except Failure Catalogue :=
  (b.scan vocabulary s).1.map ofForest

end Catalogue

end Matroska

end EbmlReport
