import EbmlReport.Forest
import EbmlReport.Matroska.Code
import EbmlReport.Outline

/-!
# Chapters

An edition is one arrangement of a segment into chapters, which may have chapters
inside them.  When a field is given more than once the first one counts.
-/

namespace EbmlReport

namespace Matroska

/-- A title of a chapter. -/
structure ChapterDisplay where
  string : Option String
  language : Option String
deriving DecidableEq, Repr

/-- The title that the children of a ChapterDisplay element make up. -/
def ChapterDisplay.ofChildren (children : Forest) : ChapterDisplay where
  string := children.firstAs Element.text? Code.chapString
  language := children.firstAs Element.text? Code.chapLanguage

/-- One chapter, without the chapters inside it. -/
structure Chapter where
  uid : Option Nat
  /-- In nanoseconds. -/
  timeStart : Option Nat
  timeEnd : Option Nat
  displays : List ChapterDisplay
deriving DecidableEq, Repr

namespace Chapter

/-- The chapter that the children of a ChapterAtom element make up. -/
def ofChildren (children : Forest) : Chapter where
  uid := children.firstAs Element.unsigned? Code.chapterUid
  timeStart := children.firstAs Element.unsigned? Code.chapterTimeStart
  timeEnd := children.firstAs Element.unsigned? Code.chapterTimeEnd
  displays := (children.withId Code.chapterDisplay).map fun e => .ofChildren e.children

/-- The chapters among the given elements, each with the chapters inside it. -/
def outline : Forest → Outline Chapter
  | .nil => .nil
  | .leaf frame _ rest =>
      if frame.id = Code.chapterAtom then .node (ofChildren .nil) .nil (outline rest)
      else outline rest
  | .master frame children rest =>
      if frame.id = Code.chapterAtom then
        .node (ofChildren children) (outline children) (outline rest)
      else outline rest

end Chapter

/-- One arrangement into chapters. -/
structure Edition where
  uid : Option Nat
  chapters : Outline Chapter
deriving DecidableEq, Repr

/-- The edition that the children of an EditionEntry element make up. -/
def Edition.ofChildren (children : Forest) : Edition where
  uid := children.firstAs Element.unsigned? Code.editionUid
  chapters := Chapter.outline children

end Matroska

end EbmlReport
