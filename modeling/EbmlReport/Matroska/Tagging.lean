import EbmlReport.Forest
import EbmlReport.Matroska.Code
import EbmlReport.Outline

/-!
# Tags

A tag attaches named texts to a segment or to parts of it; such a text may have
further ones below it.  When a field is given more than once the last one counts,
except that a tag has the first of its target lists.
-/

namespace EbmlReport

namespace Matroska

/-- What a tag is about. -/
structure Targets where
  typeValue : Option Nat
  targetType : Option String
  trackUids : List Nat
  editionUids : List Nat
  chapterUids : List Nat
  attachmentUids : List Nat
deriving DecidableEq, Repr

/-- The targets that the children of a Targets element make up. -/
def Targets.ofChildren (children : Forest) : Targets where
  typeValue := children.lastAs Element.unsigned? Code.targetTypeValue
  targetType := children.lastAs Element.text? Code.targetType
  trackUids := children.allAs Element.unsigned? Code.tagTrackUid
  editionUids := children.allAs Element.unsigned? Code.tagEditionUid
  chapterUids := children.allAs Element.unsigned? Code.tagChapterUid
  attachmentUids := children.allAs Element.unsigned? Code.tagAttachmentUid

/-- One named text, without those below it. -/
structure SimpleTag where
  name : Option String
  language : Option String
  isDefault : Option Nat
  string : Option String
  binaryLength : Option Nat
deriving DecidableEq, Repr

namespace SimpleTag

/-- The text that the children of a SimpleTag element make up. -/
def ofChildren (children : Forest) : SimpleTag where
  name := children.lastAs Element.text? Code.tagName
  language := children.lastAs Element.text? Code.tagLanguage
  isDefault := children.lastAs Element.unsigned? Code.tagDefault
  string := children.lastAs Element.text? Code.tagString
  binaryLength := children.lastAs Element.binaryLength? Code.tagBinary

/-- The named texts among the given elements, each with those below it. -/
def outline : Forest → Outline SimpleTag
  | .nil => .nil
  | .leaf frame _ rest =>
      if frame.id = Code.simpleTag then .node (ofChildren .nil) .nil (outline rest)
      else outline rest
  | .master frame children rest =>
      if frame.id = Code.simpleTag then
        .node (ofChildren children) (outline children) (outline rest)
      else outline rest

end SimpleTag

/-- Named texts with what they are about. -/
structure Tag where
  targets : Option Targets
  simpleTags : Outline SimpleTag
deriving DecidableEq, Repr

/-- The tag that the children of a Tag element make up. -/
def Tag.ofChildren (children : Forest) : Tag where
  targets := (children.first? Code.targets).map fun e => .ofChildren e.children
  simpleTags := SimpleTag.outline children

end Matroska

end EbmlReport
