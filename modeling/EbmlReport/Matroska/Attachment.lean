import EbmlReport.Forest
import EbmlReport.Matroska.Code

/-!
# Attachments

Files carried inside a segment, such as fonts and pictures.  When a field is given
more than once the last one counts.
-/

namespace EbmlReport

namespace Matroska

/-- A file inside a segment. -/
structure Attachment where
  fileName : Option String
  mediaType : Option String
  description : Option String
  dataLength : Option Nat
  uid : Option Nat
deriving DecidableEq, Repr

/-- The attachment that the children of an AttachedFile element make up. -/
def Attachment.ofChildren (children : Forest) : Attachment where
  fileName := children.lastAs Element.text? Code.fileName
  mediaType := children.lastAs Element.text? Code.fileMediaType
  description := children.lastAs Element.text? Code.fileDescription
  dataLength := children.lastAs Element.binaryLength? Code.fileData
  uid := children.lastAs Element.unsigned? Code.fileUid

end Matroska

end EbmlReport
