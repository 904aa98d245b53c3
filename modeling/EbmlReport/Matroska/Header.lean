import EbmlReport.Forest
import EbmlReport.Matroska.Code

/-!
# The EBML header

The first element of a file says which document type it has and which versions a
reader has to know.  When a field is given more than once the last one counts.
-/

namespace EbmlReport

namespace Matroska

/-- What the EBML header says. -/
structure Header where
  version : Option Nat
  readVersion : Option Nat
  maxIdLength : Option Nat
  maxSizeLength : Option Nat
  docType : Option String
  docTypeVersion : Option Nat
  docTypeReadVersion : Option Nat
deriving DecidableEq, Repr

/-- The header that the children of an EBML element make up. -/
def Header.ofChildren (children : Forest) : Header where
  version := children.lastAs Element.unsigned? Code.ebmlVersion
  readVersion := children.lastAs Element.unsigned? Code.ebmlReadVersion
  maxIdLength := children.lastAs Element.unsigned? Code.ebmlMaxIdLength
  maxSizeLength := children.lastAs Element.unsigned? Code.ebmlMaxSizeLength
  docType := children.lastAs Element.text? Code.docType
  docTypeVersion := children.lastAs Element.unsigned? Code.docTypeVersion
  docTypeReadVersion := children.lastAs Element.unsigned? Code.docTypeReadVersion

end Matroska

end EbmlReport
