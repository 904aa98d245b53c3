import EbmlReport.Forest
import EbmlReport.Number.Shortest

/-!
# Elements written out in full

`Element.dump` writes an element with every field by name, on one line, as tools show
it that inspect a scan.  Reports use the shorter wording of `Value.display`.
-/

namespace EbmlReport

/-- Items between brackets, with a comma between two. -/
def bracketed (items : List String) : String :=
  "[" ++ String.intercalate ", " items ++ "]"

/-- A record with named fields. -/
def recordText (name : String) (fields : List (String × String)) : String :=
  name ++ " \x7b " ++
    String.intercalate ", " (fields.map fun (field, text) => field ++ ": " ++ text) ++ " \x7d"

/-- A constructor with one argument. -/
def appliedText (name argument : String) : String :=
  name ++ "(" ++ argument ++ ")"

/-- An optional part. -/
def optionText : Option String → String
  | none => "None"
  | some text => appliedText "Some" text

/-- A run of bytes. -/
def Span.dump (s : Span) : String :=
  recordText "ByteRange" [("start", toString s.start), ("length", toString s.length)]

/-- A declared size. -/
def DeclaredSize.dump : DeclaredSize → String
  | known length => appliedText "Known" (toString length)
  | unknown => "Unknown"

namespace Defect

/-- The name of a kind of defect. -/
def name : Defect → String
  | idUnmarked => "InvalidIdPrefix"
  | idTooLong _ => "InvalidIdLength"
  | sizeUnmarked => "InvalidSizePrefix"
  | cutShort => "TruncatedVint"
  | boundaryUnresolvable => "UnresolvableBoundary"
  | tooDeep _ => "MaxDepthExceeded"
  | notUtf8 => "InvalidUtf8"
  | integerWidth _ => "InvalidIntegerWidth"
  | floatWidth _ => "InvalidFloatWidth"
  | dateWidth _ => "InvalidDateWidth"
  | oversized _ => "OversizedValue"
  | overrunsParent _ _ => "ElementOverrunsParent"

/-- The figures of a defect. -/
def figures : Defect → List Nat
  | idTooLong length => [length]
  | tooDeep limit => [limit]
  | integerWidth length => [length]
  | floatWidth length => [length]
  | dateWidth length => [length]
  | oversized length => [length]
  | overrunsParent declared available => [declared, available]
  | _ => []

/-- A defect by name and figures. -/
def dump (d : Defect) : String :=
  match d with
  | overrunsParent declared available =>
      recordText d.name [("declared", toString declared), ("available", toString available)]
  | _ =>
      match d.figures with
      | [] => d.name
      | figure :: _ => appliedText d.name (toString figure)

end Defect

/-- A value by kind. -/
def Value.dump : Value → String
  | unsigned n => appliedText "Unsigned" (toString n)
  | signed n => appliedText "Signed" (toString n)
  | float x => appliedText "Float" x.shortest
  | text s => appliedText "Text" (Quoted.text s)
  | date nanos => appliedText "Date" (toString nanos)
  | binary length preview =>
      recordText "Binary"
        [("len", toString length), ("preview", bracketed (preview.map fun b => toString b.toNat))]

/-- The content of a leaf. -/
def Content.dump : Content → String
  | value v => appliedText "Value" v.dump
  | skipped => "Skipped"
  | corrupt reason => appliedText "Corrupt" reason.dump

/-- An element with a given text for its body. -/
def Frame.dumpWith (f : Frame) (body : String) : String :=
  recordText "Element"
    [("id", Hex.idText f.id),
      ("header", f.heading.dump),
      ("declared_size", f.declared.dump),
      ("data", f.data.dump),
      ("body", body),
      ("error", optionText (f.error.map Defect.dump))]

/-- The elements of a forest, each with its descendants. -/
def Forest.dump : Forest → List String
  | nil => []
  | leaf frame content rest => frame.dumpWith content.dump :: rest.dump
  | master frame children rest =>
      frame.dumpWith (appliedText "Master" (bracketed children.dump)) :: rest.dump

/-- An element with its descendants. -/
def Element.dump (e : Element) : String :=
  String.join (Forest.cons e .nil).dump

end EbmlReport
