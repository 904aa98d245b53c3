import EbmlReport.Heading
import EbmlReport.Value

/-!
# Elements and forests

A scan turns a file into a forest: the elements of the top level in file order, each
container with the forest of its children.  A forest is written down by its first
element and the rest, so that all recursion on it is structural; `Forest.toList` is
its view as a list of elements.

A leaf either holds a decoded value, or was passed over by a shallow scan, or could
not be built.  A container always has a forest, possibly an empty one.

**Results.**
* `Forest.toList_cons`, `Forest.toList_ofList`: the view of the constructors.
* `Forest.preorder_cons`: a walk takes each element, then its children one level deeper,
  then the elements after it.
-/

namespace EbmlReport

/-- A run of bytes of the file. -/
structure Span where
  start : Nat
  length : Nat
deriving DecidableEq, Repr

/-- The offset one past the last byte. -/
def Span.stop (s : Span) : Nat :=
  s.start + s.length

/-- What every element has, whatever its content. -/
structure Frame where
  id : Nat
  /-- Where the heading lies; it is empty for bytes in which none could be read. -/
  heading : Span
  declared : DeclaredSize
  /-- The payload as resolved, always inside the payload of the parent. -/
  data : Span
  /-- A defect of an element that is usable all the same. -/
  error : Option Defect
deriving DecidableEq, Repr

/-- What a scan made of an element without children. -/
inductive Content
  | value (v : Value)
  /-- A container that a shallow scan passed over. -/
  | skipped
  /-- An element that could not be built. -/
  | corrupt (reason : Defect)
deriving DecidableEq, Repr

/-- Elements next to each other, each container with its children. -/
inductive Forest
  | nil
  | leaf (frame : Frame) (content : Content) (rest : Forest)
  | master (frame : Frame) (children : Forest) (rest : Forest)
deriving DecidableEq, Repr

/-- One element with its descendants. -/
inductive Element
  | leaf (frame : Frame) (content : Content)
  | master (frame : Frame) (children : Forest)
deriving DecidableEq, Repr

namespace Forest

/-- Puts an element in front. -/
def cons : Element → Forest → Forest
  | .leaf frame content, rest => .leaf frame content rest
  | .master frame children, rest => .master frame children rest

/-- The elements of a forest, without those below them. -/
def toList : Forest → List Element
  | nil => []
  | leaf frame content rest => .leaf frame content :: rest.toList
  | master frame children rest => .master frame children :: rest.toList

/-- The forest of the given elements. -/
def ofList : List Element → Forest
  | [] => nil
  | element :: rest => cons element (ofList rest)

/-- Every element of the forest in file order, with its depth below `depth`. -/
def preorder : Forest → (depth : Nat) → List (Nat × Element)
  | nil, _ => []
  | leaf frame content rest, depth => (depth, .leaf frame content) :: rest.preorder depth
  | master frame children rest, depth =>
      (depth, .master frame children) :: (children.preorder (depth + 1) ++ rest.preorder depth)

@[simp] theorem toList_cons (element : Element) (rest : Forest) :
    (cons element rest).toList = element :: rest.toList := by
  cases element <;> rfl

@[simp] theorem toList_ofList (elements : List Element) :
    (ofList elements).toList = elements := by
  induction elements with
  | nil => rfl
  | cons element rest ih => simp [ofList, ih]

@[simp] theorem ofList_toList (forest : Forest) : ofList forest.toList = forest := by
  induction forest with
  | nil => rfl
  | leaf frame content rest ih => simp [toList, ofList, cons, ih]
  | master frame children rest _ ih => simp [toList, ofList, cons, ih]

end Forest

namespace Element

variable (e : Element)

/-- The frame of the element. -/
def frame : Element → Frame
  | leaf frame _ => frame
  | master frame _ => frame

@[simp] theorem frame_leaf (frame : Frame) (content : Content) :
    (leaf frame content).frame = frame := rfl

@[simp] theorem frame_master (frame : Frame) (children : Forest) :
    (master frame children).frame = frame := rfl

/-- The children of a container; a leaf has none. -/
def children : Element → Forest
  | leaf _ _ => .nil
  | master _ children => children

/-- The element's ID. -/
def id : Nat := e.frame.id

/-- The offset one past the payload. -/
def stop : Nat := e.frame.data.stop

/-- A stand-in for bytes in which no heading could be read. -/
def placeholder (start length : Nat) (reason : Defect) : Element :=
  leaf ⟨0, ⟨start, 0⟩, .known length, ⟨start, length⟩, none⟩ (.corrupt reason)

/-- The decoded value of a leaf. -/
def value? : Element → Option Value
  | leaf _ (.value v) => some v
  | _ => none

/-- The value as an unsigned integer. -/
def unsigned? : Option Nat :=
  match e.value? with
  | some (.unsigned n) => some n
  | _ => none

/-- The value as a signed integer. -/
def signed? : Option Int :=
  match e.value? with
  | some (.signed n) => some n
  | _ => none

/-- The value as a float. -/
def float? : Option Binary64 :=
  match e.value? with
  | some (.float x) => some x
  | _ => none

/-- The value as text. -/
def text? : Option String :=
  match e.value? with
  | some (.text s) => some s
  | _ => none

/-- The value as a date. -/
def date? : Option Int :=
  match e.value? with
  | some (.date nanos) => some nanos
  | _ => none

/-- The length and kept bytes of an opaque payload. -/
def binary? : Option (Nat × Bytes) :=
  match e.value? with
  | some (.binary length preview) => some (length, preview)
  | _ => none

/-- The length of an opaque payload. -/
def binaryLength? : Option Nat :=
  e.binary?.map Prod.fst

/-- The element could not be built. -/
def isCorrupt : Element → Bool
  | leaf _ (.corrupt _) => true
  | _ => false

/-- The element could not be built or has a recovered defect. -/
def isMalformed : Bool :=
  e.isCorrupt || e.frame.error.isSome

/-- The element and its descendants in file order, with their depths. -/
def preorder : List (Nat × Element) :=
  (Forest.cons e .nil).preorder 0

end Element

namespace Forest

variable (forest : Forest)

/-- The elements with the given ID, in file order. -/
def withId (id : Nat) : List Element :=
  forest.toList.filter fun e => e.id == id

/-- The first element with the given ID. -/
def first? (id : Nat) : Option Element :=
  forest.toList.find? fun e => e.id == id

/-- The last element with the given ID. -/
def last? (id : Nat) : Option Element :=
  (forest.withId id).getLast?

/-- What `read` makes of the first element with the given ID. -/
def firstAs {α : Type} (read : Element → Option α) (id : Nat) : Option α :=
  (forest.first? id).bind read

/-- What `read` makes of the last element with the given ID. -/
def lastAs {α : Type} (read : Element → Option α) (id : Nat) : Option α :=
  (forest.last? id).bind read

/-- What `read` makes of the elements with the given ID, where it makes anything. -/
def allAs {α : Type} (read : Element → Option α) (id : Nat) : List α :=
  (forest.withId id).filterMap read

/-- Count of the elements, at all depths, that a scan had to recover from. -/
def malformedCount : Nat :=
  ((forest.preorder 0).filter fun (_, e) => e.isMalformed).length

theorem preorder_cons (element : Element) (rest : Forest) (depth : Nat) :
    (cons element rest).preorder depth =
      (depth, element) :: (element.children.preorder (depth + 1) ++ rest.preorder depth) := by
  cases element <;> rfl

end Forest

end EbmlReport
