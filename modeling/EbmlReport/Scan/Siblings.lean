import EbmlReport.Forest
import EbmlReport.Scan.Inquiry
import EbmlReport.Scan.Settings

/-!
# Reading elements side by side

A zone is the stretch of a file in which elements stand next to each other: the whole
file, or the payload of a container.  `Scan.siblings` reads the elements of a zone
from a position on and goes into each container that it meets.

The end of a zone is declared, or it is open.  An open zone belongs to a container of
unknown size.  It ends before the first heading that the vocabulary does not allow
there but further out, and at the latest where the zone around it ends.  So in an
open zone a heading that cannot be read leaves nothing to go by, and the scan fails;
in a declared zone the rest becomes a stand-in.

A shallow scan opens the first skippable container under each top-level element and
passes over the others.  One of unknown size has to be read to find its end.
-/

namespace EbmlReport

/-- A stretch of a file in which elements stand side by side. -/
structure Zone where
  /-- The containers around it, innermost first. -/
  path : List Nat
  /-- The end shows only by content. -/
  isOpen : Bool
  /-- The end, or the latest end of an open zone. -/
  stop : Nat
deriving DecidableEq, Repr

/-- What was read of a zone. -/
structure Stretch where
  elements : Forest
  /-- Where reading stopped. -/
  stop : Nat
  /-- A skippable container has been opened under the current top-level element. -/
  seen : Bool
deriving DecidableEq, Repr

namespace Zone

variable (zone : Zone)

/-- Containers around the zone. -/
def depth : Nat := zone.path.length

/-- The frame of an element whose heading was read at `pos`.  A payload that is
declared longer than the zone is clipped; one of unknown size takes all of it. -/
def frameAt (pos : Nat) (heading : Heading) : Frame :=
  let start := pos + heading.length
  let available := zone.stop - start
  match heading.size with
  | .known length =>
      if length ≤ available then
        ⟨heading.id, ⟨pos, heading.length⟩, heading.size, ⟨start, length⟩, none⟩
      else
        ⟨heading.id, ⟨pos, heading.length⟩, heading.size, ⟨start, available⟩,
          some (.overrunsParent length available)⟩
  | .unknown => ⟨heading.id, ⟨pos, heading.length⟩, heading.size, ⟨start, available⟩, none⟩

/-- The zone inside a container. -/
def inside (frame : Frame) : Zone where
  path := frame.id :: zone.path
  isOpen := frame.declared == .unknown
  stop := frame.data.stop

end Zone

/-- The frame of a container once its zone has been read up to `stop`, which is where
an open zone turns out to end. -/
def Frame.closedAt (frame : Frame) (stop : Nat) : Frame :=
  if frame.declared = .unknown then
    { frame with data := ⟨frame.data.start, stop - frame.data.start⟩ }
  else frame

/-- What a scan does about an element; `α` tells how it goes on. -/
inductive Decision (α : Type)
  /-- The scan fails. -/
  | fails (offset : Nat) (reason : Defect)
  /-- The element is a leaf with that content, and nothing of it is read. -/
  | settles (content : Content)
  | goesOn (how : α)
deriving DecidableEq, Repr

/-- How an element is looked into. -/
inductive Approach
  /-- As a leaf, by its payload. -/
  | asLeaf
  /-- As a container, by its children. -/
  | asMaster
deriving DecidableEq, Repr

namespace Scan

variable (v : Vocabulary) (s : Settings)

/-- A text payload is not taken into memory beyond this length. -/
def maxTextLength : Nat := 2 ^ 20

/-- The defect of a payload that its length alone shows. -/
def lengthDefect? (kind : Kind) (length : Nat) : Option Defect :=
  match kind with
  | .ascii => if maxTextLength < length then some (.oversized length) else none
  | .utf8 => if maxTextLength < length then some (.oversized length) else none
  | .float => if 8 < length then some (.floatWidth length) else none
  | .date => if 8 < length then some (.dateWidth length) else none
  | .unsigned => if 8 < length then some (.integerWidth length) else none
  | .signed => if 8 < length then some (.integerWidth length) else none
  | .master => none
  | .binary => none

section Decisions

variable {α : Type}

/-- What to do when a defect is confined to one element. -/
def settle (offset : Nat) (reason : Defect) : Decision α :=
  if s.isStrict then .fails offset reason else .settles (.corrupt reason)

/-- What to do when nothing tells where an element ends.  The rest of a declared zone
can be given up for it. -/
def giveUp (zone : Zone) (offset : Nat) (reason : Defect) : Decision α :=
  if zone.isOpen then .fails offset reason else settle s offset reason

end Decisions

/-- What to do about an element before anything of its payload is asked for. -/
def approach (zone : Zone) (frame : Frame) : Decision Approach :=
  match frame.error, s.isStrict with
  | some reason, true => .fails frame.heading.start reason
  | _, _ =>
      if v.isMaster frame.id then .goesOn .asMaster
      else if frame.declared = .unknown then
        giveUp s zone frame.heading.start .boundaryUnresolvable
      else .goesOn .asLeaf

/-- What to do about a container that is about to be entered; going on, its children
are kept or dropped. -/
def entry (zone : Zone) (frame : Frame) (seen : Bool) : Decision Bool :=
  if s.maxDepth ≤ zone.depth then
    if frame.declared = .unknown then giveUp s zone frame.heading.start (.tooDeep s.maxDepth)
    else settle s frame.heading.start (.tooDeep s.maxDepth)
  else if s.shallow && v.isSkippable frame.id && seen then
    if frame.declared = .unknown then .goesOn false else .settles .skipped
  else .goesOn true

/-- Whether a skippable container has been opened once `frame` is entered. -/
def seenInside (frame : Frame) (seen : Bool) : Bool :=
  seen || (s.shallow && v.isSkippable frame.id)

/-- The heading at the start of `bytes`, which should hold one. -/
def heading (bytes : Bytes) : Except Defect Heading :=
  match Heading.decode bytes with
  | .ok (some heading) => .ok heading
  | .ok none => .error .cutShort
  | .error reason => .error reason

variable {α : Type}

/-- Goes on with a leaf whose payload was read, or is known to be defective. -/
def finishLeaf (frame : Frame) (payload : Except Defect Value) (next : Element → Inquiry α) :
    Inquiry α :=
  match payload with
  | .ok value => next (.leaf frame (.value value))
  | .error reason =>
      if s.isStrict then .fail frame.heading.start reason
      else next (.leaf frame (.corrupt reason))

/-- Reads the payload of a leaf.  A clipped payload means nothing, and its defect
takes the place of the content. -/
def leaf (frame : Frame) (next : Element → Inquiry α) : Inquiry α :=
  match frame.error with
  | some reason => next (.leaf { frame with error := none } (.corrupt reason))
  | none =>
      let length := frame.data.length
      match v.kind frame.id, lengthDefect? (v.kind frame.id) length with
      | _, some reason => finishLeaf s frame (.error reason) next
      | .binary, none =>
          .fetch frame.data.start (min (v.previewLength frame.id) length) fun preview =>
            finishLeaf s frame (.ok (.binary length preview)) next
      | kind, none =>
          .fetch frame.data.start length fun bytes =>
            finishLeaf s frame (Value.decode kind bytes) next

/-- Reads the elements of a zone from `pos` on and hands them to `next`.  Each element
takes up two bytes at least, so `zone.stop - pos` is fuel enough. -/
def siblings : (fuel : Nat) → (zone : Zone) → (pos : Nat) → (seen : Bool) →
    (next : Stretch → Inquiry α) → Inquiry α
  | 0, _, pos, seen, next => next ⟨.nil, pos, seen⟩
  | fuel + 1, zone, pos, seen, next =>
      if zone.stop ≤ pos then next ⟨.nil, pos, seen⟩
      else
        .checkpoint <| .fetch pos (min Heading.maxLength (zone.stop - pos)) fun bytes =>
          match heading bytes with
          | .error reason =>
              if zone.isOpen then .fail pos .boundaryUnresolvable
              else if s.isStrict then .fail pos reason
              else
                let rest := Element.placeholder pos (zone.stop - pos) reason
                next ⟨.cons rest .nil, zone.stop, seen⟩
          | .ok heading =>
              if zone.isOpen && v.closes zone.path heading.id then
                next ⟨.nil, pos, seen⟩
              else
                let frame := zone.frameAt pos heading
                let seen := seen && !zone.path.isEmpty
                let proceed (element : Element) (seen : Bool) :=
                  siblings fuel zone element.stop seen fun rest =>
                    next { rest with elements := .cons element rest.elements }
                match approach v s zone frame with
                | .fails offset reason => .fail offset reason
                | .settles content => proceed (.leaf frame content) seen
                | .goesOn .asLeaf =>
                    .checkpoint <| leaf v s frame fun element => proceed element seen
                | .goesOn .asMaster =>
                    .checkpoint <|
                      match entry v s zone frame seen with
                      | .fails offset reason => .fail offset reason
                      | .settles content => proceed (.leaf frame content) seen
                      | .goesOn kept =>
                          siblings fuel (zone.inside frame) frame.data.start
                            (seenInside v s frame seen) fun contents =>
                              let closed := frame.closedAt contents.stop
                              proceed
                                (if kept then .master closed contents.elements
                                 else .leaf closed .skipped)
                                contents.seen

/-- Reads a whole stream of the given length. -/
def whole (length : Nat) : Inquiry Forest :=
  siblings v s length ⟨[], false, length⟩ 0 false fun stretch => .done stretch.elements

end Scan

end EbmlReport
