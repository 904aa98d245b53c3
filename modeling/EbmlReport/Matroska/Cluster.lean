import EbmlReport.Forest
import EbmlReport.Matroska.BlockHead
import EbmlReport.Matroska.Code

/-!
# Clusters

A cluster holds blocks that are near each other in time, either by themselves or in
groups.  A group has its place in the file, a duration, and references to other
blocks; one without a block in it is noted as empty.

**Results.**
* `Cluster.length_entries`: every simple block and every group is accounted for once.
-/

namespace EbmlReport

namespace Matroska

/-- How a block stands in its cluster. -/
inductive BlockKind
  | simple
  | group
deriving DecidableEq, Repr

/-- The wording of a kind of block. -/
def BlockKind.name : BlockKind → String
  | simple => "SimpleBlock"
  | group => "BlockGroup"

/-- A block of a cluster. -/
structure Block where
  kind : BlockKind
  /-- Where the simple block or the group starts. -/
  offset : Nat
  size : Nat
  header : Except BlockDefect BlockHead
  /-- Of groups only. -/
  duration : Option Nat
  /-- Count of references to other blocks, of groups only. -/
  references : Nat

namespace Block

/-- The header of an element that holds a block. -/
def headerOf (e : Element) : Except BlockDefect BlockHead :=
  match e.binary? with
  | some (_, preview) => BlockHead.decode preview e.frame.data.length
  | none => .error .cutShort

/-- The block of a SimpleBlock element. -/
def ofSimple (e : Element) : Block where
  kind := .simple
  offset := e.frame.heading.start
  size := e.frame.data.length
  header := headerOf e
  duration := none
  references := 0

/-- The block of a BlockGroup element: its first one. -/
def ofGroup? (group : Element) : Option Block :=
  (group.children.first? Code.block).map fun e =>
    { kind := .group
      offset := group.frame.heading.start
      size := e.frame.data.length
      header := headerOf e
      duration := group.children.firstAs Element.unsigned? Code.blockDuration
      references := (group.children.withId Code.referenceBlock).length }

/-- The timestamp of the cluster plus the timecode of the block, in ticks. -/
def absoluteTime (b : Block) (clusterTimestamp : Option Nat) : Option Int :=
  match b.header, clusterTimestamp with
  | .ok header, some timestamp => some (timestamp + header.timecode)
  | _, _ => none

end Block

/-- What a child of a cluster contributes to its blocks. -/
inductive BlockEntry
  | block (b : Block)
  /-- A group without a block, by its offset. -/
  | emptyGroup (offset : Nat)

namespace BlockEntry

/-- What an element contributes, if it is one that should hold a block. -/
def ofElement? (e : Element) : Option BlockEntry :=
  if e.id = Code.simpleBlock then some (block (.ofSimple e))
  else if e.id = Code.blockGroup then
    match Block.ofGroup? e with
    | some b => some (block b)
    | none => some (emptyGroup e.frame.heading.start)
  else none

/-- The block of an entry. -/
def block? : BlockEntry → Option Block
  | block b => some b
  | emptyGroup _ => none

/-- The offset of an empty group. -/
def emptyGroup? : BlockEntry → Option Nat
  | block _ => none
  | emptyGroup offset => some offset

end BlockEntry

/-- One cluster. -/
structure Cluster where
  offset : Nat
  timestamp : Option Nat
  position : Option Nat
  prevSize : Option Nat
  blocks : List Block
  /-- The offsets of groups without a block. -/
  emptyGroups : List Nat

namespace Cluster

/-- The entries of a cluster's children, in file order. -/
def entries (children : Forest) : List BlockEntry :=
  children.toList.filterMap BlockEntry.ofElement?

/-- The cluster of a Cluster element. -/
def ofElement (e : Element) : Cluster where
  offset := e.frame.heading.start
  timestamp := e.children.lastAs Element.unsigned? Code.timestamp
  position := e.children.lastAs Element.unsigned? Code.position
  prevSize := e.children.lastAs Element.unsigned? Code.prevSize
  blocks := (entries e.children).filterMap BlockEntry.block?
  emptyGroups := (entries e.children).filterMap BlockEntry.emptyGroup?

theorem length_entries (entries : List BlockEntry) :
    (entries.filterMap BlockEntry.block?).length +
      (entries.filterMap BlockEntry.emptyGroup?).length = entries.length := by
  induction entries with
  | nil => rfl
  | cons entry rest ih =>
      cases entry with
      | block b =>
          simp only [List.filterMap_cons, BlockEntry.block?, BlockEntry.emptyGroup?,
            List.length_cons]
          omega
      | emptyGroup offset =>
          simp only [List.filterMap_cons, BlockEntry.block?, BlockEntry.emptyGroup?,
            List.length_cons]
          omega

end Cluster

end Matroska

end EbmlReport
