/-!
# Vocabularies of elements

What an element ID means is not in the file but in the specification of its document
type.  A vocabulary holds the part of one that a scan needs: the kind of payload
behind each ID, where the element may stand, which containers a shallow scan reads
only once, and how many bytes of an opaque payload are kept.

**Results.**
* `Vocabulary.isMaster_iff`: the containers are the IDs listed as such.
* `Vocabulary.closes_nil`: at the top level nothing is open.
-/

namespace EbmlReport

/-- How the payload of an element is encoded. -/
inductive Kind
  /-- A container of elements. -/
  | master
  | unsigned
  | signed
  | float
  /-- Printable ASCII. -/
  | ascii
  | utf8
  | date
  | binary
deriving DecidableEq, Repr

namespace Kind

/-- All kinds. -/
def all : List Kind :=
  [master, unsigned, signed, float, ascii, utf8, date, binary]

/-- The name of a kind in the specification. -/
def name : Kind → String
  | master => "master"
  | unsigned => "uinteger"
  | signed => "integer"
  | float => "float"
  | ascii => "string"
  | utf8 => "utf-8"
  | date => "date"
  | binary => "binary"

/-- The kind with a given name. -/
def ofName? (name : String) : Option Kind :=
  all.find? fun kind => kind.name == name

end Kind

/-- Where an element may stand. -/
inductive Placement
  /-- At the top level of the file. -/
  | root
  /-- In any container. -/
  | anywhere
  /-- In the listed containers. -/
  | within (parents : List Nat)
deriving DecidableEq, Repr

/-- One element of a specification. -/
structure Definition where
  id : Nat
  name : String
  kind : Kind
  placement : Placement
deriving DecidableEq, Repr

/-- Bytes of an opaque payload that are kept and shown. -/
def previewLimit : Nat := 16

/-- What a scan knows about a document type. -/
structure Vocabulary where
  lookup : Nat → Option Definition
  /-- Containers of which a shallow scan reads only the first. -/
  isSkippable : Nat → Bool
  /-- Leading bytes that are kept of an opaque payload. -/
  previewLength : Nat → Nat

namespace Vocabulary

/-- The vocabulary of a list of definitions, of which the first with an ID counts.
IDs without a preview length of their own get the usual one. -/
def ofTable (table : List Definition) (skippable : List Nat) (previews : List (Nat × Nat)) :
    Vocabulary where
  lookup id := table.find? fun definition => definition.id == id
  isSkippable id := skippable.contains id
  previewLength id := (previews.lookup id).getD previewLimit

variable (v : Vocabulary)

/-- Whether the element is a container. -/
def isMaster (id : Nat) : Bool :=
  match v.lookup id with
  | some definition => definition.kind == .master
  | none => false

/-- The payload kind; an ID that is not listed is opaque. -/
def kind (id : Nat) : Kind :=
  match v.lookup id with
  | some definition => definition.kind
  | none => .binary

/-- Whether `child` may stand in `parent`. -/
def admits (parent child : Nat) : Bool :=
  match v.lookup child with
  | some ⟨_, _, _, .anywhere⟩ => true
  | some ⟨_, _, _, .within parents⟩ => parents.contains parent
  | some ⟨_, _, _, .root⟩ => false
  | none => false

/-- Whether the element belongs to the top level. -/
def isRoot (id : Nat) : Bool :=
  match v.lookup id with
  | some definition => definition.placement == .root
  | none => false

/-- Whether `id` closes the innermost of the open containers, which are given
innermost first.  A listed element does so when it may not stand in that container
but may stand at the top level or in one further out.  Unlisted and misplaced
elements stay inside. -/
def closes (path : List Nat) (id : Nat) : Bool :=
  match path with
  | [] => false
  | parent :: ancestors =>
      !v.admits parent id &&
        (v.isRoot id || ancestors.any fun ancestor => v.admits ancestor id)

theorem isMaster_iff {id : Nat} :
    v.isMaster id = true ↔ ∃ definition, v.lookup id = some definition ∧
      definition.kind = .master := by
  unfold isMaster
  cases v.lookup id with
  | none => simp
  | some definition => simp

@[simp] theorem closes_nil (id : Nat) : v.closes [] id = false := rfl

end Vocabulary

end EbmlReport
