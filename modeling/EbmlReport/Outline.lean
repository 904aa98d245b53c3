/-!
# Outlines

An outline is a sequence of items, each with an outline of its own below it.  It is
written down by its first item, what is below that, and the rest.

An outline of texts is drawn with one line for each item.  The line shows, cell by
cell, which of the items above it are the last of their kind, so that the drawing
determines the outline.

**Results.**
* `Outline.length_draw`: the drawing has one line for each item.
-/

namespace EbmlReport

/-- A sequence of items with items below them. -/
inductive Outline (α : Type) : Type
  | nil
  | node (item : α) (children : Outline α) (rest : Outline α)
deriving DecidableEq, Repr

namespace Outline

variable {α β : Type}

/-- One item with what is below it. -/
def single (item : α) (children : Outline α) : Outline α :=
  node item children nil

/-- One outline after the other. -/
def append : Outline α → Outline α → Outline α
  | nil, after => after
  | node item children rest, after => node item children (rest.append after)

instance : Append (Outline α) := ⟨append⟩

/-- Outlines one after the other. -/
def join : List (Outline α) → Outline α
  | [] => nil
  | first :: rest => first ++ join rest

/-- Items with nothing below them. -/
def ofItems : List α → Outline α
  | [] => nil
  | item :: rest => node item nil (ofItems rest)

/-- There are no items. -/
def isNil : Outline α → Bool
  | nil => true
  | node _ _ _ => false

/-- Count of the items at all depths. -/
def size : Outline α → Nat
  | nil => 0
  | node _ children rest => 1 + children.size + rest.size

/-- The items of the top level with what is below each. -/
def toList : Outline α → List (α × Outline α)
  | nil => []
  | node item children rest => (item, children) :: rest.toList

/-- Every item with its depth below `depth`, each before what is below it. -/
def preorder : Outline α → (depth : Nat) → List (Nat × α)
  | nil, _ => []
  | node item children rest, depth =>
      (depth, item) :: (children.preorder (depth + 1) ++ rest.preorder depth)

/-- The item in front of a line, for the last of its kind or another. -/
def branch (last : Bool) : String :=
  if last then "└── " else "├── "

/-- The cell under an item, in the lines below it. -/
def cell (last : Bool) : String :=
  if last then "    " else "│   "

/-- The lines of an outline, each after the given cells. -/
def drawAfter (cells : String) : Outline String → List String
  | nil => []
  | node label children rest =>
      (cells ++ branch rest.isNil ++ label) ::
        (drawAfter (cells ++ cell rest.isNil) children ++ drawAfter cells rest)

/-- The lines of an outline. -/
def draw (outline : Outline String) : List String :=
  drawAfter "" outline

theorem length_drawAfter (cells : String) (outline : Outline String) :
    (drawAfter cells outline).length = outline.size := by
  induction outline generalizing cells with
  | nil => rfl
  | node label children rest ihc ihr =>
      simp only [drawAfter, size, List.length_cons, List.length_append, ihc, ihr]
      omega

theorem length_draw (outline : Outline String) : outline.draw.length = outline.size :=
  length_drawAfter "" outline

end Outline

end EbmlReport
