import EbmlReport.Matroska.Summary
import Mathlib.Data.List.Forall2

/-!
# A drawing determines its outline

A place in an outline is the list of child indices that lead to an item, the first of
which counts the items of the top level.  In lexicographic order each place comes before
those below it, and these before the next place beside it; this is the order of the lines
of a drawing.

The line at a place has one cell for each item above it.  The cell is blank under an item
that is the last of its kind and has a bar under any other.  Behind the cells stands the
branch of the item itself and then its label, in which anything may stand: cells and
branches differ in their first character, and the first branch of a line ends its cells.
What a line should be is said with the characters themselves.

**Results.**
* `Outline.draw_eq_map_lineAt`: a drawing has one line for each place, in order.
* `Outline.drawAfter_shows`: line by line a drawing shows the items of a walk.
* `Outline.draw_injective`: outlines with the same drawing are the same.
* `Outline.draw_reads_back`: the law of drawings, put together from these.
-/

namespace EbmlReport

namespace Outline

section Places

variable {α : Type} {item : α} {outline children rest : Outline α} {place : List Nat} {i j : Nat}

/-- The item at a place, with what is below it. -/
def at? (outline : Outline α) : (place : List Nat) → Option (α × Outline α)
  | [] => none
  | [i] => outline.toList[i]?
  | i :: j :: place => (outline.toList[i]?).bind fun found => found.2.at? (j :: place)

/-- The places of all items, each before those below it. -/
def places : Outline α → List (List Nat)
  | nil => []
  | node _ children rest =>
      [0] :: (children.places.map (List.cons 0) ++ rest.places.map (List.modifyHead (· + 1)))

/-- The place beside another one, behind it. -/
def nextPlace : List Nat → List Nat
  | [] => []
  | [i] => [i + 1]
  | i :: j :: place => i :: nextPlace (j :: place)

/-- The item at a place is the last of those side by side. -/
def isLast (outline : Outline α) (place : List Nat) : Bool :=
  (outline.at? (nextPlace place)).isNone

@[simp] theorem at?_nil : outline.at? [] = none := rfl

@[simp] theorem nil_at? : (nil : Outline α).at? place = none := by
  match place with
  | [] => rfl
  | [_] => rfl
  | _ :: _ :: _ => rfl

@[simp] theorem at?_first : (node item children rest).at? [0] = some (item, children) := rfl

@[simp] theorem at?_below :
    (node item children rest).at? (0 :: j :: place) = children.at? (j :: place) := rfl

@[simp] theorem at?_behind :
    (node item children rest).at? ((i + 1) :: place) = rest.at? (i :: place) := by
  cases place <;> rfl

@[simp] theorem isLast_first : (node item children rest).isLast [0] = rest.isNil := by
  cases rest <;> rfl

@[simp] theorem isLast_below :
    (node item children rest).isLast (0 :: j :: place) = children.isLast (j :: place) := by
  cases place <;> rfl

@[simp] theorem isLast_behind :
    (node item children rest).isLast ((i + 1) :: place) = rest.isLast (i :: place) := by
  cases place with
  | nil => simp only [isLast, nextPlace, at?_behind]
  | cons k place => simp only [isLast, nextPlace, at?_behind]

theorem exists_cons_of_mem_places (h : place ∈ outline.places) :
    ∃ i below, place = i :: below := by
  cases place with
  | cons i below => exact ⟨i, below, rfl⟩
  | nil =>
      induction outline with
      | nil => simp [places] at h
      | node item children rest _ ihRest =>
          simp only [places, List.mem_cons, List.mem_append, List.mem_map] at h
          rcases h with hself | ⟨_, _, hbelow⟩ | ⟨place, hplace, hbehind⟩
          · simp at hself
          · simp at hbelow
          · rw [List.modifyHead_eq_nil_iff] at hbehind
            exact ihRest (hbehind ▸ hplace)

/-- A place is that of the first item, or below it, or behind it. -/
theorem mem_places_node :
    place ∈ (node item children rest).places ↔
      place = [0] ∨
        (∃ j below, place = 0 :: j :: below ∧ j :: below ∈ children.places) ∨
          ∃ i below, place = (i + 1) :: below ∧ i :: below ∈ rest.places := by
  simp only [places, List.mem_cons, List.mem_append, List.mem_map]
  constructor
  · rintro (hself | ⟨below, hbelow, rfl⟩ | ⟨behind, hbehind, rfl⟩)
    · exact Or.inl hself
    · obtain ⟨j, below, rfl⟩ := exists_cons_of_mem_places hbelow
      exact Or.inr (Or.inl ⟨j, below, rfl, hbelow⟩)
    · obtain ⟨i, behind, rfl⟩ := exists_cons_of_mem_places hbehind
      exact Or.inr (Or.inr ⟨i, behind, rfl, hbehind⟩)
  · rintro (hself | ⟨j, below, rfl, hbelow⟩ | ⟨i, behind, rfl, hbehind⟩)
    · exact Or.inl hself
    · exact Or.inr (Or.inl ⟨j :: below, hbelow, rfl⟩)
    · exact Or.inr (Or.inr ⟨i :: behind, hbehind, rfl⟩)

/-- The places listed are those at which there is an item. -/
theorem mem_places_iff : place ∈ outline.places ↔ (outline.at? place).isSome := by
  induction outline generalizing place with
  | nil => simp [places]
  | node item children rest ihChildren ihRest =>
      rw [mem_places_node]
      match place with
      | [] => simp
      | [0] => simp
      | 0 :: j :: below => simp [ihChildren]
      | (i + 1) :: behind => simp [ihRest]

/-- Places below the first item come before those behind it. -/
theorem pairwise_below_append_behind
    {front back : List (List Nat)}
    (hfront : front.Pairwise (· < ·))
    (hback : back.Pairwise (· < ·))
    (hplace : ∀ place ∈ back, ∃ i below, place = i :: below) :
    (front.map (List.cons 0) ++ back.map (List.modifyHead (· + 1))).Pairwise (· < ·) := by
  rw [List.pairwise_append, List.pairwise_map, List.pairwise_map]
  refine ⟨?_, ?_, ?_⟩
  · exact hfront.imp fun hlt => List.cons_lt_cons_self.mpr hlt
  · refine hback.imp_of_mem ?_
    intro first second hfirst hsecond hlt
    obtain ⟨i, first, rfl⟩ := hplace first hfirst
    obtain ⟨j, second, rfl⟩ := hplace second hsecond
    simpa [List.cons_lt_cons_iff] using hlt
  · intro inside hinside outside houtside
    obtain ⟨below, _, rfl⟩ := List.mem_map.mp hinside
    obtain ⟨behind, hbehind, rfl⟩ := List.mem_map.mp houtside
    obtain ⟨i, behind, rfl⟩ := hplace behind hbehind
    simp [List.cons_lt_cons_iff]

/-- The places are listed in lexicographic order, none of them twice. -/
theorem pairwise_places (outline : Outline α) : outline.places.Pairwise (· < ·) := by
  induction outline with
  | nil => exact List.Pairwise.nil
  | node item children rest ihChildren ihRest =>
      have hinside : ([] :: children.places).Pairwise (· < ·) := by
        refine List.pairwise_cons.mpr ⟨?_, ihChildren⟩
        intro place hplace
        obtain ⟨i, below, rfl⟩ := exists_cons_of_mem_places hplace
        exact List.nil_lt_cons i below
      exact pairwise_below_append_behind hinside ihRest fun _ => exists_cons_of_mem_places

end Places

section Lines

variable {label : String} {outline children rest : Outline String} {place : List Nat} {i j : Nat}

/-- The line at a place.  For each item above it there are four characters, which are blank if
that one is the last of those side by side, and have a bar otherwise.  Then comes a corner if the
item itself is the last one, and a tee otherwise, and then its label. -/
def lineAt (outline : Outline String) (place : List Nat) : String :=
  String.join ((List.range (place.length - 1)).map fun depth =>
      if outline.isLast (place.take (depth + 1)) then "    " else "│   ") ++
    (if outline.isLast place then "└── " else "├── ") ++
    ((outline.at? place).map Prod.fst).getD ""

/-- These characters are the cells and branches of a drawing. -/
theorem lineAt_eq (outline : Outline String) (place : List Nat) :
    outline.lineAt place =
      String.join ((List.range (place.length - 1)).map fun depth =>
          cell (outline.isLast (place.take (depth + 1)))) ++
        branch (outline.isLast place) ++ ((outline.at? place).map Prod.fst).getD "" := rfl

theorem lineAt_first :
    (node label children rest).lineAt [0] = branch rest.isNil ++ label := by
  simp [lineAt_eq]

theorem lineAt_below :
    (node label children rest).lineAt (0 :: j :: place) =
      cell rest.isNil ++ children.lineAt (j :: place) := by
  simp [lineAt_eq, List.range_succ_eq_map, Function.comp_def, String.append_assoc]

theorem lineAt_behind :
    (node label children rest).lineAt ((i + 1) :: place) = rest.lineAt (i :: place) := by
  simp [lineAt_eq]

theorem drawAfter_eq_map (cells : String) (outline : Outline String) :
    drawAfter cells outline = outline.draw.map (cells ++ ·) := by
  induction outline generalizing cells with
  | nil => rfl
  | node label children rest ihChildren ihRest =>
      rw [draw, drawAfter, drawAfter, ihChildren, ihRest cells, ihRest "", ihChildren ("" ++ _)]
      simp [Function.comp_def, String.append_assoc]

/-- The drawing of an outline, by its first item, what is below that, and the rest. -/
theorem draw_node :
    (node label children rest).draw =
      (branch rest.isNil ++ label) ::
        (children.draw.map (cell rest.isNil ++ ·) ++ rest.draw) := by
  rw [draw, drawAfter, drawAfter_eq_map, drawAfter_eq_map]
  simp

/-- A drawing has one line for each place, in order. -/
theorem draw_eq_map_lineAt (outline : Outline String) :
    outline.draw = outline.places.map outline.lineAt := by
  induction outline with
  | nil => rfl
  | node label children rest ihChildren ihRest =>
      rw [draw_node, places, List.map_cons, List.map_append, List.map_map, List.map_map,
        lineAt_first, ihChildren, ihRest, List.map_map]
      congr 2
      · refine List.map_congr_left ?_
        intro place hplace
        obtain ⟨j, below, rfl⟩ := exists_cons_of_mem_places hplace
        exact lineAt_below.symm
      · refine List.map_congr_left ?_
        intro place hplace
        obtain ⟨i, below, rfl⟩ := exists_cons_of_mem_places hplace
        exact lineAt_behind.symm

/-- The line shows a label at a depth: four characters for each level, blank or with a bar, then
a corner or a tee, and then the label. -/
def Shows (line : String) (depth : Nat) (label : String) : Prop :=
  ∃ (above : List Bool) (last : Bool),
    above.length = depth ∧
      line = String.join (above.map fun last => if last then "    " else "│   ") ++
        (if last then "└── " else "├── ") ++ label

/-- Under the cells of the items above it, an outline shows its items further below. -/
theorem drawAfter_shows (above : List Bool) (outline : Outline String) :
    List.Forall₂ (fun line node => Shows line node.1 node.2)
      (drawAfter (String.join (above.map cell)) outline) (outline.preorder above.length) := by
  induction outline generalizing above with
  | nil => exact List.Forall₂.nil
  | node label children rest ihChildren ihRest =>
      have hchildren := ihChildren (above ++ [rest.isNil])
      rw [List.map_append, String.join_append, List.length_append] at hchildren
      simp only [List.map_cons, List.map_nil, String.join_cons, String.join_nil,
        String.append_empty] at hchildren
      exact List.Forall₂.cons ⟨above, rest.isNil, rfl, rfl⟩
        (List.rel_append hchildren (ihRest above))

/-- A line that shows something begins with a cell or a branch. -/
theorem Shows.front
    {line : String}
    {depth : Nat}
    (h : Shows line depth label) :
    line.toList.head? ∈ [some ' ', some '│', some '└', some '├'] := by
  obtain ⟨above, last, _, rfl⟩ := h
  cases above with
  | nil => cases last <;> simp
  | cons first above => cases first <;> simp

/-- A line ends in the label that it shows. -/
theorem Shows.exists_append
    {line : String}
    {depth : Nat}
    (h : Shows line depth label) :
    ∃ front, line = front ++ label := by
  obtain ⟨_, _, _, hline⟩ := h
  exact ⟨_, hline⟩

/-- Line by line a drawing shows the items of a walk. -/
theorem draw_shows (outline : Outline String) :
    List.Forall₂ (fun line node => Shows line node.1 node.2) outline.draw (outline.preorder 0) :=
  drawAfter_shows [] outline

/-- A drawn line begins with a cell or a branch. -/
theorem front_of_mem_draw
    {line : String}
    (h : line ∈ outline.draw) :
    line.toList.head? ∈ [some ' ', some '│', some '└', some '├'] := by
  obtain ⟨i, hi, rfl⟩ := List.getElem_of_mem h
  obtain ⟨hlength, hshows⟩ := List.forall₂_iff_get.mp outline.draw_shows
  exact (hshows i hi (hlength ▸ hi)).front

theorem branch_append_injective
    {last last' : Bool}
    {label label' : String}
    (h : branch last ++ label = branch last' ++ label') :
    last = last' ∧ label = label' := by
  have hlist := congrArg String.toList h
  rw [String.toList_append, String.toList_append] at hlist
  cases last <;> cases last' <;> simp_all [branch]

/-- A line that begins with a branch does not begin with a cell. -/
theorem branch_append_ne_cell_append (last last' : Bool) (label line : String) :
    branch last ++ label ≠ cell last' ++ line := by
  intro h
  have hlist := congrArg String.toList h
  rw [String.toList_append, String.toList_append] at hlist
  cases last <;> cases last' <;> simp [branch, cell] at hlist

/-- The lines of the items behind begin with a branch, so they do not run together with
the lines of the items below. -/
theorem map_append_draw_injective
    {last : Bool}
    {lines lines' : List String}
    {rest rest' : Outline String}
    (h : lines.map (cell last ++ ·) ++ rest.draw = lines'.map (cell last ++ ·) ++ rest'.draw) :
    lines = lines' ∧ rest.draw = rest'.draw := by
  induction lines generalizing lines' with
  | nil =>
      cases lines' with
      | nil => exact ⟨rfl, h⟩
      | cons line' lines' =>
          cases rest with
          | nil => simp [draw, drawAfter] at h
          | node label children behind =>
              rw [draw_node] at h
              exact absurd (List.cons.inj h).1 (branch_append_ne_cell_append _ _ _ _)
  | cons line lines ih =>
      cases lines' with
      | nil =>
          cases rest' with
          | nil => simp [draw, drawAfter] at h
          | node label children behind =>
              rw [draw_node] at h
              exact absurd (List.cons.inj h).1.symm (branch_append_ne_cell_append _ _ _ _)
      | cons line' lines' =>
          obtain ⟨hline, hlines⟩ := List.cons.inj h
          obtain ⟨rfl, hrest⟩ := ih hlines
          rw [String.append_right_inj] at hline
          exact ⟨by rw [hline], hrest⟩

/-- Outlines with the same drawing are the same. -/
theorem draw_injective : Function.Injective draw := by
  intro outline
  induction outline with
  | nil =>
      intro other h
      cases other with
      | nil => rfl
      | node label children rest => simp [draw, drawAfter] at h
  | node label children rest ihChildren ihRest =>
      intro other h
      cases other with
      | nil => simp [draw, drawAfter] at h
      | node label' children' rest' =>
          rw [draw_node, draw_node, List.cons.injEq] at h
          obtain ⟨hfirst, hlater⟩ := h
          obtain ⟨hlast, rfl⟩ := branch_append_injective hfirst
          rw [hlast] at hlater
          obtain ⟨hchildren, hrest⟩ := map_append_draw_injective hlater
          rw [ihChildren hchildren, ihRest hrest]

/-- Items with nothing below them have one line each, a branch and the item. -/
theorem branch_append_mem_draw_ofItems (items : List String) (item : String) :
    (∃ last, branch last ++ item ∈ (ofItems items).draw) ↔ item ∈ items := by
  induction items with
  | nil => simp [ofItems, draw, drawAfter]
  | cons first items ih =>
      have hdraw : (ofItems (first :: items)).draw =
          (branch (ofItems items).isNil ++ first) ::
            (ofItems items).draw := by
        rw [ofItems, draw_node]
        rfl
      simp only [hdraw, List.mem_cons, ← ih]
      constructor
      · rintro ⟨last, hfirst | hlater⟩
        · exact Or.inl (branch_append_injective hfirst).2
        · exact Or.inr ⟨last, hlater⟩
      · rintro (rfl | ⟨last, hlater⟩)
        · exact ⟨_, Or.inl rfl⟩
        · exact ⟨last, Or.inr hlater⟩

/-- And the branch is a tee or a corner. -/
theorem mem_draw_ofItems_iff (items : List String) (item : String) :
    (∃ front ∈ ["├── ", "└── "], front ++ item ∈ (ofItems items).draw) ↔ item ∈ items := by
  have hbranch := branch_append_mem_draw_ofItems items item
  rw [Bool.exists_bool] at hbranch
  simp only [List.mem_cons, List.not_mem_nil, or_false, exists_eq_or_imp, exists_eq_left]
  exact hbranch

/-- The fields of an entry are items of their own, in front of what is below it. -/
theorem toList_ofItems_append (fields : List String) (below : Outline String) :
    (ofItems fields ++ below).toList = fields.map (fun field => (field, nil)) ++ below.toList := by
  induction fields with
  | nil => rfl
  | cons field fields ih => exact congrArg ((field, nil) :: ·) ih

/-- **Drawings read back.**  The places of an outline are those at which there is an item;
they come in lexicographic order, each of them has one line, and the lines determine the
outline.  The items below an entry are its fields and then the items of what is below. -/
theorem draw_reads_back (outline other : Outline String) :
    (∀ place, place ∈ outline.places ↔ (outline.at? place).isSome) ∧
      outline.places.Pairwise (· < ·) ∧
      outline.draw = outline.places.map outline.lineAt ∧
      (outline.draw = other.draw ↔ outline = other) ∧
      ∀ label fields below,
        (entry label fields below).toList = [(label, ofItems fields ++ below)] ∧
          (ofItems fields ++ below).toList =
            fields.map (fun field => (field, nil)) ++ below.toList := by
  refine ⟨fun place => mem_places_iff, pairwise_places outline, draw_eq_map_lineAt outline,
    draw_injective.eq_iff, ?_⟩
  intro label fields below
  exact ⟨rfl, toList_ofItems_append fields below⟩

end Lines

end Outline

end EbmlReport
