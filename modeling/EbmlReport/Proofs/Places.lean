import EbmlReport.Proofs.Failing
import EbmlReport.Proofs.Tiling

/-!
# Places in a forest

A place is the list of child indices that lead to an element, the first of which counts
the elements of the top level.  Two forests can be compared place by place, also when
they differ in the frames of their containers.

**Results.**
* `Forest.at?_cons_eq_some_iff`: an element of a forest is in the first tree of it, or in
  the others.
* `Forest.mem_preorder_iff`: the elements that have a place are those of a walk.
* `Forest.Tiles.bounds_at`: the elements of a tiling lie in it.
* `Forest.Tiles.data_start_le`: and none has its payload in front of the first one's.
-/

namespace EbmlReport

/-- The element at a place below `e`; the empty place is that of `e` itself. -/
def Element.at? (e : Element) : (place : List Nat) → Option Element
  | [] => some e
  | i :: place => (e.children.toList[i]?).bind fun child => child.at? place

/-- The element at a place. -/
def Forest.at? (forest : Forest) : (place : List Nat) → Option Element
  | [] => none
  | i :: place => (forest.toList[i]?).bind fun e => e.at? place

namespace Element

variable {e found : Element} {place : List Nat} {i : Nat}

@[simp] theorem at?_nil : e.at? [] = some e := rfl

theorem at?_cons : e.at? (i :: place) = e.children.at? (i :: place) := rfl

theorem at?_eq_some_iff :
    e.at? place = some found ↔
      (place = [] ∧ found = e) ∨ e.children.at? place = some found := by
  cases place with
  | nil => simp [Forest.at?, eq_comm]
  | cons i place => simp [at?_cons]

end Element

namespace Forest

variable {forest rest : Forest} {first e : Element} {place : List Nat} {i start stop : Nat}

@[simp] theorem at?_nil : forest.at? [] = none := rfl

@[simp] theorem nil_at? : nil.at? place = none := by
  cases place <;> rfl

@[simp] theorem at?_cons_zero : (cons first rest).at? (0 :: place) = first.at? place := by
  simp [at?]

@[simp] theorem at?_cons_succ :
    (cons first rest).at? ((i + 1) :: place) = rest.at? (i :: place) := by
  simp [at?]

/-- An element of a forest is in the first tree of it, or in the others. -/
theorem at?_cons_eq_some_iff :
    (cons first rest).at? place = some e ↔
      (∃ below, place = 0 :: below ∧ first.at? below = some e) ∨
        ∃ i below, place = (i + 1) :: below ∧ rest.at? (i :: below) = some e := by
  cases place with
  | nil => simp
  | cons i below =>
      cases i with
      | zero => simp
      | succ i =>
          constructor
          · intro hbehind
            rw [at?_cons_succ] at hbehind
            exact Or.inr ⟨i, below, rfl, hbehind⟩
          · rintro (⟨_, hplace, _⟩ | ⟨_, _, hplace, hbehind⟩)
            · simp at hplace
            · rw [hplace, at?_cons_succ]
              exact hbehind

/-- Induction on a forest that takes its first tree as one element. -/
@[elab_as_elim]
theorem cons_induction
    {motive : Forest → Prop}
    (nil : motive nil)
    (cons : ∀ first rest, motive first.children → motive rest → motive (cons first rest))
    (forest : Forest) :
    motive forest := by
  induction forest with
  | nil => exact nil
  | leaf frame content rest ih => exact cons (.leaf frame content) rest nil ih
  | master frame children rest ihChildren ihRest =>
      exact cons (.master frame children) rest ihChildren ihRest

/-- The elements of a walk are those that have a place, and it is as long as they are deep. -/
theorem mem_preorder_iff {base depth : Nat} :
    (depth, e) ∈ forest.preorder base ↔
      ∃ place, base + place.length = depth + 1 ∧ forest.at? place = some e := by
  induction forest using cons_induction generalizing base with
  | nil => simp [preorder]
  | cons first rest ihChildren ihRest =>
      rw [preorder_cons, List.mem_cons, List.mem_append, ihChildren, ihRest]
      constructor
      · rintro (hself | ⟨below, hdepth, hbelow⟩ | ⟨place, hdepth, hbehind⟩)
        · obtain ⟨rfl, rfl⟩ := Prod.mk.inj hself
          exact ⟨[0], rfl, at?_cons_zero⟩
        · refine ⟨0 :: below, by rw [List.length_cons]; omega, ?_⟩
          rw [at?_cons_zero]
          exact Element.at?_eq_some_iff.mpr (Or.inr hbelow)
        · cases place with
          | nil => simp at hbehind
          | cons i below =>
              refine ⟨(i + 1) :: below, hdepth, ?_⟩
              rw [at?_cons_succ]
              exact hbehind
      · rintro ⟨place, hdepth, hat⟩
        rcases at?_cons_eq_some_iff.mp hat with
          ⟨below, rfl, hfirst⟩ | ⟨i, below, rfl, hbehind⟩
        · rw [List.length_cons] at hdepth
          rcases Element.at?_eq_some_iff.mp hfirst with ⟨rfl, rfl⟩ | hbelow
          · exact Or.inl (Prod.ext (by simpa using hdepth.symm) rfl)
          · exact Or.inr (Or.inl ⟨below, by omega, hbelow⟩)
        · exact Or.inr (Or.inr ⟨i :: below, hdepth, hbehind⟩)

namespace Tiles

/-- The first element of a tiling starts where it does, and the payload lies behind. -/
theorem first_bounds (h : (cons first rest).Tiles start stop) :
    start ≤ first.frame.data.start ∧ start < first.stop := by
  cases first with
  | leaf frame content =>
      obtain ⟨hstart, hheading, hforward, _⟩ := h
      rw [Span.stop] at hheading
      simp only [Element.frame_leaf, Element.stop]
      omega
  | master frame children =>
      obtain ⟨_, _, hforward, hchildren, _⟩ := h
      have hinside := hchildren.le
      simp only [Element.frame_master, Element.stop]
      omega

/-- The elements behind the first one of a tiling tile the rest. -/
theorem behind (h : (cons first rest).Tiles start stop) : rest.Tiles first.stop stop := by
  cases first with
  | leaf frame content => exact h.2.2.2
  | master frame children => exact h.2.2.2.2

/-- The children of the first one tile its payload, or there are none. -/
theorem below (h : (cons first rest).Tiles start stop) :
    ∃ low, first.frame.data.start ≤ low ∧ first.children.Tiles low first.stop := by
  cases first with
  | leaf frame content => exact ⟨_, Nat.le_add_right _ _, rfl⟩
  | master frame children => exact ⟨_, Nat.le_refl _, h.2.2.2.1⟩

/-- The elements of a tiling lie in it. -/
theorem bounds_at
    (h : forest.Tiles start stop)
    (hat : forest.at? place = some e) :
    start ≤ e.frame.data.start ∧ start < e.stop ∧ e.stop ≤ stop := by
  induction forest using cons_induction generalizing start stop place with
  | nil => simp at hat
  | cons first rest ihChildren ihRest =>
      have hfirst := h.first_bounds
      have hle := h.behind.le
      rcases at?_cons_eq_some_iff.mp hat with ⟨below, rfl, hhere⟩ | ⟨i, below, rfl, hbehind⟩
      · rcases Element.at?_eq_some_iff.mp hhere with ⟨_, rfl⟩ | hbelow
        · omega
        · obtain ⟨low, hlow, hchildren⟩ := h.below
          have hbounds := ihChildren hchildren hbelow
          omega
      · have hbounds := ihRest h.behind hbehind
        omega

/-- No payload below the first one goes beyond its own. -/
theorem bounds_below
    (h : (cons first rest).Tiles start stop)
    (hat : first.at? place = some e) :
    first.frame.data.start ≤ e.frame.data.start ∧ e.stop ≤ first.stop := by
  rcases Element.at?_eq_some_iff.mp hat with ⟨_, rfl⟩ | hbelow
  · exact ⟨Nat.le_refl _, Nat.le_refl _⟩
  · obtain ⟨low, hlow, hchildren⟩ := h.below
    have hbounds := hchildren.bounds_at hbelow
    exact ⟨Nat.le_trans hlow hbounds.1, hbounds.2.2⟩

/-- No element of a tiling has its payload in front of the first one's. -/
theorem data_start_le
    (h : (cons first rest).Tiles start stop)
    (hat : (cons first rest).at? place = some e) :
    first.frame.data.start ≤ e.frame.data.start := by
  rcases at?_cons_eq_some_iff.mp hat with ⟨below, rfl, hfirst⟩ | ⟨i, below, rfl, hbehind⟩
  · exact (h.bounds_below hfirst).1
  · exact Nat.le_trans (Nat.le_add_right _ _) (h.behind.bounds_at hbehind).1

end Tiles

end Forest

/-- No element that was read has its payload in front of the first heading's end. -/
theorem Reads.data_start_le
    {c : Contents}
    {v : Vocabulary}
    {s : Settings}
    {zone : Zone}
    {pos : Nat}
    {seen : Bool}
    {heading : Heading}
    {r : Stretch}
    {place : List Nat}
    {e : Element}
    (h : Reads c v s zone pos seen r)
    (hpos : pos ≤ zone.stop)
    (hreads : c.headingAt zone.stop pos = .ok heading)
    (hat : r.elements.at? place = some e) :
    pos + heading.length ≤ e.frame.data.start := by
  have htiles := h.tiles hpos
  cases h with
  | ended hend => simp at hat
  | closed _ _ _ _ => simp at hat
  | unreadable _ hfound _ _ => simp [hreads] at hfound
  | @leaf _ _ _ found element rest hopens hsettles hrest =>
      obtain rfl := hopens.eq_of_reads hreads
      have hfirst := htiles.data_start_le hat
      rwa [hsettles.keeps.2.2.2, Zone.frameAt_data_start] at hfirst
  | @entered _ _ _ kept found frame contents rest hopens hframe _ _ hcontents hrest =>
      obtain rfl := hopens.eq_of_reads hreads
      have hfirst := htiles.data_start_le hat
      rwa [Frame.contained_frame, Frame.closedAt_data_start, hframe,
        Zone.frameAt_data_start] at hfirst

end EbmlReport
