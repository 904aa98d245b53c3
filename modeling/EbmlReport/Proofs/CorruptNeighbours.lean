import EbmlReport.Proofs.Enriching

/-!
# Corrupt neighbours

A file may have a corrupt element beside a good one with the same ID, such as a damaged
duplicate of a title.  Where a record reads the last element with an ID, a corrupt one behind the
good one is read in its place, and nothing is found in it; where a record reads the first one, so
is a corrupt one in front.  In all other places a corrupt element takes nothing away.

**Results.**
* `Counted.among_insert`: which element counts once one more is put in.
* `Kin.enrichment`: putting in a corrupt element where it hides none is an enrichment.
* `Segment.keeps_unless_hidden`: the law for a segment and for a header, with its exception.
-/

namespace EbmlReport

namespace Matroska

/-- The one that counts among the elements with an ID. -/
def Counted.among : Counted → List Element → Option Element
  | first, elements => elements.head?
  | last, elements => elements.getLast?

/-- The elements on that side of a place where the ones lie that count more. -/
def Counted.side : Counted → List Element → List Element → List Element
  | first, front, _ => front
  | last, _, back => back

/-- Between `front` and `back` the element counts, and in place of one of these. -/
def Hides (container : Nat) (d : Element) (front back : List Element) : Prop :=
  ∃ counted : Counted, IsSingle container counted d.id = true ∧
    d.id ∉ (counted.side front back).map Element.id ∧ d.id ∈ (front ++ back).map Element.id

/-- One tree is the other with `d` put in among the children of a container, at any depth and
at any place that is allowed in that container. -/
inductive Inserted (allowed : Nat → List Element → List Element → Prop) (d : Element) :
    Element → Element → Prop
  | here
      {frame : Frame} (front back : List Element)
      (hallowed : allowed frame.id front back) :
      Inserted allowed d (.master frame (.ofList (front ++ back)))
        (.master frame (.ofList (front ++ d :: back)))
  | deeper
      {frame : Frame} (front back : List Element) {e e' : Element}
      (hbelow : Inserted allowed d e e') :
      Inserted allowed d (.master frame (.ofList (front ++ e :: back)))
        (.master frame (.ofList (front ++ e' :: back)))

/-- The same element, or one with `d` put in where it hides none. -/
def Kin (d e e' : Element) : Prop :=
  e' = e ∨ Inserted (fun container front back => ¬ Hides container d front back) d e e'

section Counting

variable {R : Element → Element → Prop} {d : Element} {front back : List Element}

theorem Counted.of_eq (counted : Counted) (forest : Forest) (id : Nat) :
    counted.of forest id = counted.among (forest.withId id) := by
  cases counted with
  | first => rw [Counted.of, Forest.first?, ← List.head?_filter]; rfl
  | last => rfl

/-- The element put in counts unless one that counts more is there. -/
theorem Counted.among_insert (counted : Counted) (d : Element) (front back : List Element) :
    counted.among (front ++ d :: back) =
      if counted.side front back = [] then some d else counted.among (front ++ back) := by
  cases counted with
  | first => cases front <;> simp [Counted.among, Counted.side]
  | last =>
      cases back with
      | nil => simp [Counted.among, Counted.side]
      | cons e rest =>
          simp [Counted.among, Counted.side, List.getLast?_append, List.getLast?_cons_cons]

theorem Counted.side_filter
    (counted : Counted)
    (p : Element → Bool)
    (front back : List Element) :
    counted.side (front.filter p) (back.filter p) = (counted.side front back).filter p := by
  cases counted <;> rfl

theorem withId_eq_nil_iff {elements : List Element} {id : Nat} :
    (elements.filter fun e => e.id == id) = [] ↔ id ∉ elements.map Element.id := by
  simp only [List.filter_eq_nil_iff, beq_iff_eq, List.mem_map, not_exists, not_and]

/-- Of the elements with an ID, if there are any, one counts. -/
theorem Counted.exists_of_mem_ids
    {elements : List Element}
    {id : Nat}
    (counted : Counted)
    (h : id ∈ elements.map Element.id) :
    ∃ e ∈ elements, counted.of (.ofList elements) id = some e := by
  have hsome : (elements.filter fun e => e.id == id) ≠ [] := fun hnil =>
    withId_eq_nil_iff.mp hnil h
  simp only [Counted.of_eq, Forest.withId, Forest.toList_ofList]
  cases counted with
  | first =>
      exact ⟨_, (List.mem_filter.mp (List.head_mem hsome)).1, List.head?_eq_some_head hsome⟩
  | last =>
      exact ⟨_, (List.mem_filter.mp (List.getLast_mem hsome)).1,
        List.getLast?_eq_some_getLast hsome⟩

theorem Survives.of_eq
    {before after : Option Element}
    (hrefl : ∀ e, R e e)
    (h : after = before) :
    Survives R before after where
  keeps e hbefore := ⟨e, h.trans hbefore, hrefl e⟩
  corrupt hbefore e' hafter := by simp [h.symm.trans hafter] at hbefore

theorem Survives.of_forall₂
    {elements elements' : List Element}
    (counted : Counted)
    (h : List.Forall₂ R elements elements') :
    Survives R (counted.among elements) (counted.among elements') := by
  have hhead : ∀ {elements elements'}, List.Forall₂ R elements elements' →
      Survives R elements.head? elements'.head? := by
    intro elements elements' h
    cases h with
    | nil => exact ⟨by simp [Option.Keeps], by simp⟩
    | @cons e e' rest rest' hfirst hrest => exact ⟨by simpa [Option.Keeps] using hfirst, by simp⟩
  cases counted with
  | first => exact hhead h
  | last =>
      simp only [Counted.among, ← List.head?_reverse]
      exact hhead (List.rel_reverse h)

/-- A corrupt element that hides none leaves the ones that count. -/
theorem Survives.insert
    {container id : Nat}
    (hrefl : ∀ e, R e e)
    (hcorrupt : d.isCorrupt = true)
    (hkept : ¬ Hides container d front back)
    (counted : Counted)
    (hid : IsSingle container counted id = true) :
    Survives R (counted.of (.ofList (front ++ back)) id)
      (counted.of (.ofList (front ++ d :: back)) id) := by
  simp only [Counted.of_eq, Forest.withId, Forest.toList_ofList, List.filter_append]
  by_cases hsame : d.id = id
  · subst hsame
    rw [List.filter_cons_of_pos (by simp), Counted.among_insert, Counted.side_filter]
    split
    · rename_i hside
      -- None counts more, so there was none with the ID at all.
      have hnone : (front ++ back).filter (fun e => e.id == d.id) = [] := by
        rw [withId_eq_nil_iff] at hside ⊢
        exact fun hmem => hkept ⟨counted, hid, hside, hmem⟩
      rw [List.filter_append] at hnone
      rw [hnone]
      refine ⟨fun e hbefore => ?_, fun _ e' hafter => ?_⟩
      · cases counted <;> cases hbefore
      · exact Option.some.inj hafter ▸ hcorrupt
    · exact .of_eq hrefl rfl
  · rw [List.filter_cons_of_neg (by simpa using hsame)]
    exact .of_eq hrefl rfl

theorem Padded.refl (hrefl : ∀ e, R e e) (elements : List Element) :
    Padded R elements elements := by
  induction elements with
  | nil => exact .nil
  | cons e rest ih => exact .cons (hrefl e) ih

theorem Padded.append
    {front' back' : List Element}
    (hfront : Padded R front front')
    (hback : Padded R back back') :
    Padded R (front ++ back) (front' ++ back') := by
  induction hfront with
  | nil => exact hback
  | cons hfirst hrest ih => exact .cons hfirst ih
  | extra hcorrupt hrest ih => exact .extra hcorrupt ih

end Counting

namespace Kin

variable {d e e' : Element}

theorem refl (d e : Element) : Kin d e e :=
  .inl rfl

theorem frame_eq (h : Kin d e e') : e'.frame = e.frame := by
  rcases h with rfl | h
  · rfl
  · cases h <;> rfl

theorem gains (hcorrupt : d.isCorrupt = true) (h : Kin d e e') :
    Gains (Kin d) e.id e.children e'.children := by
  rcases h with rfl | h
  · exact ⟨.refl (refl d) _, fun counted id _ => .of_eq (refl d) rfl⟩
  · cases h with
    | @here frame front back hallowed =>
        refine ⟨?_, fun counted id hid => .insert (refl d) hcorrupt hallowed counted hid⟩
        simp only [Element.children, Forest.toList_ofList]
        exact (Padded.refl (refl d) front).append (.extra hcorrupt (.refl (refl d) back))
    | @deeper frame front back e e' hbelow =>
        have hsame : List.Forall₂ (Kin d) (front ++ e :: back) (front ++ e' :: back) :=
          List.rel_append (List.forall₂_same.mpr fun child _ => refl d child)
            (.cons (.inr hbelow) (List.forall₂_same.mpr fun child _ => refl d child))
        refine ⟨?_, fun counted id _ => ?_⟩
        · simp only [Element.children, Forest.toList_ofList]
          exact (Padded.refl (refl d) front).append (.cons (.inr hbelow) (.refl (refl d) back))
        · simp only [Element.children, Counted.of_eq, Forest.withId, Forest.toList_ofList]
          refine .of_forall₂ counted (List.rel_filter ?_ hsame)
          intro child child' hrelated
          simp [Element.id, hrelated.frame_eq]

/-- Putting in a corrupt element where it hides none is an enrichment. -/
theorem enrichment (hcorrupt : d.isCorrupt = true) : Enrichment (Kin d) where
  shape h := by
    rcases h with rfl | h
    · exact .inl rfl
    · cases h with
      | here front back hallowed => exact .inr ⟨_, _, _, rfl, rfl⟩
      | deeper front back hbelow => exact .inr ⟨_, _, _, rfl, rfl⟩
  gains h := h.gains hcorrupt

end Kin

namespace Segment

/-- **A corrupt element takes nothing away where it hides nothing.**  Whatever corrupt element is
put in among the children of a container in the tree of a segment or of a header, the records
keep their fields; unless it is put in where it counts in place of another one.  Then it is the
element that the field is read of, and it has neither a value nor children. -/
theorem keeps_unless_hidden {d : Element} (hcorrupt : d.isCorrupt = true) :
    (∀ e e' : Element,
      Inserted (fun container front back => ¬ Hides container d front back) d e e' →
        (e.id = Code.segment → Segment.Keeps (ofElement e) (ofElement e')) ∧
        (e.id = Code.ebml →
          Header.ofChildren e.children = Header.ofChildren e'.children)) ∧
      ∀ (container : Nat) (front back : List Element), Hides container d front back →
        ∃ counted : Counted, IsSingle container counted d.id = true ∧
          (∃ e ∈ front ++ back, counted.of (.ofList (front ++ back)) d.id = some e) ∧
          counted.of (.ofList (front ++ d :: back)) d.id = some d ∧
          d.value? = none ∧ d.children = .nil := by
  refine ⟨fun e e' hinserted => ?_, fun container front back hhides => ?_⟩
  · have hR := Kin.enrichment hcorrupt
    have hkin : Kin d e e' := .inr hinserted
    exact ⟨hR.segment hkin, fun hid => hR.header (hR.gains_of_id hkin hid)⟩
  · obtain ⟨counted, hid, hside, hmem⟩ := hhides
    refine ⟨counted, hid, ?_, ?_, value?_of_isCorrupt hcorrupt, children_of_isCorrupt hcorrupt⟩
    · exact counted.exists_of_mem_ids hmem
    · simp only [Counted.of_eq, Forest.withId, Forest.toList_ofList, List.filter_append]
      rw [List.filter_cons_of_pos (by simp), Counted.among_insert, Counted.side_filter,
        if_pos (withId_eq_nil_iff.mpr hside)]

/-- A damaged title in front of the good one: the segment keeps its title.  Behind it, the damaged
one is the title that is read. -/
theorem keeps_unless_hidden_damaged_title :
    let title : Element := .leaf ⟨0x7BA9, ⟨10, 3⟩, .known 1, ⟨13, 1⟩, none⟩ (.value (.text "T"))
    let d : Element := .leaf ⟨0x7BA9, ⟨14, 3⟩, .known 2, ⟨17, 2⟩, none⟩ (.corrupt .notUtf8)
    let info (children : List Element) : Element :=
      .master ⟨0x1549A966, ⟨5, 5⟩, .known 9, ⟨10, 9⟩, none⟩ (.ofList children)
    let segment (children : List Element) : Element :=
      .master ⟨0x18538067, ⟨0, 5⟩, .known 14, ⟨5, 14⟩, none⟩ (.ofList [info children])
    d.isCorrupt = true ∧
      Inserted (fun container front back => ¬ Hides container d front back) d
        (segment [title]) (segment [d, title]) ∧
      Segment.Keeps (ofElement (segment [title])) (ofElement (segment [d, title])) ∧
      Hides Code.info d [title] [] ∧
      ∃ counted : Counted, IsSingle Code.info counted d.id = true ∧
        counted.of (.ofList [title, d]) d.id = some d ∧ d.value? = none := by
  intro title d info segment
  have hcorrupt : d.isCorrupt = true := rfl
  have hkept : ¬ Hides Code.info d [] [title] := by
    rintro ⟨counted, hid, hside, _⟩
    cases counted with
    | first => exact absurd hid (by decide)
    | last => exact hside (by decide)
  have hinserted : Inserted (fun container front back => ¬ Hides container d front back) d
      (segment [title]) (segment [d, title]) :=
    .deeper [] [] (.here [] [title] hkept)
  have hhides : Hides Code.info d [title] [] := ⟨.last, by decide, by decide, by decide⟩
  obtain ⟨hkeeps, hhidden⟩ := keeps_unless_hidden hcorrupt
  obtain ⟨counted, hid, _, hafter, hvalue, _⟩ := hhidden _ _ _ hhides
  exact ⟨hcorrupt, hinserted, (hkeeps _ _ hinserted).1 rfl, hhides, counted, hid, hafter, hvalue⟩

/-- A segment loses its title to a damaged one that is put in behind it. -/
theorem title_lost_to_corrupt_neighbour :
    let title : Element := .leaf ⟨0x7BA9, ⟨10, 3⟩, .known 1, ⟨13, 1⟩, none⟩ (.value (.text "T"))
    let d : Element := .leaf ⟨0x7BA9, ⟨14, 3⟩, .known 2, ⟨17, 2⟩, none⟩ (.corrupt .notUtf8)
    let info (children : List Element) : Element :=
      .master ⟨0x1549A966, ⟨5, 5⟩, .known 9, ⟨10, 9⟩, none⟩ (.ofList children)
    let segment (children : List Element) : Element :=
      .master ⟨0x18538067, ⟨0, 5⟩, .known 14, ⟨5, 14⟩, none⟩ (.ofList [info children])
    let b := Buffered.ofBytes
      [0x18, 0x53, 0x80, 0x67, 0x8E, 0x15, 0x49, 0xA9, 0x66, 0x89,
        0x7B, 0xA9, 0x81, 0x54, 0x7B, 0xA9, 0x82, 0xFF, 0xFE]
    (b.scan vocabulary ⟨false, 64, .bestEffort⟩).1 = .ok (.ofList [segment [title, d]]) ∧
      d.isCorrupt = true ∧
      Inserted (fun _ _ _ => True) d (segment [title]) (segment [title, d]) ∧
      (ofElement (segment [title])).info.bind Info.title = some "T" ∧
      (ofElement (segment [title, d])).info.isSome = true ∧
      (ofElement (segment [title, d])).info.bind Info.title = none := by
  intro title d info segment b
  have hinserted : Inserted (fun _ _ _ => True) d (segment [title]) (segment [title, d]) :=
    .deeper [] [] (.here [title] [] trivial)
  exact ⟨by decide +kernel, rfl, hinserted, by decide, by decide, by decide⟩

end Segment

end Matroska

end EbmlReport
