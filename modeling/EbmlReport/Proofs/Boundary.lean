import EbmlReport.Matroska.Specification
import EbmlReport.Proofs.Reading
import EbmlReport.Proofs.Stream

/-!
# Where containers of unknown size end

A container of unknown size ends before the first heading that closes it, and otherwise
where the innermost container of declared size around it ends.  One heading may close
several containers, one inside the other.  Each of them judges the heading on its own,
with the containers around it, and the element finds its place in the innermost one
that is of declared size or may hold it.

To follow a heading outwards, `Reads.placement` tells of each container either where the
element behind it was placed, or that reading stopped in front of it and that none of
the containers in between keeps it.

**Results.**
* `Reads.stays`: the elements of an open zone do not close it.
* `Reads.handover`: the heading that closes a container is the next one of its zone, or
  closes the zone as well.
* `Reads.container`: every container that was read is a zone inside another.
* `Reads.placement`: what becomes of the element behind a container.
* `Buffered.scan_boundary`: the law for a scan.
-/

namespace EbmlReport

namespace Vocabulary

variable (v : Vocabulary)

/-- What stays in the innermost container either may stand there or has no place
further out. -/
theorem closes_cons_eq_false_iff {parent : Nat} {ancestors : List Nat} {id : Nat} :
    v.closes (parent :: ancestors) id = false ↔
      v.admits parent id = true ∨
        (v.isRoot id = false ∧ ∀ ancestor ∈ ancestors, v.admits ancestor id = false) := by
  cases hadmits : v.admits parent id with
  | true => simp [closes, hadmits]
  | false => simp [closes, hadmits]

theorem admits_of_closes
    {parent : Nat}
    {ancestors : List Nat}
    {id : Nat}
    (h : v.closes (parent :: ancestors) id = true) :
    v.admits parent id = false := by
  simp only [closes, Bool.and_eq_true, Bool.not_eq_true'] at h
  exact h.1

/-- A heading that closes a container closes the one around it too, unless it may stand
there. -/
theorem closes_of_closes_cons
    {parent ancestor : Nat}
    {further : List Nat}
    {id : Nat}
    (h : v.closes (parent :: ancestor :: further) id = true)
    (hadmits : v.admits ancestor id = false) :
    v.closes (ancestor :: further) id = true := by
  simp only [closes, List.any_cons, hadmits, Bool.false_or, Bool.and_eq_true,
    Bool.not_false, Bool.true_and] at h ⊢
  exact h.2

end Vocabulary

/-- Every element with the containers around it, innermost first; those in `above` are
around them all. -/
def Forest.nodes : Forest → (above : List Frame) → List (List Frame × Element)
  | nil, _ => []
  | leaf frame content rest, above => (above, .leaf frame content) :: rest.nodes above
  | master frame children rest, above =>
      (above, .master frame children) :: (children.nodes (frame :: above) ++ rest.nodes above)

theorem Forest.nodes_cons (element : Element) (rest : Forest) (above : List Frame) :
    (cons element rest).nodes above =
      (above, element) ::
        (element.children.nodes (element.frame :: above) ++ rest.nodes above) := by
  cases element <;> rfl

/-- Where the innermost container of declared size ends, or else the stream. -/
def Frame.limit : (above : List Frame) → (length : Nat) → Nat
  | [], length => length
  | frame :: above, length =>
      if frame.declared = .unknown then limit above length else frame.data.stop

/-- An element with that ID cannot stay in the container, which is of unknown size. -/
def Frame.passesOn (v : Vocabulary) (id : Nat) (frame : Frame) : Bool :=
  frame.declared == .unknown && !v.admits frame.id id

/-- A container of unknown size inside others ends before a heading that closes it. -/
structure EndsBefore (c : Contents) (v : Vocabulary) (above : List Frame) (frame : Frame)
    (heading : Heading) : Prop where
  before : frame.data.stop < Frame.limit above c.length
  reads : c.headingAt (Frame.limit above c.length) frame.data.stop = .ok heading
  closes : v.closes (frame.id :: above.map Frame.id) heading.id = true

/-- The element with that heading, behind the container, stands in the innermost
container that does not pass it on, or at the top level. -/
def Placed (v : Vocabulary) (nodes : List (List Frame × Element)) (above : List Frame)
    (frame : Frame) (heading : Heading) : Prop :=
  ∃ next : Element, next.frame.heading.start = frame.data.stop ∧ next.id = heading.id ∧
    (above.dropWhile (Frame.passesOn v heading.id), next) ∈ nodes

/-- The element with that heading is still to come where reading stopped, and of the
containers around it only those in `outer` may hold it. -/
def LeftTo (v : Vocabulary) (outer : List Frame) (stop : Nat) (above : List Frame)
    (frame : Frame) (heading : Heading) : Prop :=
  frame.data.stop = stop ∧
    ∃ inner, above = inner ++ outer ∧
      ∀ passed ∈ inner, passed.passesOn v heading.id = true

/-- The zone is the one inside the innermost of the containers. -/
structure Zone.Inside (zone : Zone) (above : List Frame) (length : Nat) : Prop where
  path : zone.path = above.map Frame.id
  isOpen : zone.isOpen = (above.head?.map Frame.declared == some .unknown)
  stop : zone.stop = Frame.limit above length

theorem Forest.subset_nodes_cons (element : Element) (rest : Forest) (above : List Frame) :
    rest.nodes above ⊆ (cons element rest).nodes above := by
  rw [nodes_cons]
  exact List.subset_cons_of_subset _ (List.subset_append_right _ _)

/-- A leaf is no container. -/
theorem Forest.mem_nodes_leaf
    {leafFrame frame : Frame}
    {content : Content}
    {children rest : Forest}
    {above outer : List Frame} :
    (above, .master frame children) ∈ (cons (.leaf leafFrame content) rest).nodes outer ↔
      (above, .master frame children) ∈ rest.nodes outer := by
  simp [cons, nodes]

/-- The containers of a stretch that opens with one: it is there with what is in it when
its contents are kept, and the others come behind it. -/
theorem Forest.mem_nodes_contained
    {opened frame : Frame}
    {kept : Bool}
    {contents : Stretch}
    {children rest : Forest}
    {above outer : List Frame} :
    (above, .master frame children) ∈ (cons (opened.contained kept contents) rest).nodes outer ↔
      (kept = true ∧
        ((above = outer ∧ frame = opened.closedAt contents.stop ∧ children = contents.elements) ∨
          (above, .master frame children) ∈
            contents.elements.nodes (opened.closedAt contents.stop :: outer))) ∨
        (above, .master frame children) ∈ rest.nodes outer := by
  cases kept with
  | true => simp [Frame.contained, cons, nodes, or_assoc]
  | false => simp [Frame.contained, cons, nodes]

theorem Forest.nodes_subset_contained
    {opened : Frame}
    {contents : Stretch}
    {rest : Forest}
    {outer : List Frame} :
    contents.elements.nodes (opened.closedAt contents.stop :: outer) ⊆
      (cons (opened.contained true contents) rest).nodes outer := by
  rw [nodes_cons]
  exact List.subset_cons_of_subset _ (List.subset_append_left _ _)

theorem Placed.mono
    {v : Vocabulary}
    {nodes nodes' : List (List Frame × Element)}
    {above : List Frame}
    {frame : Frame}
    {heading : Heading}
    (h : Placed v nodes above frame heading)
    (hsub : nodes ⊆ nodes') :
    Placed v nodes' above frame heading := by
  obtain ⟨next, hstart, hid, hmem⟩ := h
  exact ⟨next, hstart, hid, hsub hmem⟩

namespace Frame

variable {v : Vocabulary} {id length : Nat} {inner above : List Frame}

/-- Containers that pass an element on do not limit it. -/
theorem limit_append (h : ∀ frame ∈ inner, frame.passesOn v id = true) :
    limit (inner ++ above) length = limit above length := by
  induction inner with
  | nil => rfl
  | cons frame inner ih =>
      have hframe := h frame List.mem_cons_self
      simp only [passesOn, Bool.and_eq_true, beq_iff_eq] at hframe
      rw [List.cons_append, limit, if_pos hframe.1]
      exact ih fun frame hmem => h frame (List.mem_cons_of_mem _ hmem)

end Frame

section Stretches

variable {c : Contents} {v : Vocabulary} {s : Settings} {zone : Zone} {pos : Nat}
  {heading : Heading}

/-- An open zone inside another ends there at the latest. -/
theorem Opens.unknown_stop
    (h : Opens c v zone pos heading)
    (hunknown : (zone.frameAt pos heading).declared = .unknown) :
    (zone.frameAt pos heading).data.stop = zone.stop := by
  obtain ⟨_, hinside⟩ := h.bounds
  rw [Zone.frameAt_declared] at hunknown
  rw [Span.stop, (Zone.frameAt_of_unknown hunknown).1, Zone.frameAt_data_start]
  omega

theorem Zone.Inside.inside
    {above : List Frame}
    {length : Nat}
    (hzone : zone.Inside above length)
    (h : Opens c v zone pos heading)
    (stop : Nat) :
    (zone.inside (zone.frameAt pos heading)).Inside
      ((zone.frameAt pos heading).closedAt stop :: above) length where
  path := by
    rw [Zone.inside_path, List.map_cons, Frame.closedAt_id, hzone.path]
  isOpen := by
    simp only [Zone.inside_isOpen, List.head?_cons, Option.map_some, Frame.closedAt_declared]
    cases (zone.frameAt pos heading).declared <;> simp
  stop := by
    rw [Zone.inside_stop, Frame.limit, Frame.closedAt_declared]
    cases hdeclared : (zone.frameAt pos heading).declared with
    | known declared =>
        rw [if_neg (by simp), Frame.closedAt_of_known _ hdeclared]
    | unknown =>
        rw [if_pos rfl, h.unknown_stop hdeclared, hzone.stop]

variable {seen : Bool} {r : Stretch}

/-- The elements of an open zone do not close it. -/
theorem Reads.stays
    (h : Reads c v s zone pos seen r)
    (hopen : zone.isOpen = true) :
    ∀ element ∈ r.elements.toList, v.closes zone.path element.id = false := by
  induction h with
  | ended hend => simp [Forest.toList]
  | closed hinside hreads _ hcloses => simp [Forest.toList]
  | unreadable hinside hreads hdeclared hlenient => simp [hopen] at hdeclared
  | @leaf zone pos seen heading element rest hopens hsettles hrest ih =>
      have hstays := hopens.stays
      rw [hopen, Bool.true_and] at hstays
      intro other hother
      rw [Forest.toList_cons, List.mem_cons] at hother
      rcases hother with rfl | hother
      · rw [Element.id, hsettles.keeps.1, Zone.frameAt_id]
        exact hstays
      · exact ih hopen other hother
  | @entered zone pos seen kept heading frame contents rest hopens hframe happroach hentry
      hcontents hrest _ ih =>
      have hstays := hopens.stays
      rw [hopen, Bool.true_and] at hstays
      intro other hother
      rw [Forest.toList_cons, List.mem_cons] at hother
      rcases hother with rfl | hother
      · rw [Element.id, Frame.contained_frame, Frame.closedAt_id, hframe, Zone.frameAt_id]
        exact hstays
      · exact ih hopen other hother

/-- A heading at which reading goes on either closes the zone, or does not and opens the
first element of what is read. -/
theorem Reads.first
    (h : Reads c v s zone pos seen r)
    (hreads : c.headingAt zone.stop pos = .ok heading) :
    r.stop = pos ∨
      ((zone.isOpen && v.closes zone.path heading.id) = false ∧
        ∃ next rest, r.elements = .cons next rest ∧
          next.frame.heading.start = pos ∧ next.id = heading.id) := by
  cases h with
  | ended hend => exact Or.inl rfl
  | closed _ _ _ _ => exact Or.inl rfl
  | unreadable _ hunreadable _ _ =>
      rw [hreads] at hunreadable
      simp at hunreadable
  | @leaf _ _ _ found element rest hopens hsettles hrest =>
      obtain rfl : heading = found := by
        simpa only [hreads, Except.ok.injEq] using hopens.reads
      obtain ⟨hid, hheading, _, _⟩ := hsettles.keeps
      refine Or.inr ⟨hopens.stays, element, rest.elements, rfl, ?_, ?_⟩
      · rw [hheading, Zone.frameAt_heading]
      · rw [Element.id, hid, Zone.frameAt_id]
  | @entered _ _ _ kept found frame contents rest hopens hframe _ _ _ _ =>
      obtain rfl : heading = found := by
        simpa only [hreads, Except.ok.injEq] using hopens.reads
      refine Or.inr ⟨hopens.stays, frame.contained kept contents, rest.elements, rfl, ?_, ?_⟩
      · rw [Frame.contained_frame, Frame.closedAt_heading, hframe, Zone.frameAt_heading]
      · rw [Element.id, Frame.contained_frame, Frame.closedAt_id, hframe, Zone.frameAt_id]

/-- The heading that closes a container is the next one of its zone, which then keeps
it, or it closes the zone as well. -/
theorem Reads.handover
    {outer above : List Frame}
    {closed frame : Frame}
    {rest : Stretch}
    (h : Reads c v s zone closed.data.stop seen rest)
    (hzone : zone.Inside outer c.length)
    (hends : EndsBefore c v outer closed heading)
    (hleft : LeftTo v outer closed.data.stop above frame heading) :
    Placed v (rest.elements.nodes outer) above frame heading ∨
      LeftTo v outer rest.stop above frame heading := by
  obtain ⟨hstop, inner, habove, hpass⟩ := hleft
  have hreads := hends.reads
  rw [← hzone.stop] at hreads
  rcases h.first hreads with hclosed | ⟨hstays, next, others, helements, hstart, hid⟩
  · exact Or.inr ⟨hstop.trans hclosed.symm, inner, habove, hpass⟩
  · have hkeeps : outer.dropWhile (Frame.passesOn v heading.id) = outer := by
      cases outer with
      | nil => rfl
      | cons around outer =>
          refine List.dropWhile_cons_of_neg ?_
          intro hpasses
          simp only [Frame.passesOn, Bool.and_eq_true, beq_iff_eq, Bool.not_eq_true'] at hpasses
          have hopen : zone.isOpen = true := by
            rw [hzone.isOpen]
            simp [hpasses.1]
          have hcloses := v.closes_of_closes_cons hends.closes hpasses.2
          rw [hopen, hzone.path, List.map_cons, hcloses] at hstays
          simp at hstays
    refine Or.inl ⟨next, hstart.trans hstop.symm, hid, ?_⟩
    rw [habove, List.dropWhile_append_of_pos hpass, hkeeps, helements, Forest.nodes_cons]
    exact List.mem_cons_self

/-- A container of unknown size that was read reaches to the limit around it, or ends
before a heading that closes it. -/
theorem Opens.ends
    {above : List Frame}
    {contents : Stretch}
    (h : Opens c v zone pos heading)
    (hzone : zone.Inside above c.length)
    (hcontents :
      Reads c v s (zone.inside (zone.frameAt pos heading))
        (zone.frameAt pos heading).data.start seen contents)
    (hunknown : (zone.frameAt pos heading).declared = .unknown) :
    ((zone.frameAt pos heading).closedAt contents.stop).data.stop =
        Frame.limit above c.length ∨
      ∃ next, EndsBefore c v above ((zone.frameAt pos heading).closedAt contents.stop) next := by
  obtain ⟨_, hdata, _⟩ := h.data_bounds
  rw [h.closed_stop hcontents, ← hzone.stop, ← h.unknown_stop hunknown]
  rcases hcontents.stop_cases hdata with hstop | ⟨hbefore, _, next, hreads, hcloses⟩
  · exact Or.inl hstop
  · rw [Zone.inside_stop, h.unknown_stop hunknown, hzone.stop] at hbefore hreads
    refine Or.inr ⟨next, ?_, ?_, ?_⟩
    · rw [h.closed_stop hcontents]
      exact hbefore
    · rw [h.closed_stop hcontents]
      exact hreads
    · rw [Frame.closedAt_id, ← hzone.path]
      exact hcloses

/-- Every container in the elements of a stretch was read as a zone inside another. -/
theorem Reads.container
    (h : Reads c v s zone pos seen r)
    {outer above : List Frame}
    {frame : Frame}
    {children : Forest}
    (hzone : zone.Inside outer c.length)
    (hmem : (above, .master frame children) ∈ r.elements.nodes outer) :
    ∃ around start heading seen contents,
      Opens c v around start heading ∧ around.Inside above c.length ∧
        Reads c v s (around.inside (around.frameAt start heading))
          (around.frameAt start heading).data.start seen contents ∧
        frame = (around.frameAt start heading).closedAt contents.stop ∧
        children = contents.elements := by
  induction h generalizing outer with
  | ended hend => simp [Forest.nodes] at hmem
  | closed hinside hreads hopen hcloses => simp [Forest.nodes] at hmem
  | unreadable hinside hreads hdeclared hlenient =>
      simp [Forest.nodes, Forest.cons, Element.placeholder] at hmem
  | @leaf zone pos seen heading element rest hopens hsettles hrest ih =>
      obtain ⟨leafFrame, content, rfl⟩ := hsettles.exists_leaf
      exact ih hzone (Forest.mem_nodes_leaf.mp hmem)
  | @entered zone pos seen kept heading opened contents rest hopens hframe happroach hentry
      hcontents hrest ihContents ihRest =>
      subst hframe
      rcases Forest.mem_nodes_contained.mp hmem with ⟨_, hself | hinner⟩ | hlater
      · obtain ⟨rfl, rfl, rfl⟩ := hself
        exact ⟨zone, pos, heading, _, contents, hopens, hzone, hcontents, rfl, rfl⟩
      · exact ihContents (hzone.inside hopens contents.stop) hinner
      · exact ihRest hzone hlater

/-- A heading that ends a container and is left to the containers around an open one
ends that one as well. -/
theorem LeftTo.step
    {outer above : List Frame}
    {frame : Frame}
    {heading next : Heading}
    {contents : Stretch}
    (h : LeftTo v ((zone.frameAt pos heading).closedAt contents.stop :: outer) contents.stop
      above frame next)
    (hopens : Opens c v zone pos heading)
    (hzone : zone.Inside outer c.length)
    (hcontents :
      Reads c v s (zone.inside (zone.frameAt pos heading))
        (zone.frameAt pos heading).data.start seen contents)
    (hends : EndsBefore c v above frame next) :
    EndsBefore c v outer ((zone.frameAt pos heading).closedAt contents.stop) next ∧
      LeftTo v outer ((zone.frameAt pos heading).closedAt contents.stop).data.stop above frame
        next := by
  obtain ⟨hstop, inner, rfl, hpass⟩ := h
  have hbefore := hends.before
  have hreads := hends.reads
  rw [Frame.limit_append hpass, Frame.limit, Frame.closedAt_declared, hstop] at hbefore hreads
  cases hdeclared : (zone.frameAt pos heading).declared with
  | known declared =>
      -- What ends inside a declared container ends before that one does.
      rw [hdeclared, if_neg (by simp), hopens.closed_stop hcontents] at hbefore
      omega
  | unknown =>
      rw [hdeclared, if_pos rfl] at hbefore hreads
      have hclosed := hopens.closed_stop hcontents
      rcases hopens.ends hzone hcontents hdeclared with hlimit | ⟨found, hfound⟩
      · omega
      · have hsame := hfound.reads
        rw [hclosed, hreads, Except.ok.injEq] at hsame
        subst hsame
        have hpasses :
            ((zone.frameAt pos heading).closedAt contents.stop).passesOn v next.id = true := by
          rw [Frame.passesOn, Frame.closedAt_declared, hdeclared,
            v.admits_of_closes hfound.closes]
          rfl
        refine ⟨hfound, hstop.trans hclosed.symm, inner ++ [_], (List.append_cons ..), ?_⟩
        intro passed hmem
        rcases List.mem_append.mp hmem with hinner | hlast
        · exact hpass passed hinner
        · rw [List.mem_singleton.mp hlast]
          exact hpasses

/-- The element behind a container of unknown size is placed with the stretch that the
container belongs to, or reading stops in front of it. -/
theorem Reads.placement
    (h : Reads c v s zone pos seen r)
    {outer above : List Frame}
    {frame : Frame}
    {children : Forest}
    {next : Heading}
    (hzone : zone.Inside outer c.length)
    (hmem : (above, .master frame children) ∈ r.elements.nodes outer)
    (hends : EndsBefore c v above frame next) :
    Placed v (r.elements.nodes outer) above frame next ∨
      LeftTo v outer r.stop above frame next := by
  induction h generalizing outer with
  | ended hend => simp [Forest.nodes] at hmem
  | closed hinside hreads hopen hcloses => simp [Forest.nodes] at hmem
  | unreadable hinside hreads hdeclared hlenient =>
      simp [Forest.nodes, Forest.cons, Element.placeholder] at hmem
  | @leaf zone pos seen heading element rest hopens hsettles hrest ih =>
      have hbehind := Forest.subset_nodes_cons element rest.elements outer
      obtain ⟨leafFrame, content, rfl⟩ := hsettles.exists_leaf
      have hplacement := ih hzone (Forest.mem_nodes_leaf.mp hmem)
      exact hplacement.imp_left fun hplaced => hplaced.mono hbehind
  | @entered zone pos seen kept heading opened contents rest hopens hframe happroach hentry
      hcontents hrest ihContents ihRest =>
      subst hframe
      have hbehind := Forest.subset_nodes_cons
        ((zone.frameAt pos heading).contained kept contents) rest.elements outer
      rcases Forest.mem_nodes_contained.mp hmem with ⟨rfl, hself | hinner⟩ | hlater
      · obtain ⟨rfl, rfl, rfl⟩ := hself
        have hleft : LeftTo v above
            ((zone.frameAt pos heading).closedAt contents.stop).data.stop above
            ((zone.frameAt pos heading).closedAt contents.stop) next :=
          ⟨rfl, [], rfl, by simp⟩
        have hplacement := hrest.handover hzone hends hleft
        exact hplacement.imp_left fun hplaced => hplaced.mono hbehind
      · -- Left to the containers around `opened`, the element ends `opened` too.
        rcases ihContents (hzone.inside hopens contents.stop) hinner with hplaced | hleft
        · exact Or.inl (hplaced.mono Forest.nodes_subset_contained)
        · obtain ⟨hclosed, hleft⟩ := hleft.step hopens hzone hcontents hends
          have hplacement := hrest.handover hzone hclosed hleft
          exact hplacement.imp_left fun hplaced => hplaced.mono hbehind
      · have hplacement := ihRest hzone hlater
        exact hplacement.imp_left fun hplaced => hplaced.mono hbehind

end Stretches

namespace Buffered

/-- What stands in a container of unknown size may stand there or has no place further
out, and the container ends at the limit around it or before an element that closes it,
which is then placed in the innermost container that does not pass it on. -/
theorem scan_boundary
    {b : Buffered}
    {v : Vocabulary}
    {s : Settings}
    {forest : Forest}
    (hb : b.Exact)
    (h : (b.scan v s).1 = .ok forest)
    {above : List Frame}
    {frame : Frame}
    {children : Forest}
    (hmem : (above, .master frame children) ∈ forest.nodes [])
    (hunknown : frame.declared = .unknown) :
    (∀ child ∈ children.toList,
        v.closes (frame.id :: above.map Frame.id) child.id = false ∧
          (v.admits frame.id child.id = true ∨ v.lookup child.id = none ∨
            ((v.lookup child.id).isSome ∧ v.isRoot child.id = false ∧
              ∀ ancestor ∈ above, v.admits ancestor.id child.id = false))) ∧
      (frame.data.stop = Frame.limit above b.length ∨
        ∃ heading, EndsBefore b.device.toContents v above frame heading ∧
          Placed v (forest.nodes []) above frame heading) := by
  obtain ⟨r, hreads, rfl⟩ := Contents.scan_eq_ok_iff.mp (hb.scan_eq h)
  have hzone : (Zone.mk [] false b.length).Inside [] b.length := ⟨rfl, rfl, rfl⟩
  obtain ⟨around, start, heading, seen, contents, hopens, haround, hcontents, hframe, rfl⟩ :=
    hreads.container hzone hmem
  have hsize : (around.frameAt start heading).declared = .unknown := by
    rw [hframe, Frame.closedAt_declared] at hunknown
    exact hunknown
  constructor
  · intro child hchild
    have hstays := hcontents.stays (by rw [Zone.inside_isOpen, hsize]; rfl) child hchild
    rw [Zone.inside_path, haround.path, ← Frame.closedAt_id _ contents.stop, ← hframe] at hstays
    refine ⟨hstays, ?_⟩
    rcases v.closes_cons_eq_false_iff.mp hstays with hadmits | ⟨hroot, hothers⟩
    · exact Or.inl hadmits
    · cases hlookup : v.lookup child.id with
      | none => exact Or.inr (Or.inl rfl)
      | some definition => exact Or.inr (Or.inr ⟨rfl, hroot, by simpa using hothers⟩)
  · have hends := hopens.ends haround hcontents hsize
    rw [← hframe] at hends
    rcases hends with hlimit | ⟨next, hnext⟩
    · exact Or.inl hlimit
    · refine Or.inr ⟨next, hnext, ?_⟩
      rcases hreads.placement hzone hmem hnext with hplaced | ⟨hstop, inner, rfl, hpass⟩
      · exact hplaced
      · have hbefore := hnext.before
        rw [Frame.limit_append hpass, hstop] at hbefore
        rcases hreads.stop_cases (Nat.zero_le _) with hend | ⟨_, hopen, _⟩
        · rw [hend] at hbefore
          exact absurd hbefore (Nat.lt_irrefl _)
        · simp at hopen

/-- A group in a cluster in a segment, all of unknown size: the cues end both the group
and the cluster, and stand in the segment. -/
theorem scan_boundary_cues :
    let b := ofBytes
      [0x18, 0x53, 0x80, 0x67, 0xFF, 0x1F, 0x43, 0xB6, 0x75, 0xFF, 0xA0, 0xFF,
        0x9B, 0x81, 0x05, 0x1C, 0x53, 0xBB, 0x6B, 0x80]
    let segment : Frame := ⟨0x18538067, ⟨0, 5⟩, .unknown, ⟨5, 15⟩, none⟩
    let cluster : Frame := ⟨0x1F43B675, ⟨5, 5⟩, .unknown, ⟨10, 5⟩, none⟩
    let group : Frame := ⟨0xA0, ⟨10, 2⟩, .unknown, ⟨12, 3⟩, none⟩
    let duration : Forest :=
      .leaf ⟨0x9B, ⟨12, 2⟩, .known 1, ⟨14, 1⟩, none⟩ (.value (.unsigned 5)) .nil
    let cues : Forest := .master ⟨0x1C53BB6B, ⟨15, 5⟩, .known 0, ⟨20, 0⟩, none⟩ .nil .nil
    let forest : Forest := .master segment (.master cluster (.master group duration .nil) cues) .nil
    b.Exact ∧ (b.scan Matroska.vocabulary {}).1 = .ok forest ∧
      ([cluster, segment], .master group duration) ∈ forest.nodes [] ∧
      [cluster, segment].dropWhile (Frame.passesOn Matroska.vocabulary 0x1C53BB6B) = [segment] ∧
      ∃ heading, EndsBefore b.device.toContents Matroska.vocabulary [cluster, segment] group
          heading ∧
        Placed Matroska.vocabulary (forest.nodes []) [cluster, segment] group heading := by
  intro b segment cluster group duration cues forest
  have hexact : b.Exact := (ofBytes_faithful _).exact
  have hscan : (b.scan Matroska.vocabulary {}).1 = .ok forest := by decide +kernel
  have hmem : ([cluster, segment], Element.master group duration) ∈ forest.nodes [] := by
    decide +kernel
  refine ⟨hexact, hscan, hmem, by decide +kernel, ?_⟩
  rcases (scan_boundary hexact hscan hmem rfl).2 with hlimit | hends
  · exact absurd hlimit (by decide +kernel)
  · exact hends

end Buffered

end EbmlReport
