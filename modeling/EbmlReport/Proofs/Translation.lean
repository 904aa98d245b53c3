import EbmlReport.Proofs.Failing

/-!
# Elements further on in a file

Nothing that a scan does depends on where in the file it does it.  When the same bytes
stand further on, the same elements are read there, with all offsets moved, and the same
defects are found.

Each part of the scan is moved on its own: the headings, the frames, the decisions about an
element and the payload of a leaf.  The laws for a zone are then inductions on how it was
read, or on how it failed.

**Results.**
* `Zone.frameAt_shift`, `approach_shift`, `entry_shift`, `leaf_shift`: the parts of a scan.
* `Reads.shift`: a zone is read the same further on.
* `Fails.shift`: and it fails the same.
-/

namespace EbmlReport

/-- The run of bytes that lies `d` further on. -/
def Span.shift (d : Nat) (span : Span) : Span :=
  { span with start := d + span.start }

/-- The frame of an element that lies `d` further on. -/
def Frame.shift (d : Nat) (frame : Frame) : Frame :=
  { frame with heading := frame.heading.shift d, data := frame.data.shift d }

/-- The forest of elements that lie `d` further on. -/
def Forest.shift (d : Nat) : Forest → Forest
  | nil => nil
  | leaf frame content rest => leaf (frame.shift d) content (rest.shift d)
  | master frame children rest => master (frame.shift d) (children.shift d) (rest.shift d)

/-- The element that lies `d` further on, with all that is below it. -/
def Element.shift (d : Nat) : Element → Element
  | leaf frame content => leaf (frame.shift d) content
  | master frame children => master (frame.shift d) (children.shift d)

/-- The failure with a defect that is found `d` further on. -/
def Failure.shift (d : Nat) : Failure → Failure
  | format offset reason => format (d + offset) reason
  | stream cause => stream cause
  | cancelled => cancelled

/-- The stretch that lies `d` further on. -/
def Stretch.shift (d : Nat) (r : Stretch) : Stretch :=
  ⟨r.elements.shift d, d + r.stop, r.seen⟩

/-- The zone that lies `d` further on. -/
def Zone.shift (d : Nat) (zone : Zone) : Zone :=
  { zone with stop := d + zone.stop }

/-- The decision about an element that lies `d` further on. -/
def Decision.shift {α : Type} (d : Nat) : Decision α → Decision α
  | fails offset reason => fails (d + offset) reason
  | settles content => settles content
  | goesOn how => goesOn how

/-- The bytes of `c` stand in `c'` from offset `d` on. -/
structure Contents.HoldsAt (c' c : Contents) (d : Nat) : Prop where
  length : d + c.length ≤ c'.length
  bytes : ∀ i, i < c.length → c'.byteAt (d + i) = c.byteAt i

section Parts

variable {d : Nat} {frame : Frame} {zone : Zone} {pos stop : Nat} {heading : Heading}

@[simp] theorem Span.shift_start (span : Span) : (span.shift d).start = d + span.start := rfl

@[simp] theorem Span.shift_length (span : Span) : (span.shift d).length = span.length := rfl

@[simp] theorem Span.shift_stop (span : Span) : (span.shift d).stop = d + span.stop :=
  Nat.add_assoc ..

@[simp] theorem Frame.shift_id : (frame.shift d).id = frame.id := rfl

@[simp] theorem Frame.shift_heading : (frame.shift d).heading = frame.heading.shift d := rfl

@[simp] theorem Frame.shift_declared : (frame.shift d).declared = frame.declared := rfl

@[simp] theorem Frame.shift_data : (frame.shift d).data = frame.data.shift d := rfl

@[simp] theorem Frame.shift_error : (frame.shift d).error = frame.error := rfl

@[simp] theorem Zone.shift_path : (zone.shift d).path = zone.path := rfl

@[simp] theorem Zone.shift_isOpen : (zone.shift d).isOpen = zone.isOpen := rfl

@[simp] theorem Zone.shift_stop : (zone.shift d).stop = d + zone.stop := rfl

@[simp] theorem Zone.shift_carries (seen : Bool) :
    (zone.shift d).carries seen = zone.carries seen := rfl

@[simp] theorem Element.shift_frame (e : Element) : (e.shift d).frame = e.frame.shift d := by
  cases e <;> rfl

@[simp] theorem Element.shift_stop (e : Element) : (e.shift d).stop = d + e.stop := by
  simp [Element.stop]

@[simp] theorem Forest.shift_cons (e : Element) (rest : Forest) :
    (cons e rest).shift d = cons (e.shift d) (rest.shift d) := by
  cases e <;> rfl

theorem Frame.closedAt_shift :
    (frame.shift d).closedAt (d + stop) = (frame.closedAt stop).shift d := by
  unfold closedAt
  rw [shift_declared]
  split
  · simp only [shift, Span.shift, Nat.add_sub_add_left]
  · rfl

theorem Frame.contained_shift (kept : Bool) (contents : Stretch) :
    (frame.shift d).contained kept (contents.shift d) =
      (frame.contained kept contents).shift d := by
  cases kept with
  | true => simp [contained, Stretch.shift, closedAt_shift, Element.shift]
  | false => simp [contained, Stretch.shift, closedAt_shift, Element.shift]

namespace Zone

theorem frameAt_shift :
    (zone.shift d).frameAt (d + pos) heading = (zone.frameAt pos heading).shift d := by
  have hstart : d + pos + heading.length = d + (pos + heading.length) := Nat.add_assoc ..
  unfold frameAt
  dsimp only
  rw [shift_stop, hstart, Nat.add_sub_add_left]
  cases heading.size with
  | unknown => rfl
  | known length =>
      dsimp only
      split <;> rfl

theorem inside_shift : (zone.shift d).inside (frame.shift d) = (zone.inside frame).shift d := by
  simp [inside, shift]

end Zone

end Parts

section Scans

variable {c c' : Contents} {v : Vocabulary} {s : Settings} {d : Nat} {frame : Frame}
  {zone : Zone} {pos stop : Nat} {heading : Heading} {seen after : Bool} {element : Element}
  {r : Stretch} {offset length : Nat} {reason : Defect}

theorem Contents.HoldsAt.slice_shift
    (h : c'.HoldsAt c d)
    (hinside : offset + length ≤ c.length) :
    c'.slice (d + offset) length = c.slice offset length := by
  unfold slice
  rw [← List.map_add_range', List.map_map]
  refine List.map_congr_left ?_
  intro i hi
  rw [List.mem_range'_1] at hi
  exact h.bytes i (by omega)

theorem Contents.HoldsAt.headingAt_shift
    (h : c'.HoldsAt c d)
    (hstop : stop ≤ c.length) :
    c'.headingAt (d + stop) (d + pos) = c.headingAt stop pos := by
  unfold headingAt
  rw [Nat.add_sub_add_left]
  by_cases hpos : pos ≤ stop
  · rw [h.slice_shift (by omega)]
  · rw [Nat.sub_eq_zero_of_le (Nat.le_of_not_le hpos), Nat.min_zero]
    rfl

theorem Contents.HoldsAt.payload_shift
    (h : c'.HoldsAt c d)
    (hinside : frame.data.stop ≤ c.length) :
    c'.payload v (frame.shift d) = c.payload v frame := by
  rw [Span.stop] at hinside
  unfold payload
  simp only [Frame.shift_id, Frame.shift_data, Span.shift_start, Span.shift_length]
  rw [h.slice_shift hinside, h.slice_shift (by omega)]

theorem settle_shift {α : Type} :
    (Scan.settle s (d + offset) reason : Decision α) = (Scan.settle s offset reason).shift d := by
  unfold Scan.settle
  split <;> rfl

theorem giveUp_shift {α : Type} :
    (Scan.giveUp s (zone.shift d) (d + offset) reason : Decision α) =
      (Scan.giveUp s zone offset reason).shift d := by
  unfold Scan.giveUp
  rw [Zone.shift_isOpen]
  split
  · rfl
  · exact settle_shift

theorem approach_shift :
    Scan.approach v s (zone.shift d) (frame.shift d) = (Scan.approach v s zone frame).shift d := by
  unfold Scan.approach
  simp only [Frame.shift_error, Frame.shift_id, Frame.shift_declared, Frame.shift_heading,
    Span.shift_start, giveUp_shift]
  split
  · rfl
  · split
    · rfl
    · split <;> rfl

theorem entry_shift :
    Scan.entry v s (zone.shift d) (frame.shift d) seen =
      (Scan.entry v s zone frame seen).shift d := by
  have hdepth : (zone.shift d).depth = zone.depth := rfl
  rw [Scan.entry, Scan.entry, hdepth, Frame.shift_id, Frame.shift_declared,
    Frame.shift_heading, Span.shift_start, giveUp_shift, settle_shift]
  split
  · split <;> rfl
  · split
    · split <;> rfl
    · rfl

/-- A leaf is the same further on, or has the same defect. -/
theorem leaf_shift
    (h : c'.HoldsAt c d)
    (hinside : frame.data.stop ≤ c.length) :
    (Scan.leaf v s (frame.shift d) .done).answer c' =
      (((Scan.leaf v s frame .done).answer c).map (Element.shift d)).mapError
        (Failure.shift d) := by
  cases herror : frame.error with
  | some reason =>
      simp only [Scan.leaf, Frame.shift_error, herror, Inquiry.answer]
      rfl
  | none =>
      have hinside' : (frame.shift d).data.stop ≤ c'.length := by
        have hlength := h.length
        rw [Frame.shift_data, Span.shift_stop]
        omega
      have herror' : (frame.shift d).error = none := herror
      rw [answer_leaf herror hinside, answer_leaf herror' hinside', h.payload_shift hinside]
      cases c.payload v frame with
      | ok value => rfl
      | error reason =>
          simp only [Scan.finishLeaf]
          split <;> rfl

theorem Settles.shift
    (h : Settles c v s zone frame seen element)
    (hc : c'.HoldsAt c d)
    (hinside : frame.data.stop ≤ c.length) :
    Settles c' v s (zone.shift d) (frame.shift d) seen (element.shift d) := by
  cases h with
  | givenUp happroach => exact .givenUp (by rw [approach_shift, happroach]; rfl)
  | leaf happroach hleaf =>
      refine .leaf (by rw [approach_shift, happroach]; rfl) ?_
      rw [leaf_shift hc hinside, hleaf]
      rfl
  | shut happroach hentry =>
      exact .shut (by rw [approach_shift, happroach]; rfl) (by rw [entry_shift, hentry]; rfl)

theorem Opens.shift
    (h : Opens c v zone pos heading)
    (hc : c'.HoldsAt c d)
    (hzone : zone.stop ≤ c.length) :
    Opens c' v (zone.shift d) (d + pos) heading where
  inside := Nat.add_lt_add_left h.inside d
  reads := (hc.headingAt_shift hzone).trans h.reads
  stays := h.stays

/-- A zone is read the same further on. -/
theorem Reads.shift
    (h : Reads c v s zone pos seen r)
    (hc : c'.HoldsAt c d)
    (hzone : zone.stop ≤ c.length) :
    Reads c' v s (zone.shift d) (d + pos) seen (r.shift d) := by
  induction h with
  | ended hend => exact .ended (Nat.add_le_add_left hend d)
  | closed hinside hreads hopen hcloses =>
      exact .closed (Nat.add_lt_add_left hinside d) ((hc.headingAt_shift hzone).trans hreads)
        hopen hcloses
  | @unreadable zone pos seen reason hinside hreads hdeclared hlenient =>
      have hplaceholder : (Element.placeholder pos (zone.stop - pos) reason).shift d =
          .placeholder (d + pos) ((zone.shift d).stop - (d + pos)) reason := by
        rw [Zone.shift_stop, Nat.add_sub_add_left]
        rfl
      unfold Stretch.shift
      rw [Forest.shift_cons, hplaceholder]
      exact .unreadable (Nat.add_lt_add_left hinside d)
        ((hc.headingAt_shift hzone).trans hreads) hdeclared hlenient
  | @leaf zone pos seen heading element rest hopens hsettles hrest ih =>
      obtain ⟨_, _, hstop⟩ := hopens.data_bounds
      have hsettles' := hsettles.shift hc (Nat.le_trans hstop hzone)
      have hrest' := ih hzone
      rw [← Zone.frameAt_shift] at hsettles'
      rw [← Element.shift_stop] at hrest'
      unfold Stretch.shift
      rw [Forest.shift_cons]
      exact .leaf (hopens.shift hc hzone) hsettles' hrest'
  | @entered zone pos seen kept heading frame contents rest hopens hframe happroach hentry
      hcontents hrest ihContents ihRest =>
      subst hframe
      obtain ⟨_, _, hstop⟩ := hopens.data_bounds
      have hcontents' := ihContents (Nat.le_trans hstop hzone)
      have hrest' := ihRest hzone
      rw [← Zone.inside_shift, ← Span.shift_start, ← Frame.shift_data] at hcontents'
      rw [← Span.shift_stop, ← Frame.shift_data, ← Frame.closedAt_shift] at hrest'
      unfold Stretch.shift
      rw [Forest.shift_cons, ← Frame.contained_shift]
      exact .entered (hopens.shift hc hzone) Zone.frameAt_shift.symm
        (by rw [approach_shift, happroach]; rfl)
        (by rw [Zone.shift_carries, entry_shift, hentry]; rfl) hcontents' hrest'

theorem Yields.shift
    (h : Yields c v s zone pos seen element after)
    (hc : c'.HoldsAt c d)
    (hzone : zone.stop ≤ c.length) :
    Yields c' v s (zone.shift d) (d + pos) seen (element.shift d) after := by
  cases h with
  | settled hopens hsettles =>
      obtain ⟨_, _, hstop⟩ := hopens.data_bounds
      have hsettles' := hsettles.shift hc (Nat.le_trans hstop hzone)
      rw [← Zone.frameAt_shift] at hsettles'
      exact .settled (hopens.shift hc hzone) hsettles'
  | entered hopens hframe happroach hentry hcontents =>
      subst hframe
      obtain ⟨_, _, hstop⟩ := hopens.data_bounds
      have hcontents' := hcontents.shift hc (Nat.le_trans hstop hzone)
      rw [← Zone.inside_shift, ← Span.shift_start, ← Frame.shift_data] at hcontents'
      rw [← Frame.contained_shift]
      exact .entered (hopens.shift hc hzone) Zone.frameAt_shift.symm
        (by rw [approach_shift, happroach]; rfl)
        (by rw [Zone.shift_carries, entry_shift, hentry]; rfl) hcontents'

theorem Spoils.shift
    (h : Spoils c v s zone frame seen offset reason)
    (hc : c'.HoldsAt c d)
    (hinside : frame.data.stop ≤ c.length) :
    Spoils c' v s (zone.shift d) (frame.shift d) seen (d + offset) reason := by
  cases h with
  | refused happroach => exact .refused (by rw [approach_shift, happroach]; rfl)
  | leaf happroach hleaf =>
      refine .leaf (by rw [approach_shift, happroach]; rfl) ?_
      rw [leaf_shift hc hinside, hleaf]
      rfl
  | barred happroach hentry =>
      exact .barred (by rw [approach_shift, happroach]; rfl) (by rw [entry_shift, hentry]; rfl)

/-- A zone fails the same further on. -/
theorem Fails.shift
    (h : Fails c v s zone pos seen offset reason)
    (hc : c'.HoldsAt c d)
    (hzone : zone.stop ≤ c.length) :
    Fails c' v s (zone.shift d) (d + pos) seen (d + offset) reason := by
  induction h with
  | astray hinside hreads hopen =>
      exact .astray (Nat.add_lt_add_left hinside d)
        ((hc.headingAt_shift hzone).trans hreads) hopen
  | unreadable hinside hreads hdeclared hstrict =>
      exact .unreadable (Nat.add_lt_add_left hinside d)
        ((hc.headingAt_shift hzone).trans hreads) hdeclared hstrict
  | spoiled hopens hspoils =>
      obtain ⟨_, _, hstop⟩ := hopens.data_bounds
      have hspoils' := hspoils.shift hc (Nat.le_trans hstop hzone)
      rw [← Zone.frameAt_shift] at hspoils'
      exact .spoiled (hopens.shift hc hzone) hspoils'
  | inside hopens hframe happroach hentry hcontents ih =>
      subst hframe
      obtain ⟨_, _, hstop⟩ := hopens.data_bounds
      have hcontents' := ih (Nat.le_trans hstop hzone)
      rw [← Zone.inside_shift, ← Span.shift_start, ← Frame.shift_data] at hcontents'
      exact .inside (hopens.shift hc hzone) Zone.frameAt_shift.symm
        (by rw [approach_shift, happroach]; rfl)
        (by rw [Zone.shift_carries, entry_shift, hentry]; rfl) hcontents'
  | behind hfirst hrest ih =>
      have hrest' := ih hzone
      rw [← Element.shift_stop] at hrest'
      exact .behind (hfirst.shift hc hzone) hrest'

end Scans

end EbmlReport
