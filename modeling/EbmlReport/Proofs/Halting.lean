import EbmlReport.Matroska.Specification
import EbmlReport.Proofs.Locality
import EbmlReport.Proofs.Strictness
import EbmlReport.Proofs.Stream

/-!
# Where a lenient scan comes to nothing

A lenient scan records a defect wherever the end of the zone around it is declared, since
the rest of that zone can be given up.  So there is little that can still fail it: it has
come to stand inside a container of unknown size, and what follows there either has no
heading that could be read or is of unknown size itself, and is not a container or stands
too deep.

Where a scan comes to stand is told by `Reaches`, which keeps the containers around the
place: it goes behind an element that was read, or into a container.  A zone that fails
does so at a place that the scan reaches, and conversely.

**Results.**
* `Reaches.fails`: what fails at a place that is reached fails the scan.
* `Fails.halts`: a lenient scan fails where it halts inside an open container.
* `Reaches.encloses`: the containers around a place stand in the stream, in front of it.
* `Buffered.scan_fails_iff_halts`: the law for a scan.
-/

namespace EbmlReport

/-- The zone inside the innermost of the containers, in a stream of the given length. -/
def Zone.around (length : Nat) : (above : List Frame) → Zone
  | [] => ⟨[], false, length⟩
  | frame :: above => (around length above).inside frame

/-- The scan comes to stand at `pos`, inside the given containers, innermost first; the flag
tells whether a skippable container has been opened by then. -/
inductive Reaches (c : Contents) (v : Vocabulary) (s : Settings) :
    (above : List Frame) → (pos : Nat) → (seen : Bool) → Prop
  | start : Reaches c v s [] 0 false
  | behind
      {above : List Frame} {pos : Nat} {seen after : Bool} {element : Element}
      (hbefore : Reaches c v s above pos seen)
      (hfirst : Yields c v s (.around c.length above) pos seen element after) :
      Reaches c v s above element.stop after
  | inside
      {above : List Frame} {pos : Nat} {seen kept : Bool} {heading : Heading} {frame : Frame}
      (hbefore : Reaches c v s above pos seen)
      (hopens : Opens c v (.around c.length above) pos heading)
      (hframe : frame = (Zone.around c.length above).frameAt pos heading)
      (happroach : Scan.approach v s (.around c.length above) frame = .goesOn .asMaster)
      (hentry :
        Scan.entry v s (.around c.length above) frame
          ((Zone.around c.length above).carries seen) = .goesOn kept) :
      Reaches c v s (frame :: above) frame.data.start
        (Scan.seenInside v s frame ((Zone.around c.length above).carries seen))

/-- What stands at `pos`, inside an open container and others around that, leaves nothing to
go by. -/
inductive Halts (c : Contents) (v : Vocabulary) (maxDepth : Nat) (container : Frame)
    (outer : List Frame) (pos : Nat) : Defect → Prop
  /-- There is no heading. -/
  | illegible
      {found : Defect}
      (hreads : c.headingAt container.data.stop pos = .error found) :
      Halts c v maxDepth container outer pos .boundaryUnresolvable
  /-- An element of unknown size is no container, so that nothing can end it. -/
  | endless
      {heading : Heading}
      (hreads : c.headingAt container.data.stop pos = .ok heading)
      (hstays : v.closes (container.id :: outer.map Frame.id) heading.id = false)
      (hunknown : heading.size = .unknown)
      (hleaf : v.isMaster heading.id = false) :
      Halts c v maxDepth container outer pos .boundaryUnresolvable
  /-- A container of unknown size stands too deep to be entered. -/
  | tooDeep
      {heading : Heading}
      (hreads : c.headingAt container.data.stop pos = .ok heading)
      (hstays : v.closes (container.id :: outer.map Frame.id) heading.id = false)
      (hunknown : heading.size = .unknown)
      (hmaster : v.isMaster heading.id = true)
      (hdepth : (container :: outer).length = maxDepth) :
      Halts c v maxDepth container outer pos (.tooDeep maxDepth)

/-- The frame is that of a container in the stream whose payload begins at `pos` or in front
of it. -/
structure Frame.Encloses (c : Contents) (v : Vocabulary) (frame : Frame) (pos : Nat) : Prop where
  reads :
    ∃ heading, Heading.decode (c.slice frame.heading.start (c.length - frame.heading.start)) =
        .ok (some heading) ∧
      heading.id = frame.id ∧ heading.size = frame.declared
  master : v.isMaster frame.id = true
  begins : frame.heading.start < frame.data.start ∧ frame.data.start ≤ pos
  inside : frame.data.stop ≤ c.length

section Zones

variable {above outer : List Frame} {container frame : Frame} {length : Nat}

@[simp] theorem Zone.around_path : (Zone.around length above).path = above.map Frame.id := by
  induction above with
  | nil => rfl
  | cons frame above ih => rw [around, inside_path, ih, List.map_cons]

@[simp] theorem Zone.around_cons_stop :
    (Zone.around length (container :: outer)).stop = container.data.stop := rfl

@[simp] theorem Zone.around_cons_isOpen :
    (Zone.around length (container :: outer)).isOpen = (container.declared == .unknown) := rfl

theorem Zone.around_depth : (Zone.around length above).depth = above.length := by
  rw [depth, around_path, List.length_map]

/-- Only inside a container of unknown size the end of a zone is open. -/
theorem Zone.around_isOpen
    (h : (Zone.around length above).isOpen = true) :
    ∃ container outer, above = container :: outer ∧ container.declared = .unknown := by
  cases above with
  | nil => simp [around] at h
  | cons container outer =>
      rw [around_cons_isOpen, beq_iff_eq] at h
      exact ⟨container, outer, rfl, h⟩

end Zones

section Places

variable {c : Contents} {v : Vocabulary} {s : Settings} {above outer : List Frame}
  {container frame : Frame} {pos offset : Nat} {seen : Bool} {reason : Defect}

/-- The zone at a place that a scan reaches lies inside the stream, and the containers around
it are not more than the scan allows. -/
theorem Reaches.bounds (h : Reaches c v s above pos seen) :
    (Zone.around c.length above).stop ≤ c.length ∧ above.length ≤ s.maxDepth := by
  induction h with
  | start => exact ⟨Nat.le_refl _, Nat.zero_le _⟩
  | behind hbefore hfirst ih => exact ih
  | inside hbefore hopens hframe happroach hentry ih =>
      obtain ⟨hlength, _⟩ := ih
      obtain ⟨_, _, hstop⟩ := hopens.data_bounds
      subst hframe
      obtain ⟨hdepth, _⟩ := bounds_of_entry hentry
      rw [Zone.around_depth] at hdepth
      exact ⟨Nat.le_trans hstop hlength, hdepth⟩

/-- The containers around a place that a scan reaches stand in the stream, in front of it. -/
theorem Reaches.encloses (h : Reaches c v s above pos seen) :
    ∀ frame ∈ above, frame.Encloses c v pos := by
  induction h with
  | start => simp
  | behind hbefore hfirst ih =>
      obtain ⟨hforward, _⟩ := hfirst.bounds
      intro frame hmem
      obtain ⟨hreads, hmaster, hbegins, hinside⟩ := ih frame hmem
      exact ⟨hreads, hmaster, ⟨hbegins.1, by omega⟩, hinside⟩
  | @inside above pos seen kept heading frame hbefore hopens hframe happroach hentry ih =>
      obtain ⟨hlength, _⟩ := hbefore.bounds
      obtain ⟨hstart, _, hstop⟩ := hopens.data_bounds
      intro other hmem
      rcases List.mem_cons.mp hmem with rfl | hmem
      · have hmaster := isMaster_of_approach happroach
        subst hframe
        refine ⟨⟨heading, ?_, ?_, ?_⟩, hmaster, ⟨?_, Nat.le_refl _⟩, Nat.le_trans hstop hlength⟩
        · rw [Zone.frameAt_heading]
          exact Contents.decode_of_headingAt hopens.reads hlength
        · rw [Zone.frameAt_id]
        · rw [Zone.frameAt_declared]
        · rw [Zone.frameAt_heading]
          dsimp only
          omega
      · obtain ⟨hreads, hmaster, hbegins, hinside⟩ := ih other hmem
        subst hframe
        exact ⟨hreads, hmaster, ⟨hbegins.1, by omega⟩, hinside⟩

/-- What fails at a place that a scan reaches fails the scan. -/
theorem Reaches.fails
    (h : Reaches c v s above pos seen)
    (hfails : Fails c v s (.around c.length above) pos seen offset reason) :
    Fails c v s (.around c.length []) 0 false offset reason := by
  induction h with
  | start => exact hfails
  | behind hbefore hfirst ih => exact ih (.behind hfirst hfails)
  | inside hbefore hopens hframe happroach hentry ih =>
      exact ih (.inside hopens hframe happroach hentry hfails)

/-- In an open zone an element fails a lenient scan on its own account when it is of unknown
size, and either no container or one that stands too deep. -/
theorem Spoils.of_lenient
    {zone : Zone}
    (hlenient : s.isStrict = false)
    (hinside : frame.data.stop ≤ c.length)
    (h : Spoils c v s zone frame seen offset reason) :
    zone.isOpen = true ∧ offset = frame.heading.start ∧ frame.declared = .unknown ∧
      ((v.isMaster frame.id = false ∧ reason = .boundaryUnresolvable) ∨
        (v.isMaster frame.id = true ∧ s.maxDepth ≤ zone.depth ∧
          reason = .tooDeep s.maxDepth)) := by
  have hgivenUp : ∀ {α : Type} {found : Defect},
      (Scan.giveUp s zone frame.heading.start found : Decision α) = .fails offset reason →
        zone.isOpen = true ∧ reason = found := by
    intro α found hfails
    unfold Scan.giveUp Scan.settle at hfails
    cases hopen : zone.isOpen with
    | true =>
        rw [hopen, if_pos rfl, Decision.fails.injEq] at hfails
        exact ⟨rfl, hfails.2.symm⟩
    | false => simp [hopen, hlenient] at hfails
  have hoffset := h.offset_eq hinside
  cases h with
  | refused happroach =>
      rw [approach_eq (Or.inr hlenient)] at happroach
      split at happroach
      · simp at happroach
      · rename_i hleaf
        split at happroach
        · rename_i hunknown
          obtain ⟨hopen, hreason⟩ := hgivenUp happroach
          exact ⟨hopen, hoffset, hunknown, Or.inl ⟨by simpa using hleaf, hreason⟩⟩
        · simp at happroach
  | leaf happroach hleaf =>
      obtain ⟨hstrict, _⟩ := leaf_fails hinside hleaf
      simp [hlenient] at hstrict
  | barred happroach hentry =>
      have hmaster := isMaster_of_approach happroach
      unfold Scan.entry at hentry
      split at hentry
      · rename_i hdepth
        split at hentry
        · rename_i hunknown
          obtain ⟨hopen, hreason⟩ := hgivenUp hentry
          exact ⟨hopen, hoffset, hunknown, Or.inr ⟨hmaster, hdepth, hreason⟩⟩
        · simp [Scan.settle, hlenient] at hentry
      · split at hentry
        · split at hentry <;> simp at hentry
        · simp at hentry

/-- A lenient scan that fails does so at a place that it reaches, where it halts inside an
open container. -/
theorem Fails.halts
    {zone : Zone}
    (hlenient : s.isStrict = false)
    (h : Fails c v s zone pos seen offset reason)
    (hzone : zone = .around c.length above)
    (hreaches : Reaches c v s above pos seen) :
    ∃ container outer seen, Reaches c v s (container :: outer) offset seen ∧
      container.declared = .unknown ∧ offset < container.data.stop ∧
      Halts c v s.maxDepth container outer offset reason := by
  induction h generalizing above with
  | astray hinside hreads hopen =>
      subst hzone
      obtain ⟨container, outer, rfl, hunknown⟩ := Zone.around_isOpen hopen
      exact ⟨container, outer, _, hreaches, hunknown, hinside, .illegible hreads⟩
  | unreadable hinside hreads hdeclared hstrict => simp [hlenient] at hstrict
  | @spoiled zone pos seen heading offset reason hopens hspoils =>
      subst hzone
      obtain ⟨hlength, hdepth⟩ := hreaches.bounds
      obtain ⟨_, _, hstop⟩ := hopens.data_bounds
      obtain ⟨hopen, hoffset, hunknown, hcause⟩ :=
        hspoils.of_lenient hlenient (Nat.le_trans hstop hlength)
      rw [Zone.frameAt_heading] at hoffset
      rw [Zone.frameAt_declared] at hunknown
      simp only [Zone.frameAt_id] at hcause
      subst hoffset
      obtain ⟨container, outer, rfl, houter⟩ := Zone.around_isOpen hopen
      have hstays := hopens.stays
      rw [hopen, Bool.true_and, Zone.around_path, List.map_cons] at hstays
      refine ⟨container, outer, _, hreaches, houter, hopens.inside, ?_⟩
      rcases hcause with ⟨hleaf, rfl⟩ | ⟨hmaster, hdeep, rfl⟩
      · exact .endless hopens.reads hstays hunknown hleaf
      · rw [Zone.around_depth] at hdeep
        exact .tooDeep hopens.reads hstays hunknown hmaster (Nat.le_antisymm hdepth hdeep)
  | inside hopens hframe happroach hentry hcontents ih =>
      subst hzone
      exact ih rfl (.inside hreaches hopens hframe happroach hentry)
  | behind hfirst hrest ih =>
      subst hzone
      exact ih rfl (.behind hreaches hfirst)

/-- Inside an open container, what halts a scan fails the zone. -/
theorem Halts.fails
    (h : Halts c v s.maxDepth container outer offset reason)
    (hopen : container.declared = .unknown)
    (hinside : offset < container.data.stop)
    (seen : Bool) :
    Fails c v s (.around c.length (container :: outer)) offset seen offset reason := by
  have hzone : (Zone.around c.length (container :: outer)).isOpen = true := by
    rw [Zone.around_cons_isOpen, hopen]
    rfl
  have hopens : ∀ heading, c.headingAt container.data.stop offset = .ok heading →
      v.closes (container.id :: outer.map Frame.id) heading.id = false →
        Opens c v (.around c.length (container :: outer)) offset heading := by
    intro heading hreads hstays
    refine ⟨hinside, hreads, ?_⟩
    rw [Zone.around_path, List.map_cons, hstays, Bool.and_false]
  have hwhole : ∀ heading : Heading, heading.size = .unknown →
      ((Zone.around c.length (container :: outer)).frameAt offset heading).error = none :=
    fun heading hunknown => (Zone.frameAt_of_unknown hunknown).2
  cases h with
  | illegible hreads => exact .astray hinside hreads hzone
  | @endless heading hreads hstays hunknown hleaf =>
      refine .spoiled (hopens heading hreads hstays) (.refused ?_)
      rw [approach_eq (Or.inl (hwhole heading hunknown)), Zone.frameAt_id, hleaf,
        if_neg Bool.false_ne_true, Zone.frameAt_declared, if_pos hunknown, Scan.giveUp,
        if_pos hzone, Zone.frameAt_heading]
  | @tooDeep heading hreads hstays hunknown hmaster hdepth =>
      refine .spoiled (hopens heading hreads hstays) (.barred ?_ ?_)
      · rw [approach_eq (Or.inl (hwhole heading hunknown)), Zone.frameAt_id, if_pos hmaster]
      · have hdeep : s.maxDepth ≤ (Zone.around c.length (container :: outer)).depth := by
          rw [Zone.around_depth]
          exact Nat.le_of_eq hdepth.symm
        rw [Scan.entry, if_pos hdeep, Zone.frameAt_declared, if_pos hunknown, Scan.giveUp,
          if_pos hzone, Zone.frameAt_heading]

/-- A lenient scan fails exactly where it reaches a place at which it halts inside an open
container. -/
theorem Contents.scan_eq_error_iff_halts
    {failure : Failure}
    (hlenient : s.isStrict = false) :
    c.scan v s = .error failure ↔
      ∃ offset reason, failure = .format offset reason ∧ offset < c.length ∧
        ∃ container outer seen, Reaches c v s (container :: outer) offset seen ∧
          container.Encloses c v offset ∧ offset < container.data.stop ∧
          container.declared = .unknown ∧ Halts c v s.maxDepth container outer offset reason := by
  rw [Contents.scan_eq_error_iff]
  constructor
  · rintro ⟨offset, reason, rfl, hfails⟩
    obtain ⟨container, outer, seen, hreaches, hopen, hinside, hhalts⟩ :=
      hfails.halts hlenient rfl .start
    have hencloses := hreaches.encloses container List.mem_cons_self
    exact ⟨offset, reason, rfl, Nat.lt_of_lt_of_le hinside hencloses.inside, container, outer,
      seen, hreaches, hencloses, hinside, hopen, hhalts⟩
  · rintro ⟨offset, reason, rfl, _, container, outer, seen, hreaches, _, hinside, hopen, hhalts⟩
    exact ⟨offset, reason, rfl, hreaches.fails (hhalts.fails hopen hinside seen)⟩

end Places

namespace Buffered

/-- A lenient scan fails with a defect, at the place of a heading, exactly where it halts
immediately inside a container of unknown size: there no heading can be read, or it is one of
unknown size whose element is no container or stands at the depth limit.  In particular it
has a result when no container of unknown size has a heading anywhere in the stream. -/
theorem scan_fails_iff_halts
    {b : Buffered}
    {v : Vocabulary}
    {shallow : Bool}
    {maxDepth : Nat}
    (hb : b.Faithful) :
    (∀ failure, (b.scan v ⟨shallow, maxDepth, .bestEffort⟩).1 = .error failure ↔
      ∃ offset reason, failure = .format offset reason ∧ offset < b.length ∧
        ∃ container outer seen,
          Reaches b.device.toContents v ⟨shallow, maxDepth, .bestEffort⟩ (container :: outer)
            offset seen ∧
          container.Encloses b.device.toContents v offset ∧ offset < container.data.stop ∧
          container.declared = .unknown ∧
          Halts b.device.toContents v maxDepth container outer offset reason) ∧
      ((∀ pos heading, pos < b.length →
          Heading.decode (b.device.slice pos (b.length - pos)) = .ok (some heading) →
          heading.size = .unknown → v.isMaster heading.id = false) →
        ∃ forest, (b.scan v ⟨shallow, maxDepth, .bestEffort⟩).1 = .ok forest) := by
  rw [hb.scan_eq]
  refine ⟨fun failure => Contents.scan_eq_error_iff_halts rfl, ?_⟩
  intro hnone
  cases hscan : b.device.toContents.scan v ⟨shallow, maxDepth, .bestEffort⟩ with
  | ok forest => exact ⟨forest, rfl⟩
  | error failure =>
      obtain ⟨offset, _, _, hoffset, container, _, _, _, hencloses, _, hopen, _⟩ :=
        (Contents.scan_eq_error_iff_halts rfl).mp hscan
      obtain ⟨heading, hreads, hid, hsize⟩ := hencloses.reads
      have hstart : container.heading.start < b.length := by
        have hbegins := hencloses.begins
        have hlength : offset < b.length := hoffset
        omega
      have hleaf := hnone _ _ hstart hreads (hsize.trans hopen)
      rw [hid, hencloses.master] at hleaf
      simp at hleaf

/-- A segment of unknown size with a void element and, behind that, a byte that begins no
heading. -/
theorem scan_fails_iff_halts_void :
    let b := ofBytes [0x18, 0x53, 0x80, 0x67, 0xFF, 0xEC, 0x80, 0x00]
    b.Faithful ∧
      (b.scan Matroska.vocabulary ⟨false, 64, .bestEffort⟩).1 =
        .error (.format 7 .boundaryUnresolvable) ∧
      ∃ container outer seen,
        Reaches b.device.toContents Matroska.vocabulary ⟨false, 64, .bestEffort⟩
          (container :: outer) 7 seen ∧
        container.Encloses b.device.toContents Matroska.vocabulary 7 ∧
        container.declared = .unknown ∧
        Halts b.device.toContents Matroska.vocabulary 64 container outer 7
          .boundaryUnresolvable := by
  intro b
  have hfaithful : b.Faithful := ofBytes_faithful _
  have hscan : (b.scan Matroska.vocabulary ⟨false, 64, .bestEffort⟩).1 =
      .error (.format 7 .boundaryUnresolvable) := by decide +kernel
  obtain ⟨offset, reason, hfailure, _, container, outer, seen, hreaches, hencloses, _, hopen,
    hhalts⟩ := ((scan_fails_iff_halts hfaithful).1 _).mp hscan
  obtain ⟨rfl, rfl⟩ := Failure.format.inj hfailure
  exact ⟨hfaithful, hscan, container, outer, seen, hreaches, hencloses, hopen, hhalts⟩

end Buffered

end EbmlReport
