import EbmlReport.Proofs.Reading

/-!
# How reading a zone fails

`Reads` tells what a zone can be read as.  Beside it stands `Fails`, which tells with
which defect, and at which offset, reading comes to nothing.  Both go from one element
to the next, so what happens to a single element is a relation of its own: it is read
(`Yields`), or it fails the scan (`Spoils`), or the scan fails inside it.

A zone that lies inside the contents is read or fails.  Hence no scan of contents ends in
a failure of the stream.

**Results.**
* `Reads.of_opens`, `Reads.of_closes`, `Reads.of_unreadable`: what was read begins as the
  heading tells.
* `Fails.bounds`: a defect that fails a zone lies in it, behind where reading began.
* `reads_or_fails`: a zone is read, or it fails.
* `Contents.scan_eq_error_iff`: a scan of contents has no result when its zone fails.
-/

namespace EbmlReport

/-- What a payload stands for.  It has a defect when its length is wrong for its kind, or
its bytes are. -/
def Contents.payload (c : Contents) (v : Vocabulary) (frame : Frame) : Except Defect Value :=
  match Scan.lengthDefect? (v.kind frame.id) frame.data.length, v.kind frame.id with
  | some reason, _ => .error reason
  | none, .binary =>
      .ok (.binary frame.data.length
        (c.slice frame.data.start (min (v.previewLength frame.id) frame.data.length)))
  | none, kind => Value.decode kind (c.slice frame.data.start frame.data.length)

/-- One element is read at `pos`; the flag tells whether a skippable container has been
opened once it was. -/
inductive Yields (c : Contents) (v : Vocabulary) (s : Settings) (zone : Zone) (pos : Nat)
    (seen : Bool) : Element → Bool → Prop
  | settled
      {heading : Heading} {element : Element}
      (hopens : Opens c v zone pos heading)
      (hsettles :
        Settles c v s zone (zone.frameAt pos heading) (zone.carries seen) element) :
      Yields c v s zone pos seen element (zone.carries seen)
  | entered
      {kept : Bool} {heading : Heading} {frame : Frame} {contents : Stretch}
      (hopens : Opens c v zone pos heading)
      (hframe : frame = zone.frameAt pos heading)
      (happroach : Scan.approach v s zone frame = .goesOn .asMaster)
      (hentry : Scan.entry v s zone frame (zone.carries seen) = .goesOn kept)
      (hcontents :
        Reads c v s (zone.inside frame) frame.data.start
          (Scan.seenInside v s frame (zone.carries seen)) contents) :
      Yields c v s zone pos seen (frame.contained kept contents) contents.seen

/-- An element whose heading was read fails the scan on its own account. -/
inductive Spoils (c : Contents) (v : Vocabulary) (s : Settings) (zone : Zone) (frame : Frame)
    (seen : Bool) : (offset : Nat) → (reason : Defect) → Prop
  /-- It is clipped, or nothing tells where it ends. -/
  | refused
      {offset : Nat} {reason : Defect}
      (happroach : Scan.approach v s zone frame = .fails offset reason) :
      Spoils c v s zone frame seen offset reason
  /-- Its payload has a defect. -/
  | leaf
      {offset : Nat} {reason : Defect}
      (happroach : Scan.approach v s zone frame = .goesOn .asLeaf)
      (hleaf : (Scan.leaf v s frame .done).answer c = .error (.format offset reason)) :
      Spoils c v s zone frame seen offset reason
  /-- It is a container that stands too deep. -/
  | barred
      {offset : Nat} {reason : Defect}
      (happroach : Scan.approach v s zone frame = .goesOn .asMaster)
      (hentry : Scan.entry v s zone frame seen = .fails offset reason) :
      Spoils c v s zone frame seen offset reason

/-- Reading a zone from a position on comes to nothing, because of a defect. -/
inductive Fails (c : Contents) (v : Vocabulary) (s : Settings) :
    Zone → Nat → Bool → (offset : Nat) → (reason : Defect) → Prop
  | astray
      {zone : Zone} {pos : Nat} {seen : Bool} {found : Defect}
      (hinside : pos < zone.stop)
      (hreads : c.headingAt zone.stop pos = .error found)
      (hopen : zone.isOpen = true) :
      Fails c v s zone pos seen pos .boundaryUnresolvable
  | unreadable
      {zone : Zone} {pos : Nat} {seen : Bool} {reason : Defect}
      (hinside : pos < zone.stop)
      (hreads : c.headingAt zone.stop pos = .error reason)
      (hdeclared : zone.isOpen = false)
      (hstrict : s.isStrict = true) :
      Fails c v s zone pos seen pos reason
  | spoiled
      {zone : Zone} {pos : Nat} {seen : Bool} {heading : Heading} {offset : Nat}
      {reason : Defect}
      (hopens : Opens c v zone pos heading)
      (hspoils :
        Spoils c v s zone (zone.frameAt pos heading) (zone.carries seen) offset reason) :
      Fails c v s zone pos seen offset reason
  | inside
      {zone : Zone} {pos : Nat} {seen kept : Bool} {heading : Heading} {frame : Frame}
      {offset : Nat} {reason : Defect}
      (hopens : Opens c v zone pos heading)
      (hframe : frame = zone.frameAt pos heading)
      (happroach : Scan.approach v s zone frame = .goesOn .asMaster)
      (hentry : Scan.entry v s zone frame (zone.carries seen) = .goesOn kept)
      (hcontents :
        Fails c v s (zone.inside frame) frame.data.start
          (Scan.seenInside v s frame (zone.carries seen)) offset reason) :
      Fails c v s zone pos seen offset reason
  | behind
      {zone : Zone} {pos : Nat} {seen after : Bool} {element : Element} {offset : Nat}
      {reason : Defect}
      (hfirst : Yields c v s zone pos seen element after)
      (hrest : Fails c v s zone element.stop after offset reason) :
      Fails c v s zone pos seen offset reason

section Elements

variable {c : Contents} {v : Vocabulary} {s : Settings} {zone : Zone} {pos : Nat}
  {seen after : Bool} {element : Element} {frame : Frame} {heading : Heading} {r rest : Stretch}

theorem Opens.eq_of_reads
    {found : Heading}
    (h : Opens c v zone pos heading)
    (hreads : c.headingAt zone.stop pos = .ok found) :
    heading = found :=
  Except.ok.inj (h.reads.symm.trans hreads)

theorem Reads.cons
    (hfirst : Yields c v s zone pos seen element after)
    (hrest : Reads c v s zone element.stop after rest) :
    Reads c v s zone pos seen { rest with elements := .cons element rest.elements } := by
  cases hfirst with
  | settled hopens hsettles => exact .leaf hopens hsettles hrest
  | entered hopens hframe happroach hentry hcontents =>
      rw [Element.stop, Frame.contained_frame] at hrest
      exact .entered hopens hframe happroach hentry hcontents hrest

/-- An element that was read takes up more than its heading, and stays in its zone. -/
theorem Yields.bounds (h : Yields c v s zone pos seen element after) :
    pos + 2 ≤ element.stop ∧ element.stop ≤ zone.stop := by
  cases h with
  | settled hopens hsettles =>
      obtain ⟨hstart, hdata, hstop⟩ := hopens.data_bounds
      rw [Element.stop, hsettles.keeps.2.2.2]
      omega
  | entered hopens hframe happroach hentry hcontents =>
      subst hframe
      obtain ⟨_, hdata, _⟩ := hopens.data_bounds
      obtain ⟨hlow, hhigh⟩ := hcontents.bounds
      rw [Element.stop, Frame.contained_frame]
      exact hopens.closed_bounds hlow (hhigh hdata)

/-- Behind a heading that opens an element of the zone, that element was read. -/
theorem Reads.of_opens
    (h : Reads c v s zone pos seen r)
    (hopens : Opens c v zone pos heading) :
    ∃ element after rest, Yields c v s zone pos seen element after ∧
      Reads c v s zone element.stop after rest ∧
      r = { rest with elements := .cons element rest.elements } := by
  have hinside := hopens.inside
  have hreads := hopens.reads
  have hstays := hopens.stays
  cases h with
  | ended hend => omega
  | closed _ hfound hopen hcloses =>
      obtain rfl := hopens.eq_of_reads hfound
      simp [hopen, hcloses] at hstays
  | unreadable _ hfound _ _ => simp [hreads] at hfound
  | leaf hopens hsettles hrest => exact ⟨_, _, _, .settled hopens hsettles, hrest, rfl⟩
  | entered hopens hframe happroach hentry hcontents hrest =>
      refine ⟨_, _, _, .entered hopens hframe happroach hentry hcontents, ?_, rfl⟩
      rw [Element.stop, Frame.contained_frame]
      exact hrest

/-- Reading stops before a heading that closes the zone. -/
theorem Reads.of_closes
    (h : Reads c v s zone pos seen r)
    (hreads : c.headingAt zone.stop pos = .ok heading)
    (hopen : zone.isOpen = true)
    (hcloses : v.closes zone.path heading.id = true) :
    r = ⟨.nil, pos, seen⟩ := by
  have hopened : ∀ found, ¬ Opens c v zone pos found := by
    intro found hopens
    have hstays := hopens.stays
    obtain rfl := hopens.eq_of_reads hreads
    simp [hopen, hcloses] at hstays
  cases h with
  | ended _ => rfl
  | closed _ _ _ _ => rfl
  | unreadable _ hfound _ _ => simp [hreads] at hfound
  | leaf hopens _ _ => exact absurd hopens (hopened _)
  | entered hopens _ _ _ _ _ => exact absurd hopens (hopened _)

/-- Where no heading can be read, the rest of a declared zone is given up. -/
theorem Reads.of_unreadable
    {reason : Defect}
    (h : Reads c v s zone pos seen r)
    (hinside : pos < zone.stop)
    (hreads : c.headingAt zone.stop pos = .error reason) :
    zone.isOpen = false ∧ s.isStrict = false ∧
      r = ⟨.cons (.placeholder pos (zone.stop - pos) reason) .nil, zone.stop, seen⟩ := by
  cases h with
  | ended hend => omega
  | closed _ hfound _ _ => simp [hreads] at hfound
  | unreadable _ hfound hdeclared hlenient =>
      obtain rfl : reason = _ := by simpa only [hreads, Except.error.injEq] using hfound
      exact ⟨hdeclared, hlenient, rfl⟩
  | leaf hopens _ _ =>
      have hfound := hopens.reads
      simp [hreads] at hfound
  | entered hopens _ _ _ _ _ =>
      have hfound := hopens.reads
      simp [hreads] at hfound

/-- A whole payload is what its bytes stand for. -/
theorem answer_leaf
    {α : Type}
    {next : Element → Inquiry α}
    (hwhole : frame.error = none)
    (hinside : frame.data.stop ≤ c.length) :
    (Scan.leaf v s frame next).answer c =
      (Scan.finishLeaf s frame (c.payload v frame) next).answer c := by
  rw [Span.stop] at hinside
  have hpreview : ¬ c.length <
      frame.data.start + min (v.previewLength frame.id) frame.data.length := by omega
  unfold Scan.leaf Contents.payload
  simp only [hwhole]
  generalize Scan.lengthDefect? (v.kind frame.id) frame.data.length = defect?
  generalize v.kind frame.id = kind
  cases defect? with
  | some reason => cases kind <;> rfl
  | none =>
      cases kind <;>
        simp only [Inquiry.answer, if_neg hpreview, if_neg (Nat.not_lt.mpr hinside)]

/-- A leaf with a whole payload holds its value, or in a lenient scan the defect of it. -/
theorem leaf_eq_ok_iff
    (hwhole : frame.error = none)
    (hinside : frame.data.stop ≤ c.length) :
    (Scan.leaf v s frame .done).answer c = .ok element ↔
      (∃ value, c.payload v frame = .ok value ∧ .leaf frame (.value value) = element) ∨
        (s.isStrict = false ∧ ∃ reason, c.payload v frame = .error reason ∧
          .leaf frame (.corrupt reason) = element) := by
  rw [answer_leaf hwhole hinside]
  cases c.payload v frame with
  | ok value => simp [Scan.finishLeaf, Inquiry.answer]
  | error reason =>
      cases hstrict : s.isStrict with
      | true => simp [Scan.finishLeaf, Inquiry.answer, hstrict]
      | false => simp [Scan.finishLeaf, Inquiry.answer, hstrict]

/-- A leaf fails a strict scan when its payload has a defect, and no other. -/
theorem leaf_fails
    {failure : Failure}
    (hinside : frame.data.stop ≤ c.length)
    (h : (Scan.leaf v s frame .done).answer c = .error failure) :
    s.isStrict = true ∧ ∃ reason, c.payload v frame = .error reason ∧
      failure = .format frame.heading.start reason := by
  cases herror : frame.error with
  | some reason => simp [Scan.leaf, herror, Inquiry.answer] at h
  | none =>
      rw [answer_leaf herror hinside] at h
      cases hpayload : c.payload v frame with
      | ok value => simp [hpayload, Scan.finishLeaf, Inquiry.answer] at h
      | error reason =>
          simp only [hpayload, Scan.finishLeaf] at h
          split at h
          · rename_i hstrict
            simp only [Inquiry.answer, Except.error.injEq] at h
            exact ⟨hstrict, reason, rfl, h.symm⟩
          · simp [Inquiry.answer] at h

/-- A defect that is confined to an element is told at the place of the element. -/
theorem offset_of_settle
    {α : Type}
    {start offset : Nat}
    {found reason : Defect}
    (h : (Scan.settle s start found : Decision α) = .fails offset reason) :
    offset = start := by
  unfold Scan.settle at h
  split at h
  · simp only [Decision.fails.injEq] at h
    exact h.1.symm
  · simp at h

theorem offset_of_giveUp
    {α : Type}
    {start offset : Nat}
    {found reason : Defect}
    (h : (Scan.giveUp s zone start found : Decision α) = .fails offset reason) :
    offset = start := by
  unfold Scan.giveUp at h
  split at h
  · simp only [Decision.fails.injEq] at h
    exact h.1.symm
  · exact offset_of_settle h

theorem offset_of_approach
    {offset : Nat}
    {reason : Defect}
    (h : Scan.approach v s zone frame = .fails offset reason) :
    offset = frame.heading.start := by
  unfold Scan.approach at h
  split at h
  · simp only [Decision.fails.injEq] at h
    exact h.1.symm
  · split at h
    · simp at h
    · split at h
      · exact offset_of_giveUp h
      · simp at h

theorem offset_of_entry
    {offset : Nat}
    {reason : Defect}
    (h : Scan.entry v s zone frame seen = .fails offset reason) :
    offset = frame.heading.start := by
  unfold Scan.entry at h
  split at h
  · split at h
    · exact offset_of_giveUp h
    · exact offset_of_settle h
  · split at h
    · split at h <;> simp at h
    · simp at h

/-- An element that fails the scan on its own account does so where it starts. -/
theorem Spoils.offset_eq
    {offset : Nat}
    {reason : Defect}
    (h : Spoils c v s zone frame seen offset reason)
    (hinside : frame.data.stop ≤ c.length) :
    offset = frame.heading.start := by
  cases h with
  | refused happroach => exact offset_of_approach happroach
  | leaf happroach hleaf =>
      obtain ⟨_, _, _, hfailure⟩ := leaf_fails hinside hleaf
      simp only [Failure.format.injEq] at hfailure
      exact hfailure.1
  | barred happroach hentry => exact offset_of_entry hentry

/-- A defect that fails a zone lies in it, behind where reading began. -/
theorem Fails.bounds
    {offset : Nat}
    {reason : Defect}
    (h : Fails c v s zone pos seen offset reason)
    (hlength : zone.stop ≤ c.length) :
    pos ≤ offset ∧ offset < zone.stop := by
  induction h with
  | astray hinside hreads hopen => exact ⟨Nat.le_refl _, hinside⟩
  | unreadable hinside hreads hdeclared hstrict => exact ⟨Nat.le_refl _, hinside⟩
  | spoiled hopens hspoils =>
      have hinside := hopens.inside
      obtain ⟨_, _, hstop⟩ := hopens.data_bounds
      have hoffset := hspoils.offset_eq (Nat.le_trans hstop hlength)
      rw [Zone.frameAt_heading] at hoffset
      dsimp only at hoffset
      omega
  | inside hopens hframe happroach hentry hcontents ih =>
      subst hframe
      obtain ⟨hstart, hdata, hstop⟩ := hopens.data_bounds
      rw [Zone.inside_stop] at ih
      have hbounds := ih (Nat.le_trans hstop hlength)
      omega
  | behind hfirst hrest ih =>
      have hforward := hfirst.bounds
      have hbounds := ih hlength
      omega

end Elements

section Answers

variable {c : Contents} {v : Vocabulary} {s : Settings} {zone : Zone} {pos fuel : Nat}
  {seen after : Bool} {element : Element} {frame : Frame} {heading : Heading}

/-- What comes after a stretch is asked once the stretch was read. -/
theorem answer_siblings
    {α : Type}
    (next : Stretch → Inquiry α) :
    (Scan.siblings v s fuel zone pos seen next).answer c =
      match (Scan.siblings v s fuel zone pos seen .done).answer c with
      | .ok r => (next r).answer c
      | .error failure => .error failure := by
  have hbind := Inquiry.answer_bind c (Scan.siblings v s fuel zone pos seen .done) next
  simp only [Scan.siblings_bind, Inquiry.bind] at hbind
  rw [hbind]
  cases (Scan.siblings v s fuel zone pos seen .done).answer c <;> rfl

/-- What comes after a leaf is asked once the leaf was read. -/
theorem answer_leaf_next
    {α : Type}
    (next : Element → Inquiry α) :
    (Scan.leaf v s frame next).answer c =
      match (Scan.leaf v s frame .done).answer c with
      | .ok element => (next element).answer c
      | .error failure => .error failure := by
  have hbind := Inquiry.answer_bind c (Scan.leaf v s frame .done) next
  simp only [Scan.leaf_bind, Inquiry.bind] at hbind
  rw [hbind]
  cases (Scan.leaf v s frame .done).answer c <;> rfl

/-- Inside a zone, what comes of reading depends on the heading found there. -/
theorem answer_siblings_succ
    (hinside : pos < zone.stop)
    (hlength : zone.stop ≤ c.length) :
    (Scan.siblings v s (fuel + 1) zone pos seen .done).answer c =
      (match c.headingAt zone.stop pos with
        | .error reason =>
            if zone.isOpen then .fail pos .boundaryUnresolvable
            else if s.isStrict then .fail pos reason
            else
              .done ⟨.cons (.placeholder pos (zone.stop - pos) reason) .nil, zone.stop, seen⟩
        | .ok heading =>
            if zone.isOpen && v.closes zone.path heading.id then .done ⟨.nil, pos, seen⟩
            else
              Scan.element v s fuel zone (zone.frameAt pos heading) (zone.carries seen) .done :
        Inquiry Stretch).answer c := by
  have hfetch : ¬ c.length < pos + min Heading.maxLength (zone.stop - pos) := by omega
  rw [Scan.siblings, if_neg (Nat.not_le.mpr hinside), Inquiry.answer_checkpoint,
    Inquiry.answer, if_neg hfetch]
  rfl

/-- Behind a heading that opens an element, that element is looked into. -/
theorem answer_siblings_of_opens
    (hopens : Opens c v zone pos heading)
    (hlength : zone.stop ≤ c.length) :
    (Scan.siblings v s (fuel + 1) zone pos seen .done).answer c =
      (Scan.element v s fuel zone (zone.frameAt pos heading) (zone.carries seen) .done).answer
        c := by
  rw [answer_siblings_succ hopens.inside hlength]
  simp only [hopens.reads, hopens.stays, Bool.false_eq_true, if_false]

/-- Once an element was read, reading goes on behind it. -/
theorem Yields.answer
    (h : Yields c v s zone pos seen element after)
    (hlength : zone.stop ≤ c.length)
    (hfuel : zone.stop ≤ pos + (fuel + 1)) :
    (Scan.siblings v s (fuel + 1) zone pos seen .done).answer c =
      (Scan.proceed v s fuel zone .done element after).answer c := by
  cases h with
  | settled hopens hsettles =>
      rw [answer_siblings_of_opens hopens hlength]
      unfold Scan.element
      cases hsettles with
      | givenUp happroach => simp only [happroach]
      | leaf happroach hleaf =>
          simp only [happroach, Inquiry.answer]
          rw [answer_leaf_next, hleaf]
      | shut happroach hentry => simp only [happroach, hentry, Inquiry.answer]
  | @entered kept heading frame contents hopens hframe happroach hentry hcontents =>
      subst hframe
      obtain ⟨hstart, hdata, hstop⟩ := hopens.data_bounds
      have hless : (zone.inside (zone.frameAt pos heading)).stop ≤
          (zone.frameAt pos heading).data.start + fuel := by
        rw [Zone.inside_stop]
        omega
      have hread := hcontents.answer (Nat.le_trans hstop hlength) hless
      rw [answer_siblings_of_opens hopens hlength]
      simp only [Scan.element, happroach, hentry, Inquiry.answer]
      rw [answer_siblings, hread]

/-- A zone that fails is answered by its defect. -/
theorem Fails.answer
    {offset : Nat}
    {reason : Defect}
    (h : Fails c v s zone pos seen offset reason)
    (hlength : zone.stop ≤ c.length)
    (hfuel : zone.stop ≤ pos + fuel) :
    (Scan.siblings v s fuel zone pos seen .done).answer c = .error (.format offset reason) := by
  have hbounds := h.bounds hlength
  obtain ⟨fuel, rfl⟩ : ∃ less, fuel = less + 1 := ⟨fuel - 1, by omega⟩
  induction h generalizing fuel with
  | astray hinside hreads hopen =>
      rw [answer_siblings_succ hinside hlength]
      simp only [hreads, hopen, if_true, Inquiry.answer]
  | unreadable hinside hreads hdeclared hstrict =>
      rw [answer_siblings_succ hinside hlength]
      simp only [hreads, hdeclared, hstrict, Bool.false_eq_true, if_false, if_true,
        Inquiry.answer]
  | spoiled hopens hspoils =>
      rw [answer_siblings_of_opens hopens hlength]
      unfold Scan.element
      cases hspoils with
      | refused happroach => simp only [happroach, Inquiry.answer]
      | leaf happroach hleaf =>
          simp only [happroach, Inquiry.answer]
          rw [answer_leaf_next, hleaf]
      | barred happroach hentry => simp only [happroach, hentry, Inquiry.answer]
  | inside hopens hframe happroach hentry hcontents ih =>
      subst hframe
      obtain ⟨hstart, hdata, hstop⟩ := hopens.data_bounds
      have hbelow := hcontents.bounds (by rw [Zone.inside_stop]; omega)
      rw [Zone.inside_stop] at hbelow
      obtain ⟨fuel, rfl⟩ : ∃ less, fuel = less + 1 := ⟨fuel - 1, by omega⟩
      have hfailed := ih (by rw [Zone.inside_stop]; omega) (by rw [Zone.inside_stop]; omega)
        fuel (by rw [Zone.inside_stop]; omega)
      rw [answer_siblings_of_opens hopens hlength]
      simp only [Scan.element, happroach, hentry, Inquiry.answer]
      rw [answer_siblings, hfailed]
  | behind hfirst hrest ih =>
      have hforward := hfirst.bounds
      have hbelow := hrest.bounds hlength
      obtain ⟨fuel, rfl⟩ : ∃ less, fuel = less + 1 := ⟨fuel - 1, by omega⟩
      have hfailed := ih hlength hbelow fuel (by omega)
      rw [hfirst.answer hlength hfuel, Scan.proceed, answer_siblings, hfailed]

/-- Behind a heading that opens an element, that is read or fails the zone, if the same holds
inside it. -/
theorem Opens.yields_or_fails
    (hopens : Opens c v zone pos heading)
    (hlength : zone.stop ≤ c.length)
    (seen : Bool)
    (hinside : ∀ seen,
      (∃ r, Reads c v s (zone.inside (zone.frameAt pos heading))
          (zone.frameAt pos heading).data.start seen r) ∨
        ∃ offset reason, Fails c v s (zone.inside (zone.frameAt pos heading))
          (zone.frameAt pos heading).data.start seen offset reason) :
    (∃ element after, Yields c v s zone pos seen element after) ∨
      ∃ offset reason, Fails c v s zone pos seen offset reason := by
  obtain ⟨_, _, hstop⟩ := hopens.data_bounds
  cases happroach : Scan.approach v s zone (zone.frameAt pos heading) with
  | fails offset reason => exact Or.inr ⟨_, _, .spoiled hopens (.refused happroach)⟩
  | settles content => exact Or.inl ⟨_, _, .settled hopens (.givenUp happroach)⟩
  | goesOn how =>
      cases how with
      | asLeaf =>
          cases hleaf : (Scan.leaf v s (zone.frameAt pos heading) .done).answer c with
          | ok element => exact Or.inl ⟨_, _, .settled hopens (.leaf happroach hleaf)⟩
          | error failure =>
              obtain ⟨_, reason, _, rfl⟩ := leaf_fails (Nat.le_trans hstop hlength) hleaf
              exact Or.inr ⟨_, _, .spoiled hopens (.leaf happroach hleaf)⟩
      | asMaster =>
          cases hentry :
              Scan.entry v s zone (zone.frameAt pos heading) (zone.carries seen) with
          | fails offset reason =>
              exact Or.inr ⟨_, _, .spoiled hopens (.barred happroach hentry)⟩
          | settles content => exact Or.inl ⟨_, _, .settled hopens (.shut happroach hentry)⟩
          | goesOn kept =>
              rcases hinside
                  (Scan.seenInside v s (zone.frameAt pos heading) (zone.carries seen)) with
                ⟨contents, hcontents⟩ | ⟨offset, reason, hcontents⟩
              · exact Or.inl ⟨_, _, .entered hopens rfl happroach hentry hcontents⟩
              · exact Or.inr ⟨_, _, .inside hopens rfl happroach hentry hcontents⟩

/-- A zone inside the contents is read, or it fails. -/
theorem reads_or_fails
    (v : Vocabulary)
    (s : Settings)
    (hlength : zone.stop ≤ c.length)
    (pos : Nat)
    (seen : Bool) :
    (∃ r, Reads c v s zone pos seen r) ∨
      ∃ offset reason, Fails c v s zone pos seen offset reason := by
  -- The fuel is what is left of the zone, which shrinks inside and behind each element.
  obtain ⟨fuel, hfuel⟩ : ∃ fuel, zone.stop ≤ pos + fuel := ⟨zone.stop, by omega⟩
  induction fuel generalizing zone pos seen with
  | zero => exact Or.inl ⟨_, .ended hfuel⟩
  | succ fuel ih =>
      by_cases hend : zone.stop ≤ pos
      · exact Or.inl ⟨_, .ended hend⟩
      · have hinside : pos < zone.stop := Nat.lt_of_not_le hend
        cases hreads : c.headingAt zone.stop pos with
        | error found =>
            cases hopen : zone.isOpen with
            | true => exact Or.inr ⟨_, _, .astray hinside hreads hopen⟩
            | false =>
                cases hstrict : s.isStrict with
                | true => exact Or.inr ⟨_, _, .unreadable hinside hreads hopen hstrict⟩
                | false => exact Or.inl ⟨_, .unreadable hinside hreads hopen hstrict⟩
        | ok heading =>
            by_cases hcloses : zone.isOpen && v.closes zone.path heading.id
            · obtain ⟨hopen, hcloses⟩ := Bool.and_eq_true_iff.mp hcloses
              exact Or.inl ⟨_, .closed hinside hreads hopen hcloses⟩
            · have hopens : Opens c v zone pos heading :=
                ⟨hinside, hreads, by simpa using hcloses⟩
              obtain ⟨hstart, hdata, hstop⟩ := hopens.data_bounds
              have hless : (zone.inside (zone.frameAt pos heading)).stop ≤
                  (zone.frameAt pos heading).data.start + fuel := by
                rw [Zone.inside_stop]
                omega
              have hbelow := fun seen => ih (Nat.le_trans hstop hlength) _ seen hless
              rcases hopens.yields_or_fails hlength seen hbelow with
                ⟨element, after, hfirst⟩ | hfails
              · have hforward := hfirst.bounds
                rcases ih hlength element.stop after (by omega) with
                  ⟨rest, hrest⟩ | ⟨offset, reason, hrest⟩
                · exact Or.inl ⟨_, .cons hfirst hrest⟩
                · exact Or.inr ⟨offset, reason, .behind hfirst hrest⟩
              · exact Or.inr hfails

/-- A zone that is not answered fails. -/
theorem Fails.of_answer
    {failure : Failure}
    (hlength : zone.stop ≤ c.length)
    (hfuel : zone.stop ≤ pos + fuel)
    (h : (Scan.siblings v s fuel zone pos seen .done).answer c = .error failure) :
    ∃ offset reason, failure = .format offset reason ∧
      Fails c v s zone pos seen offset reason := by
  rcases reads_or_fails v s hlength pos seen with ⟨r, hread⟩ | ⟨offset, reason, hfails⟩
  · rw [hread.answer hlength hfuel] at h
    simp at h
  · rw [hfails.answer hlength hfuel, Except.error.injEq] at h
    exact ⟨offset, reason, h.symm, hfails⟩

/-- A scan has no result when its zone fails, and then ends in the defect of that. -/
theorem Contents.scan_eq_error_iff {failure : Failure} :
    c.scan v s = .error failure ↔
      ∃ offset reason, failure = .format offset reason ∧
        Fails c v s ⟨[], false, c.length⟩ 0 false offset reason := by
  unfold Contents.scan Scan.whole
  rw [answer_siblings]
  constructor
  · intro h
    cases hread : (Scan.siblings v s c.length ⟨[], false, c.length⟩ 0 false .done).answer c with
    | ok r => simp [hread, Inquiry.answer] at h
    | error found =>
        obtain ⟨offset, reason, rfl, hfails⟩ :=
          Fails.of_answer (Nat.le_refl _) (by dsimp only; omega) hread
        simp only [hread, Except.error.injEq] at h
        exact ⟨offset, reason, h.symm, hfails⟩
  · rintro ⟨offset, reason, rfl, hfails⟩
    rw [hfails.answer (Nat.le_refl _) (by dsimp only; omega)]

end Answers

end EbmlReport
