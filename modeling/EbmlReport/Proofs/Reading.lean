import EbmlReport.Proofs.Headings
import EbmlReport.Scan

/-!
# How a zone is read

`Scan.siblings` is an inquiry with a continuation and with fuel.  Neither matters for
what it reads: the relation `Reads` tells, without both, which stretches a zone of some
contents can be read as.  It has one constructor for each way in which reading goes on
or comes to an end, so what holds of every scan is proved by induction on it.

An element that becomes a leaf is covered by `Settles`: its heading alone decides, or
its payload is read, or it is a container that is not entered.

**Results.**
* `Scan.siblings_bind`: what is done with a stretch is done after reading it.
* `Opens.bounds`: a heading that was read lies inside its zone.
* `Reads.stop_cases`: reading stops at the end of a zone, or before a heading that closes
  an open one.
* `Reads.of_answer`, `Reads.answer`: the relation is what the inquiry answers.
* `Contents.scan_eq_ok_iff`: a scan gives the elements that the whole contents, as one
  zone, can be read as.
-/

namespace EbmlReport

/-- The heading at `pos`, as far as the bytes before `stop` tell. -/
def Contents.headingAt (c : Contents) (stop pos : Nat) : Except Defect Heading :=
  Scan.heading (c.slice pos (min Heading.maxLength (stop - pos)))

namespace Inquiry

variable {α β : Type}

/-- An inquiry that goes on has a result when both of its parts have one. -/
theorem answer_bind_eq_ok
    {c : Contents}
    {q : Inquiry α}
    {f : α → Inquiry β}
    {result : β} :
    (q.bind f).answer c = .ok result ↔
      ∃ first, q.answer c = .ok first ∧ (f first).answer c = .ok result := by
  rw [answer_bind]
  cases q.answer c with
  | ok first => simp
  | error failure => simp

@[simp] theorem answer_checkpoint (c : Contents) (q : Inquiry α) :
    (checkpoint q).answer c = q.answer c := rfl

/-- A fetch is answered by a slice, if that lies inside the contents. -/
theorem answer_fetch_eq_ok
    {c : Contents}
    {offset length : Nat}
    {next : Bytes → Inquiry α}
    {result : α} :
    (fetch offset length next).answer c = .ok result ↔
      offset + length ≤ c.length ∧ (next (c.slice offset length)).answer c = .ok result := by
  simp only [answer]
  split
  · simp only [reduceCtorEq, false_iff, not_and]
    omega
  · simp only [iff_and_self]
    omega

end Inquiry

namespace Scan

variable {v : Vocabulary} {s : Settings} {α β : Type}

theorem finishLeaf_bind
    (frame : Frame)
    (payload : Except Defect Value)
    (next : Element → Inquiry α)
    (f : α → Inquiry β) :
    (finishLeaf s frame payload next).bind f =
      finishLeaf s frame payload fun element => (next element).bind f := by
  cases payload with
  | ok value => rfl
  | error reason =>
      simp only [finishLeaf]
      split <;> rfl

/-- What is done with a leaf is done after reading it. -/
theorem leaf_bind
    (frame : Frame)
    (next : Element → Inquiry α)
    (f : α → Inquiry β) :
    (leaf v s frame next).bind f = leaf v s frame fun element => (next element).bind f := by
  unfold leaf
  cases frame.error with
  | some reason => rfl
  | none =>
      dsimp only
      split
      · exact finishLeaf_bind ..
      · simp only [Inquiry.bind, finishLeaf_bind]
      · simp only [Inquiry.bind, finishLeaf_bind]

/-- What is done with a stretch is done after reading it. -/
theorem siblings_bind
    (fuel : Nat)
    (zone : Zone)
    (pos : Nat)
    (seen : Bool)
    (next : Stretch → Inquiry α)
    (f : α → Inquiry β) :
    (siblings v s fuel zone pos seen next).bind f =
      siblings v s fuel zone pos seen fun stretch => (next stretch).bind f := by
  induction fuel generalizing α zone pos seen with
  | zero => rfl
  | succ fuel ih =>
      simp only [siblings]
      split
      · rfl
      · simp only [Inquiry.bind]
        congr 2
        funext bytes
        cases heading bytes with
        | error reason =>
            dsimp only
            split
            · rfl
            · split <;> rfl
        | ok heading =>
            dsimp only
            split
            · rfl
            · cases approach v s zone (zone.frameAt pos heading) with
              | fails offset reason => rfl
              | settles content => exact ih ..
              | goesOn how =>
                  cases how with
                  | asLeaf => simp only [Inquiry.bind, leaf_bind, ih]
                  | asMaster =>
                      simp only [Inquiry.bind]
                      congr 1
                      split
                      · rfl
                      · exact ih ..
                      · simp only [ih]

end Scan

namespace Zone

variable (zone : Zone) (pos : Nat) (heading : Heading)

@[simp] theorem frameAt_id : (zone.frameAt pos heading).id = heading.id := by
  unfold frameAt
  cases heading.size with
  | known length =>
      dsimp only
      split <;> rfl
  | unknown => rfl

@[simp] theorem frameAt_heading :
    (zone.frameAt pos heading).heading = ⟨pos, heading.length⟩ := by
  unfold frameAt
  cases heading.size with
  | known length =>
      dsimp only
      split <;> rfl
  | unknown => rfl

@[simp] theorem frameAt_declared : (zone.frameAt pos heading).declared = heading.size := by
  unfold frameAt
  cases hsize : heading.size with
  | known length =>
      dsimp only
      split <;> rfl
  | unknown => rfl

@[simp] theorem frameAt_data_start :
    (zone.frameAt pos heading).data.start = pos + heading.length := by
  unfold frameAt
  cases heading.size with
  | known length =>
      dsimp only
      split <;> rfl
  | unknown => rfl

variable {zone pos heading}

/-- A payload of unknown size reaches to the end of the zone. -/
theorem frameAt_of_unknown (h : heading.size = .unknown) :
    (zone.frameAt pos heading).data.length = zone.stop - (pos + heading.length) ∧
      (zone.frameAt pos heading).error = none := by
  unfold frameAt
  rw [h]
  exact ⟨rfl, rfl⟩

/-- A payload of known size is whole, or is clipped at the end of the zone. -/
theorem frameAt_of_known
    {length : Nat}
    (h : heading.size = .known length) :
    (length ≤ zone.stop - (pos + heading.length) ∧
        (zone.frameAt pos heading).data.length = length ∧
        (zone.frameAt pos heading).error = none) ∨
      (zone.stop - (pos + heading.length) < length ∧
        (zone.frameAt pos heading).data.length = zone.stop - (pos + heading.length) ∧
        (zone.frameAt pos heading).error =
          some (.overrunsParent length (zone.stop - (pos + heading.length)))) := by
  unfold frameAt
  rw [h]
  dsimp only
  split
  · rename_i hfits
    exact Or.inl ⟨hfits, rfl, rfl⟩
  · rename_i hover
    exact Or.inr ⟨by omega, rfl, rfl⟩

theorem frameAt_data_length_le :
    (zone.frameAt pos heading).data.length ≤ zone.stop - (pos + heading.length) := by
  cases hsize : heading.size with
  | known length =>
      have hknown := @frameAt_of_known zone pos heading length hsize
      rcases hknown with ⟨hfits, hlength, _⟩ | ⟨_, hlength, _⟩
      · rw [hlength]
        exact hfits
      · exact Nat.le_of_eq hlength
  | unknown => exact Nat.le_of_eq (frameAt_of_unknown hsize).1

@[simp] theorem inside_path (frame : Frame) : (zone.inside frame).path = frame.id :: zone.path :=
  rfl

@[simp] theorem inside_stop (frame : Frame) : (zone.inside frame).stop = frame.data.stop := rfl

@[simp] theorem inside_isOpen (frame : Frame) :
    (zone.inside frame).isOpen = (frame.declared == .unknown) := rfl

end Zone

namespace Frame

variable (frame : Frame) (stop : Nat)

@[simp] theorem closedAt_id : (frame.closedAt stop).id = frame.id := by
  unfold closedAt
  split <;> rfl

@[simp] theorem closedAt_heading : (frame.closedAt stop).heading = frame.heading := by
  unfold closedAt
  split <;> rfl

@[simp] theorem closedAt_declared : (frame.closedAt stop).declared = frame.declared := by
  unfold closedAt
  split <;> rfl

@[simp] theorem closedAt_data_start : (frame.closedAt stop).data.start = frame.data.start := by
  unfold closedAt
  split <;> rfl

theorem closedAt_of_known
    {frame : Frame}
    {length : Nat}
    (h : frame.declared = .known length) :
    frame.closedAt stop = frame := by
  unfold closedAt
  rw [h]
  rfl

theorem closedAt_stop_of_unknown
    {frame : Frame}
    {stop : Nat}
    (h : frame.declared = .unknown)
    (hstop : frame.data.start ≤ stop) :
    (frame.closedAt stop).data.stop = stop := by
  unfold closedAt
  rw [if_pos h]
  simp only [Span.stop]
  omega

end Frame

/-- The element of `zone` at `pos` has that heading, and does not close the zone. -/
structure Opens (c : Contents) (v : Vocabulary) (zone : Zone) (pos : Nat) (heading : Heading) :
    Prop where
  inside : pos < zone.stop
  reads : c.headingAt zone.stop pos = .ok heading
  stays : (zone.isOpen && v.closes zone.path heading.id) = false

/-- An element whose heading was read becomes a leaf. -/
inductive Settles (c : Contents) (v : Vocabulary) (s : Settings) (zone : Zone) (frame : Frame)
    (seen : Bool) : Element → Prop
  /-- It is given up, since nothing tells where it ends. -/
  | givenUp
      {content : Content}
      (happroach : Scan.approach v s zone frame = .settles content) :
      Settles c v s zone frame seen (.leaf frame content)
  /-- Its payload is read. -/
  | leaf
      {element : Element}
      (happroach : Scan.approach v s zone frame = .goesOn .asLeaf)
      (hleaf : (Scan.leaf v s frame .done).answer c = .ok element) :
      Settles c v s zone frame seen element
  /-- It is a container that is not entered. -/
  | shut
      {content : Content}
      (happroach : Scan.approach v s zone frame = .goesOn .asMaster)
      (hentry : Scan.entry v s zone frame seen = .settles content) :
      Settles c v s zone frame seen (.leaf frame content)

/-- Whether a skippable container counts as opened for an element of the zone. -/
def Zone.carries (zone : Zone) (seen : Bool) : Bool :=
  seen && !zone.path.isEmpty

/-- The element that a container becomes once its contents were read, to keep them or
only for its end. -/
def Frame.contained (frame : Frame) (kept : Bool) (contents : Stretch) : Element :=
  if kept then .master (frame.closedAt contents.stop) contents.elements
  else .leaf (frame.closedAt contents.stop) .skipped

@[simp] theorem Frame.contained_frame (frame : Frame) (kept : Bool) (contents : Stretch) :
    (frame.contained kept contents).frame = frame.closedAt contents.stop := by
  cases kept <;> rfl

/-- The stretches that a zone can be read as, from a position on. -/
inductive Reads (c : Contents) (v : Vocabulary) (s : Settings) :
    Zone → Nat → Bool → Stretch → Prop
  | ended
      {zone : Zone} {pos : Nat} {seen : Bool}
      (hend : zone.stop ≤ pos) :
      Reads c v s zone pos seen ⟨.nil, pos, seen⟩
  | closed
      {zone : Zone} {pos : Nat} {seen : Bool} {heading : Heading}
      (hinside : pos < zone.stop)
      (hreads : c.headingAt zone.stop pos = .ok heading)
      (hopen : zone.isOpen = true)
      (hcloses : v.closes zone.path heading.id = true) :
      Reads c v s zone pos seen ⟨.nil, pos, seen⟩
  | unreadable
      {zone : Zone} {pos : Nat} {seen : Bool} {reason : Defect}
      (hinside : pos < zone.stop)
      (hreads : c.headingAt zone.stop pos = .error reason)
      (hdeclared : zone.isOpen = false)
      (hlenient : s.isStrict = false) :
      Reads c v s zone pos seen
        ⟨.cons (.placeholder pos (zone.stop - pos) reason) .nil, zone.stop, seen⟩
  | leaf
      {zone : Zone} {pos : Nat} {seen : Bool} {heading : Heading} {element : Element}
      {rest : Stretch}
      (hopens : Opens c v zone pos heading)
      (hsettles :
        Settles c v s zone (zone.frameAt pos heading) (zone.carries seen) element)
      (hrest : Reads c v s zone element.stop (zone.carries seen) rest) :
      Reads c v s zone pos seen { rest with elements := .cons element rest.elements }
  | entered
      {zone : Zone} {pos : Nat} {seen kept : Bool} {heading : Heading} {frame : Frame}
      {contents rest : Stretch}
      (hopens : Opens c v zone pos heading)
      (hframe : frame = zone.frameAt pos heading)
      (happroach : Scan.approach v s zone frame = .goesOn .asMaster)
      (hentry : Scan.entry v s zone frame (zone.carries seen) = .goesOn kept)
      (hcontents :
        Reads c v s (zone.inside frame) frame.data.start
          (Scan.seenInside v s frame (zone.carries seen)) contents)
      (hrest : Reads c v s zone (frame.closedAt contents.stop).data.stop contents.seen rest) :
      Reads c v s zone pos seen
        { rest with elements := .cons (frame.contained kept contents) rest.elements }

theorem Scan.heading_eq_ok
    {bytes : Bytes}
    {found : Heading}
    (h : heading bytes = .ok found) :
    Heading.decode bytes = .ok (some found) := by
  unfold heading at h
  split at h
  · rename_i decoded hdecode
    simp only [Except.ok.injEq] at h
    rw [hdecode, h]
  · simp at h
  · simp at h

/-- A heading that was read lies inside its zone. -/
theorem Opens.bounds
    {c : Contents}
    {v : Vocabulary}
    {zone : Zone}
    {pos : Nat}
    {heading : Heading}
    (h : Opens c v zone pos heading) :
    2 ≤ heading.length ∧ pos + heading.length ≤ zone.stop := by
  have hinside := h.inside
  obtain ⟨htwo, _, hlength⟩ := Heading.decode_bounds (Scan.heading_eq_ok h.reads)
  rw [Contents.length_slice] at hlength
  omega

section Frames

variable {c : Contents} {v : Vocabulary} {s : Settings} {zone : Zone} {pos : Nat}
  {heading : Heading} {frame : Frame} {seen : Bool} {element : Element}

/-- The payload of an element lies behind its heading and inside its zone. -/
theorem Opens.data_bounds (h : Opens c v zone pos heading) :
    pos + 2 ≤ (zone.frameAt pos heading).data.start ∧
      (zone.frameAt pos heading).data.start ≤ (zone.frameAt pos heading).data.stop ∧
      (zone.frameAt pos heading).data.stop ≤ zone.stop := by
  obtain ⟨htwo, hlength⟩ := h.bounds
  have hdata := @Zone.frameAt_data_length_le zone pos heading
  simp only [Span.stop, Zone.frameAt_data_start]
  omega

theorem isMaster_of_approach (h : Scan.approach v s zone frame = .goesOn .asMaster) :
    v.isMaster frame.id = true := by
  simp only [Scan.approach] at h
  split at h
  · simp at h
  · split at h
    · rename_i hmaster
      exact hmaster
    · split at h
      · simp only [Scan.giveUp, Scan.settle] at h
        split at h
        · simp at h
        · split at h <;> simp at h
      · simp at h

theorem not_isMaster_of_approach (h : Scan.approach v s zone frame = .goesOn .asLeaf) :
    v.isMaster frame.id = false := by
  simp only [Scan.approach] at h
  split at h
  · simp at h
  · split at h
    · simp at h
    · rename_i hmaster
      simpa using hmaster

/-- Only leaves of unknown size are given up before they are looked into. -/
theorem unknown_of_approach
    {content : Content}
    (h : Scan.approach v s zone frame = .settles content) :
    v.isMaster frame.id = false ∧ frame.declared = .unknown := by
  simp only [Scan.approach] at h
  split at h
  · simp at h
  · split at h
    · simp at h
    · rename_i hmaster
      split at h
      · rename_i hunknown
        exact ⟨by simpa using hmaster, hunknown⟩
      · simp at h

/-- A leaf keeps its frame, but for the defect of a clipped one, which becomes its
content. -/
theorem leaf_shape (h : (Scan.leaf v s frame .done).answer c = .ok element) :
    (∃ reason, frame.error = some reason ∧
        element = .leaf { frame with error := none } (.corrupt reason)) ∨
      (frame.error = none ∧ ∃ content, element = .leaf frame content) := by
  have hfinish : ∀ payload, (Scan.finishLeaf s frame payload .done).answer c = .ok element →
      ∃ content, element = .leaf frame content := by
    intro payload hpayload
    cases payload with
    | ok value =>
        simp only [Scan.finishLeaf, Inquiry.answer, Except.ok.injEq] at hpayload
        exact ⟨_, hpayload.symm⟩
    | error reason =>
        simp only [Scan.finishLeaf] at hpayload
        split at hpayload
        · simp [Inquiry.answer] at hpayload
        · simp only [Inquiry.answer, Except.ok.injEq] at hpayload
          exact ⟨_, hpayload.symm⟩
  unfold Scan.leaf at h
  cases herror : frame.error with
  | some reason =>
      simp only [herror, Inquiry.answer, Except.ok.injEq] at h
      exact Or.inl ⟨reason, rfl, h.symm⟩
  | none =>
      simp only [herror] at h
      refine Or.inr ⟨rfl, ?_⟩
      split at h
      · exact hfinish _ h
      · exact hfinish _ (Inquiry.answer_fetch_eq_ok.mp h).2
      · exact hfinish _ (Inquiry.answer_fetch_eq_ok.mp h).2

/-- What becomes of an element that is not entered: its frame stays, but for the defect
of a clipped leaf. -/
theorem Settles.shape (h : Settles c v s zone frame seen element) :
    (∃ content, element = .leaf frame content ∧
        (v.isMaster frame.id = true ∨ frame.error = none ∨ frame.declared = .unknown)) ∨
      (v.isMaster frame.id = false ∧
        ∃ reason, frame.error = some reason ∧
          element = .leaf { frame with error := none } (.corrupt reason)) := by
  cases h with
  | givenUp happroach =>
      exact Or.inl ⟨_, rfl, Or.inr (Or.inr (unknown_of_approach happroach).2)⟩
  | shut happroach hentry =>
      exact Or.inl ⟨_, rfl, Or.inl (isMaster_of_approach happroach)⟩
  | leaf happroach hleaf =>
      rcases leaf_shape hleaf with hclipped | ⟨hwhole, content, helement⟩
      · exact Or.inr ⟨not_isMaster_of_approach happroach, hclipped⟩
      · exact Or.inl ⟨content, helement, Or.inr (Or.inl hwhole)⟩

theorem Settles.exists_leaf (h : Settles c v s zone frame seen element) :
    ∃ frame content, element = .leaf frame content := by
  rcases h.shape with ⟨content, hleaf, _⟩ | ⟨_, reason, _, hleaf⟩
  · exact ⟨_, content, hleaf⟩
  · exact ⟨_, _, hleaf⟩

/-- An element that is not entered keeps its place. -/
theorem Settles.keeps (h : Settles c v s zone frame seen element) :
    element.frame.id = frame.id ∧ element.frame.heading = frame.heading ∧
      element.frame.declared = frame.declared ∧ element.frame.data = frame.data := by
  rcases h.shape with ⟨content, rfl, _⟩ | ⟨_, reason, _, rfl⟩
  · exact ⟨rfl, rfl, rfl, rfl⟩
  · exact ⟨rfl, rfl, rfl, rfl⟩

end Frames

section Answers

variable {c : Contents} {v : Vocabulary} {s : Settings}

/-- A container that was read takes up more than its heading, and stays in its zone. -/
theorem Opens.closed_bounds
    {zone : Zone}
    {pos stop : Nat}
    {heading : Heading}
    (h : Opens c v zone pos heading)
    (hlow : (zone.frameAt pos heading).data.start ≤ stop)
    (hhigh : stop ≤ (zone.frameAt pos heading).data.stop) :
    pos + 2 ≤ ((zone.frameAt pos heading).closedAt stop).data.stop ∧
      ((zone.frameAt pos heading).closedAt stop).data.stop ≤ zone.stop := by
  obtain ⟨hstart, hdata, hstop⟩ := h.data_bounds
  cases hdeclared : (zone.frameAt pos heading).declared with
  | known length =>
      rw [Frame.closedAt_of_known stop hdeclared]
      omega
  | unknown =>
      rw [Frame.closedAt_stop_of_unknown hdeclared hlow]
      omega

/-- Reading never goes back and stays inside the zone. -/
theorem Reads.bounds
    {zone : Zone}
    {pos : Nat}
    {seen : Bool}
    {r : Stretch}
    (h : Reads c v s zone pos seen r) :
    pos ≤ r.stop ∧ (pos ≤ zone.stop → r.stop ≤ zone.stop) := by
  induction h with
  | ended hend => exact ⟨Nat.le_refl _, id⟩
  | closed hinside hreads hopen hcloses => exact ⟨Nat.le_refl _, id⟩
  | unreadable hinside hreads hdeclared hlenient =>
      exact ⟨Nat.le_of_lt hinside, fun _ => Nat.le_refl _⟩
  | @leaf zone pos seen heading element rest hopens hsettles hrest ih =>
      obtain ⟨hstart, hdata, hstop⟩ := hopens.data_bounds
      obtain ⟨_, _, _, hspan⟩ := hsettles.keeps
      have helement : element.stop = (zone.frameAt pos heading).data.stop := by
        rw [Element.stop, hspan]
      rw [helement] at ih
      exact ⟨by dsimp only; omega, fun _ => ih.2 hstop⟩
  | @entered zone pos seen kept heading frame contents rest hopens hframe _ _ _ _
      ihContents ihRest =>
      obtain ⟨hstart, hdata, hstop⟩ := hopens.data_bounds
      subst hframe
      obtain ⟨hlow, hhigh⟩ := ihContents
      obtain ⟨hforward, hinside⟩ := hopens.closed_bounds hlow (hhigh hdata)
      exact ⟨by dsimp only; omega, fun _ => ihRest.2 hinside⟩

/-- At the end of a zone there is nothing to read. -/
theorem Reads.eq_of_end
    {zone : Zone}
    {pos : Nat}
    {seen : Bool}
    {r : Stretch}
    (h : Reads c v s zone pos seen r)
    (hend : zone.stop ≤ pos) :
    r = ⟨.nil, pos, seen⟩ := by
  cases h with
  | ended _ => rfl
  | closed hinside _ _ _ => omega
  | unreadable hinside _ _ _ => omega
  | leaf hopens _ _ =>
      have hinside := hopens.inside
      omega
  | entered hopens _ _ _ _ _ =>
      have hinside := hopens.inside
      omega

/-- Reading stops at the end of the zone, or in an open one before a heading that
closes it. -/
theorem Reads.stop_cases
    {zone : Zone}
    {pos : Nat}
    {seen : Bool}
    {r : Stretch}
    (h : Reads c v s zone pos seen r)
    (hpos : pos ≤ zone.stop) :
    r.stop = zone.stop ∨
      (r.stop < zone.stop ∧ zone.isOpen = true ∧
        ∃ heading, c.headingAt zone.stop r.stop = .ok heading ∧
          v.closes zone.path heading.id = true) := by
  induction h with
  | ended hend => exact Or.inl (by dsimp only; omega)
  | closed hinside hreads hopen hcloses =>
      exact Or.inr ⟨hinside, hopen, _, hreads, hcloses⟩
  | unreadable hinside hreads hdeclared hlenient => exact Or.inl rfl
  | @leaf zone pos seen heading element rest hopens hsettles hrest ih =>
      obtain ⟨_, _, hstop⟩ := hopens.data_bounds
      obtain ⟨_, _, _, hspan⟩ := hsettles.keeps
      refine ih ?_
      rw [Element.stop, hspan]
      exact hstop
  | @entered zone pos seen kept heading frame contents rest hopens hframe _ _ hcontents _
      _ ih =>
      obtain ⟨_, hdata, _⟩ := hopens.data_bounds
      subst hframe
      obtain ⟨hlow, hhigh⟩ := hcontents.bounds
      exact ih (hopens.closed_bounds hlow (hhigh hdata)).2

/-- The payload of a container that was read ends where its contents do. -/
theorem Opens.closed_stop
    {zone : Zone}
    {pos : Nat}
    {seen : Bool}
    {heading : Heading}
    {contents : Stretch}
    (h : Opens c v zone pos heading)
    (hcontents :
      Reads c v s (zone.inside (zone.frameAt pos heading))
        (zone.frameAt pos heading).data.start seen contents) :
    ((zone.frameAt pos heading).closedAt contents.stop).data.stop = contents.stop := by
  obtain ⟨_, hdata, _⟩ := h.data_bounds
  cases hdeclared : (zone.frameAt pos heading).declared with
  | known length =>
      rw [Frame.closedAt_of_known _ hdeclared]
      rcases hcontents.stop_cases hdata with hstop | ⟨_, hopen, _⟩
      · exact hstop.symm
      · rw [Zone.inside_isOpen, hdeclared] at hopen
        simp at hopen
  | unknown => exact Frame.closedAt_stop_of_unknown hdeclared hcontents.bounds.1

/-- A stretch is read first, and then handed on. -/
theorem answer_siblings_eq_ok
    {α : Type}
    {fuel : Nat}
    {zone : Zone}
    {pos : Nat}
    {seen : Bool}
    {next : Stretch → Inquiry α}
    {result : α} :
    (Scan.siblings v s fuel zone pos seen next).answer c = .ok result ↔
      ∃ r, (Scan.siblings v s fuel zone pos seen .done).answer c = .ok r ∧
        (next r).answer c = .ok result := by
  rw [← Inquiry.answer_bind_eq_ok, Scan.siblings_bind]
  rfl

/-- A leaf is read first, and then handed on. -/
theorem answer_leaf_eq_ok
    {α : Type}
    {frame : Frame}
    {next : Element → Inquiry α}
    {result : α} :
    (Scan.leaf v s frame next).answer c = .ok result ↔
      ∃ element, (Scan.leaf v s frame .done).answer c = .ok element ∧
        (next element).answer c = .ok result := by
  rw [← Inquiry.answer_bind_eq_ok, Scan.leaf_bind]
  rfl

namespace Scan

variable (v s)

/-- Goes on behind an element of the zone, which is put in front of what follows it. -/
def proceed {α : Type} (fuel : Nat) (zone : Zone) (next : Stretch → Inquiry α)
    (element : Element) (seen : Bool) : Inquiry α :=
  siblings v s fuel zone element.stop seen fun rest =>
    next { rest with elements := .cons element rest.elements }

/-- Reads the element of the zone that has the given heading and frame, and goes on. -/
def element {α : Type} (fuel : Nat) (zone : Zone) (frame : Frame) (seen : Bool)
    (next : Stretch → Inquiry α) : Inquiry α :=
  match approach v s zone frame with
  | .fails offset reason => .fail offset reason
  | .settles content => proceed v s fuel zone next (.leaf frame content) seen
  | .goesOn .asLeaf =>
      .checkpoint <| leaf v s frame fun element => proceed v s fuel zone next element seen
  | .goesOn .asMaster =>
      .checkpoint <|
        match entry v s zone frame seen with
        | .fails offset reason => .fail offset reason
        | .settles content => proceed v s fuel zone next (.leaf frame content) seen
        | .goesOn kept =>
            siblings v s fuel (zone.inside frame) frame.data.start (seenInside v s frame seen)
              fun contents =>
                proceed v s fuel zone next (frame.contained kept contents) contents.seen

variable {v s}

variable {fuel : Nat} {zone : Zone} {frame : Frame} {pos : Nat} {seen : Bool} {r : Stretch}

/-- Inside a zone, what is read depends on the heading found there. -/
theorem answer_siblings_succ_eq_ok (hinside : pos < zone.stop) :
    (siblings v s (fuel + 1) zone pos seen .done).answer c = .ok r ↔
      pos + min Heading.maxLength (zone.stop - pos) ≤ c.length ∧
        (match c.headingAt zone.stop pos with
          | .error reason =>
              if zone.isOpen then .fail pos .boundaryUnresolvable
              else if s.isStrict then .fail pos reason
              else
                .done ⟨.cons (.placeholder pos (zone.stop - pos) reason) .nil, zone.stop, seen⟩
          | .ok heading =>
              if zone.isOpen && v.closes zone.path heading.id then .done ⟨.nil, pos, seen⟩
              else
                element v s fuel zone (zone.frameAt pos heading) (zone.carries seen) .done :
          Inquiry Stretch).answer c = .ok r := by
  rw [siblings, if_neg (Nat.not_le.mpr hinside), Inquiry.answer_checkpoint,
    Inquiry.answer_fetch_eq_ok]
  rfl

theorem answer_proceed_eq_ok {first : Element} :
    (proceed v s fuel zone .done first seen).answer c = .ok r ↔
      ∃ rest, (siblings v s fuel zone first.stop seen .done).answer c = .ok rest ∧
        r = { rest with elements := .cons first rest.elements } := by
  unfold proceed
  rw [answer_siblings_eq_ok]
  simp only [Inquiry.answer, Except.ok.injEq, eq_comm]

/-- An element is read as a leaf, or as a container together with its contents. -/
theorem answer_element_eq_ok :
    (element v s fuel zone frame seen .done).answer c = .ok r ↔
      (∃ first, Settles c v s zone frame seen first ∧
          (proceed v s fuel zone .done first seen).answer c = .ok r) ∨
        ∃ kept contents, approach v s zone frame = .goesOn .asMaster ∧
          entry v s zone frame seen = .goesOn kept ∧
          (siblings v s fuel (zone.inside frame) frame.data.start (seenInside v s frame seen)
            .done).answer c = .ok contents ∧
          (proceed v s fuel zone .done (frame.contained kept contents) contents.seen).answer c =
            .ok r := by
  unfold element
  constructor
  · intro h
    split at h
    · simp [Inquiry.answer] at h
    · rename_i content happroach
      exact Or.inl ⟨_, .givenUp happroach, h⟩
    · rename_i happroach
      obtain ⟨first, hleaf, hrest⟩ := answer_leaf_eq_ok.mp h
      exact Or.inl ⟨first, .leaf happroach hleaf, hrest⟩
    · rename_i happroach
      simp only [Inquiry.answer] at h
      split at h
      · simp [Inquiry.answer] at h
      · rename_i content hentry
        exact Or.inl ⟨_, .shut happroach hentry, h⟩
      · rename_i kept hentry
        obtain ⟨contents, hcontents, hrest⟩ := answer_siblings_eq_ok.mp h
        exact Or.inr ⟨kept, contents, happroach, hentry, hcontents, hrest⟩
  · rintro (⟨first, hsettles, hrest⟩ | ⟨kept, contents, happroach, hentry, hcontents, hrest⟩)
    · cases hsettles with
      | givenUp happroach => simpa only [happroach] using hrest
      | leaf happroach hleaf =>
          simp only [happroach, Inquiry.answer]
          exact answer_leaf_eq_ok.mpr ⟨first, hleaf, hrest⟩
      | shut happroach hentry => simpa only [happroach, hentry, Inquiry.answer] using hrest
    · simp only [happroach, hentry, Inquiry.answer]
      exact answer_siblings_eq_ok.mpr ⟨contents, hcontents, hrest⟩

end Scan

/-- What an inquiry into a zone answers is what the zone can be read as.  Each element
takes up more bytes than the one unit of fuel that it costs. -/
theorem Reads.of_answer
    {fuel : Nat}
    {zone : Zone}
    {pos : Nat}
    {seen : Bool}
    {r : Stretch}
    (hfuel : zone.stop ≤ pos + fuel)
    (h : (Scan.siblings v s fuel zone pos seen .done).answer c = .ok r) :
    Reads c v s zone pos seen r := by
  induction fuel generalizing zone pos seen r with
  | zero =>
      simp only [Scan.siblings, Inquiry.answer, Except.ok.injEq] at h
      rw [← h]
      exact .ended hfuel
  | succ fuel ih =>
      by_cases hend : zone.stop ≤ pos
      · simp only [Scan.siblings, if_pos hend, Inquiry.answer, Except.ok.injEq] at h
        rw [← h]
        exact .ended hend
      · have hinside : pos < zone.stop := Nat.lt_of_not_le hend
        replace h := ((Scan.answer_siblings_succ_eq_ok hinside).mp h).2
        split at h
        · rename_i reason hreads
          cases hopen : zone.isOpen with
          | true => simp [hopen, Inquiry.answer] at h
          | false =>
              cases hstrict : s.isStrict with
              | true => simp [hopen, hstrict, Inquiry.answer] at h
              | false =>
                  simp only [hopen, hstrict, Bool.false_eq_true, if_false, Inquiry.answer,
                    Except.ok.injEq] at h
                  rw [← h]
                  exact .unreadable hinside hreads hopen hstrict
        · rename_i heading hreads
          split at h
          · rename_i hcloses
            obtain ⟨hopen, hcloses⟩ := Bool.and_eq_true_iff.mp hcloses
            simp only [Inquiry.answer, Except.ok.injEq] at h
            rw [← h]
            exact .closed hinside hreads hopen hcloses
          · rename_i hstays
            have hopens : Opens c v zone pos heading := ⟨hinside, hreads, by simpa using hstays⟩
            obtain ⟨hstart, hdata, hstop⟩ := hopens.data_bounds
            rcases Scan.answer_element_eq_ok.mp h with
              ⟨first, hsettles, hproceed⟩ |
              ⟨kept, contents, happroach, hentry, hcontents, hproceed⟩
            · obtain ⟨rest, hrest, rfl⟩ := Scan.answer_proceed_eq_ok.mp hproceed
              obtain ⟨_, _, _, hspan⟩ := hsettles.keeps
              refine .leaf hopens hsettles (ih ?_ hrest)
              rw [Element.stop, hspan]
              omega
            · obtain ⟨rest, hrest, rfl⟩ := Scan.answer_proceed_eq_ok.mp hproceed
              have hcontents := ih (by rw [Zone.inside_stop]; omega) hcontents
              obtain ⟨hlow, hhigh⟩ := hcontents.bounds
              obtain ⟨hforward, _⟩ := hopens.closed_bounds hlow (hhigh hdata)
              refine .entered hopens rfl happroach hentry hcontents ?_
              rw [Element.stop, Frame.contained_frame] at hrest
              exact ih (by omega) hrest

/-- A zone that lies inside the contents can be read to its end with fuel for its
length. -/
theorem Reads.answer
    {fuel : Nat}
    {zone : Zone}
    {pos : Nat}
    {seen : Bool}
    {r : Stretch}
    (h : Reads c v s zone pos seen r)
    (hlength : zone.stop ≤ c.length)
    (hfuel : zone.stop ≤ pos + fuel) :
    (Scan.siblings v s fuel zone pos seen .done).answer c = .ok r := by
  induction h generalizing fuel with
  | @ended zone pos seen hend =>
      cases fuel with
      | zero => rfl
      | succ fuel => simp only [Scan.siblings, if_pos hend, Inquiry.answer]
  | @closed zone pos seen heading hinside hreads hopen hcloses =>
      obtain ⟨fuel, rfl⟩ : ∃ less, fuel = less + 1 := ⟨fuel - 1, by omega⟩
      refine (Scan.answer_siblings_succ_eq_ok hinside).mpr ⟨by omega, ?_⟩
      simp only [hreads, hopen, hcloses, Bool.and_self, if_true, Inquiry.answer]
  | @unreadable zone pos seen reason hinside hreads hdeclared hlenient =>
      obtain ⟨fuel, rfl⟩ : ∃ less, fuel = less + 1 := ⟨fuel - 1, by omega⟩
      refine (Scan.answer_siblings_succ_eq_ok hinside).mpr ⟨by omega, ?_⟩
      simp only [hreads, hdeclared, hlenient, Bool.false_eq_true, if_false, Inquiry.answer]
  | @leaf zone pos seen heading first rest hopens hsettles hrest ih =>
      have hinside := hopens.inside
      obtain ⟨fuel, rfl⟩ : ∃ less, fuel = less + 1 := ⟨fuel - 1, by omega⟩
      refine (Scan.answer_siblings_succ_eq_ok hinside).mpr ⟨by omega, ?_⟩
      simp only [hopens.reads, hopens.stays, Bool.false_eq_true, if_false]
      refine Scan.answer_element_eq_ok.mpr (Or.inl ⟨first, hsettles, ?_⟩)
      refine Scan.answer_proceed_eq_ok.mpr ⟨rest, ih hlength ?_, rfl⟩
      obtain ⟨hstart, hdata, hstop⟩ := hopens.data_bounds
      obtain ⟨_, _, _, hspan⟩ := hsettles.keeps
      rw [Element.stop, hspan]
      omega
  | @entered zone pos seen kept heading frame contents rest hopens hframe happroach hentry
      hcontents hrest ihContents ihRest =>
      have hinside := hopens.inside
      obtain ⟨fuel, rfl⟩ : ∃ less, fuel = less + 1 := ⟨fuel - 1, by omega⟩
      refine (Scan.answer_siblings_succ_eq_ok hinside).mpr ⟨by omega, ?_⟩
      simp only [hopens.reads, hopens.stays, Bool.false_eq_true, if_false]
      subst hframe
      obtain ⟨hstart, hdata, hstop⟩ := hopens.data_bounds
      obtain ⟨hlow, hhigh⟩ := hcontents.bounds
      obtain ⟨hforward, _⟩ := hopens.closed_bounds hlow (hhigh hdata)
      refine Scan.answer_element_eq_ok.mpr
        (Or.inr ⟨kept, contents, happroach, hentry, ihContents ?_ ?_, ?_⟩)
      · rw [Zone.inside_stop]
        omega
      · rw [Zone.inside_stop]
        omega
      · refine Scan.answer_proceed_eq_ok.mpr ⟨rest, ?_, rfl⟩
        rw [Element.stop, Frame.contained_frame]
        exact ihRest hlength (by omega)

/-- A scan gives the elements that the whole contents, as one zone, can be read as. -/
theorem Contents.scan_eq_ok_iff {forest : Forest} :
    c.scan v s = .ok forest ↔
      ∃ r, Reads c v s ⟨[], false, c.length⟩ 0 false r ∧ r.elements = forest := by
  unfold Contents.scan Scan.whole
  rw [answer_siblings_eq_ok]
  simp only [Inquiry.answer, Except.ok.injEq]
  constructor
  · rintro ⟨r, hanswer, helements⟩
    exact ⟨r, .of_answer (by dsimp only; omega) hanswer, helements⟩
  · rintro ⟨r, hreads, helements⟩
    exact ⟨r, hreads.answer (Nat.le_refl _) (by dsimp only; omega), helements⟩

end Answers

end EbmlReport
