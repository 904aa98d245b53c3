import EbmlReport.Proofs.Boundary
import EbmlReport.Proofs.Failing

/-!
# Reading depends on the bytes that are read

What a zone is read as depends on the bytes from where reading began to where it stopped,
and on the heading there when that closes the zone.  A look-ahead goes further, but a
heading that was found does not depend on the bytes behind it.

The end of a zone matters to the elements that reach it: a clipped one, one of unknown
size that nothing closes, and a stand-in.  All others are read the same when the zone ends
elsewhere.

**Results.**
* `Contents.headingAt_eq`: a look-ahead of twelve bytes is enough.
* `Contents.SameOn.headingAt`: a heading is found wherever its bytes stand.
* `Reads.transfer`: a stretch is read the same from other contents, and in a zone with
  another end.
* `Yields.transfer`: so is a single element.
-/

namespace EbmlReport

namespace Contents

/-- The two contents hold the same bytes from `start` up to `stop`. -/
def SameOn (c c' : Contents) (start stop : Nat) : Prop :=
  ∀ i, start ≤ i → i < stop → c'.byteAt i = c.byteAt i

/-- A heading that is found at `pos` before `stop` is found there in the other contents before
`stop'`. -/
def FindsAgain (c c' : Contents) (stop stop' pos : Nat) : Prop :=
  ∀ heading, c.headingAt stop pos = .ok heading → c'.headingAt stop' pos = .ok heading

variable {c c' : Contents} {start stop pos offset length : Nat}

theorem SameOn.mono
    {low high : Nat}
    (h : c.SameOn c' start stop)
    (hlow : start ≤ low)
    (hhigh : high ≤ stop) :
    c.SameOn c' low high := by
  intro i hi hi'
  exact h i (by omega) (by omega)

theorem SameOn.slice_eq (h : c.SameOn c' offset (offset + length)) :
    c'.slice offset length = c.slice offset length := by
  unfold slice
  refine List.map_congr_left ?_
  intro i hi
  rw [List.mem_range'_1] at hi
  exact h i hi.1 hi.2

theorem take_slice
    {taken : Nat}
    (h : taken ≤ length) :
    (c.slice offset length).take taken = c.slice offset taken := by
  have hinside : 0 + taken ≤ length := by omega
  have htake := c.take_drop_slice offset length hinside
  rwa [List.drop_zero, Nat.add_zero] at htake

/-- The look-ahead for a heading sees all that matters of the zone. -/
theorem headingAt_eq (c : Contents) (stop pos : Nat) :
    c.headingAt stop pos = Scan.heading (c.slice pos (stop - pos)) := by
  have hahead : c.slice pos (min Heading.maxLength (stop - pos)) =
      (c.slice pos (stop - pos)).take Heading.maxLength := by
    rw [List.take_eq_take_min, length_slice, take_slice (Nat.min_le_right _ _)]
  unfold headingAt Scan.heading
  rw [hahead, Heading.decode_take (Nat.le_refl _)]

/-- Where no heading can be read inside a zone, its bytes have the defect that is told. -/
theorem decode_of_headingAt_error
    {reason : Defect}
    (hinside : pos < stop)
    (h : c.headingAt stop pos = .error reason) :
    Heading.decode (c.slice pos (stop - pos)) = .error reason := by
  rw [headingAt_eq] at h
  unfold Scan.heading at h
  split at h
  · simp at h
  · rename_i hnone
    have hlength := congrArg List.length (Heading.eq_nil_of_decode hnone)
    rw [length_slice, List.length_nil] at hlength
    omega
  · rename_i hdecode
    rw [hdecode, Except.error.inj h]

/-- A heading that was found lies before the end of the zone. -/
theorem headingAt_bounds
    {heading : Heading}
    (h : c.headingAt stop pos = .ok heading) :
    2 ≤ heading.length ∧ pos + heading.length ≤ stop := by
  obtain ⟨htwo, _, hlength⟩ := Heading.decode_bounds (Scan.heading_eq_ok h)
  rw [length_slice] at hlength
  omega

/-- A heading is found wherever its bytes stand. -/
theorem SameOn.headingAt
    {heading : Heading}
    {stop' : Nat}
    (h : c.SameOn c' pos (pos + heading.length))
    (hreads : c.headingAt stop pos = .ok heading)
    (hinside : pos + heading.length ≤ stop') :
    c'.headingAt stop' pos = .ok heading := by
  have hdecode := Scan.heading_eq_ok hreads
  obtain ⟨_, hmax, hlength⟩ := Heading.decode_bounds hdecode
  rw [length_slice] at hlength
  have hother : Heading.decode (c'.slice pos (min Heading.maxLength (stop' - pos))) =
      .ok (some heading) := by
    refine Heading.decode_of_take hdecode ?_
    rw [take_slice (by omega), take_slice hlength, h.slice_eq]
  unfold Contents.headingAt Scan.heading
  rw [hother]

/-- A heading that was found in a zone is the one that all bytes behind tell. -/
theorem decode_of_headingAt
    {heading : Heading}
    (h : c.headingAt stop pos = .ok heading)
    (hlength : stop ≤ c.length) :
    Heading.decode (c.slice pos (c.length - pos)) = .ok (some heading) := by
  obtain ⟨_, hinside⟩ := headingAt_bounds h
  have hsame : c.SameOn c pos (pos + heading.length) := fun _ _ _ => rfl
  have hagain := hsame.headingAt h (Nat.le_trans hinside hlength)
  rw [headingAt_eq] at hagain
  exact Scan.heading_eq_ok hagain

/-- Where the same bytes stand to the end of a zone, the same heading is found, or none. -/
theorem SameOn.headingAt_eq (h : c.SameOn c' pos stop) :
    c'.headingAt stop pos = c.headingAt stop pos := by
  unfold Contents.headingAt
  by_cases hinside : pos ≤ stop
  · have hsame : c.SameOn c' pos (pos + min Heading.maxLength (stop - pos)) :=
      h.mono (Nat.le_refl _) (by omega)
    rw [hsame.slice_eq]
  · have hnone : stop - pos = 0 := by omega
    rw [hnone, Nat.min_zero, slice_zero, slice_zero]

end Contents

/-- The heading of the element was read, and its payload is as long as it declares. -/
structure Element.IsWhole (e : Element) : Prop where
  heading : 0 < e.frame.heading.length
  declared : e.frame.declared = .known e.frame.data.length

/-- The zone with another end. -/
def Zone.upTo (zone : Zone) (stop : Nat) : Zone :=
  { zone with stop := stop }

/-- An element with that frame stays as it is when its zone ends elsewhere: it lies before
both ends, or before the new one with all that its declared size says. -/
def Zone.Spares (zone : Zone) (stop : Nat) (frame : Frame) : Prop :=
  stop = zone.stop ∨
    (frame.data.stop ≤ stop ∧
      (frame.data.stop < zone.stop ∨ frame.declared = .known frame.data.length))

/-- For a stretch that was read up to `last` the zone might as well end at `stop`: that is
where it ends, or `last` lies before both ends. -/
def Zone.Allows (zone : Zone) (stop last : Nat) : Prop :=
  stop = zone.stop ∨ (last < zone.stop ∧ last ≤ stop)

namespace Zone

variable (zone : Zone) (stop : Nat)

@[simp] theorem upTo_path : (zone.upTo stop).path = zone.path := rfl

@[simp] theorem upTo_isOpen : (zone.upTo stop).isOpen = zone.isOpen := rfl

@[simp] theorem upTo_stop : (zone.upTo stop).stop = stop := rfl

@[simp] theorem upTo_self : zone.upTo zone.stop = zone := rfl

@[simp] theorem upTo_carries (seen : Bool) : (zone.upTo stop).carries seen = zone.carries seen :=
  rfl

variable {zone stop} {pos length : Nat} {heading : Heading}

/-- What ends before the end of such a stretch stays as it is. -/
theorem Allows.spares
    {last : Nat}
    {frame : Frame}
    (h : zone.Allows stop last)
    (hlast : frame.data.stop ≤ last) :
    zone.Spares stop frame := by
  rcases h with rfl | ⟨hinner, houter⟩
  · exact Or.inl rfl
  · exact Or.inr ⟨Nat.le_trans hlast houter, Or.inl (Nat.lt_of_le_of_lt hlast hinner)⟩

theorem Allows.le
    {last : Nat}
    (h : zone.Allows stop last)
    (hlast : last ≤ zone.stop) :
    last ≤ stop := by
  rcases h with rfl | ⟨_, houter⟩
  · exact hlast
  · exact houter

/-- The frame of an element whose declared payload lies before both ends. -/
theorem frameAt_upTo_of_known
    (hsize : heading.size = .known length)
    (hfits : pos + heading.length + length ≤ zone.stop)
    (hfits' : pos + heading.length + length ≤ stop) :
    (zone.upTo stop).frameAt pos heading = zone.frameAt pos heading := by
  unfold frameAt
  rw [hsize]
  dsimp only
  rw [if_pos (by rw [upTo_stop]; omega), if_pos (by omega)]

theorem frameAt_eq_of_unknown (hsize : heading.size = .unknown) :
    zone.frameAt pos heading =
      ⟨heading.id, ⟨pos, heading.length⟩, .unknown,
        ⟨pos + heading.length, zone.stop - (pos + heading.length)⟩, none⟩ := by
  unfold frameAt
  rw [hsize]

/-- An open zone inside another ends where that one does. -/
theorem inside_upTo_of_unknown
    (hsize : heading.size = .unknown)
    (hinside : pos + heading.length ≤ stop) :
    (zone.upTo stop).inside ((zone.upTo stop).frameAt pos heading) =
      (zone.inside (zone.frameAt pos heading)).upTo stop := by
  have hstop : pos + heading.length + (stop - (pos + heading.length)) = stop := by omega
  simp only [frameAt_eq_of_unknown hsize, inside, upTo, Span.stop, hstop]

/-- A container of unknown size ends where its contents do, not with its zone. -/
theorem closedAt_upTo_of_unknown
    (hsize : heading.size = .unknown)
    (close : Nat) :
    ((zone.upTo stop).frameAt pos heading).closedAt close =
      (zone.frameAt pos heading).closedAt close := by
  simp only [frameAt_eq_of_unknown hsize, Frame.closedAt, if_true]

end Zone

section Elements

variable {c c' : Contents} {v : Vocabulary} {s : Settings} {zone : Zone} {pos stop : Nat}
  {seen after : Bool} {element : Element} {frame : Frame} {heading : Heading}
  {r contents : Stretch}

/-- A payload stands for the same wherever its bytes stand. -/
theorem Contents.SameOn.payload_eq
    (h : c.SameOn c' frame.data.start frame.data.stop)
    (v : Vocabulary) :
    c'.payload v frame = c.payload v frame := by
  have hwhole : c.SameOn c' frame.data.start (frame.data.start + frame.data.length) := h
  have hpreview : c.SameOn c' frame.data.start
      (frame.data.start + min (v.previewLength frame.id) frame.data.length) :=
    hwhole.mono (Nat.le_refl _) (by omega)
  unfold Contents.payload
  rw [hwhole.slice_eq, hpreview.slice_eq]

/-- A leaf is the same wherever its payload stands. -/
theorem Settles.transfer
    (h : Settles c v s zone frame seen element)
    (hsame : c.SameOn c' frame.data.start frame.data.stop)
    (hinside : frame.data.stop ≤ c.length)
    (hinside' : frame.data.stop ≤ c'.length)
    (stop : Nat) :
    Settles c' v s (zone.upTo stop) frame seen element := by
  cases h with
  | givenUp happroach => exact .givenUp happroach
  | shut happroach hentry => exact .shut happroach hentry
  | leaf happroach hleaf =>
      refine .leaf happroach ?_
      cases herror : frame.error with
      | some reason =>
          simp only [Scan.leaf, herror, Inquiry.answer] at hleaf ⊢
          exact hleaf
      | none =>
          rw [leaf_eq_ok_iff herror hinside] at hleaf
          rw [leaf_eq_ok_iff herror hinside', hsame.payload_eq]
          exact hleaf

/-- An element that is not entered keeps its frame when its zone ends elsewhere. -/
theorem Opens.frameAt_upTo
    (hopens : Opens c v zone pos heading)
    (hdata : frame.data = (zone.frameAt pos heading).data)
    (hdeclared : frame.declared = (zone.frameAt pos heading).declared)
    (hspares : zone.Spares stop frame) :
    (zone.upTo stop).frameAt pos heading = zone.frameAt pos heading := by
  obtain ⟨_, hinside⟩ := hopens.bounds
  rcases hspares with rfl | ⟨hstop, hend⟩
  · rfl
  · rw [hdata, hdeclared, Zone.frameAt_declared] at hend
    rw [hdata, Span.stop, Zone.frameAt_data_start] at hstop
    rw [Span.stop, Zone.frameAt_data_start] at hend
    cases hsize : heading.size with
    | unknown =>
        obtain ⟨hlength, _⟩ := @Zone.frameAt_of_unknown zone pos heading hsize
        rw [hsize, hlength] at hend
        rcases hend with hend | hend
        · omega
        · simp at hend
    | known length =>
        rw [hsize, DeclaredSize.known.injEq] at hend
        rcases @Zone.frameAt_of_known zone pos heading length hsize with
          ⟨hfits, hlength, _⟩ | ⟨hover, hlength, _⟩
        · exact Zone.frameAt_upTo_of_known hsize (by omega) (by omega)
        · omega

/-- The element at `pos` is there in other contents, and in a zone with another end. -/
theorem Opens.transfer
    (hopens : Opens c v zone pos heading)
    (hsame : c.SameOn c' pos (pos + heading.length))
    (hinside : pos + heading.length ≤ stop) :
    Opens c' v (zone.upTo stop) pos heading where
  inside := by
    obtain ⟨htwo, _⟩ := hopens.bounds
    rw [Zone.upTo_stop]
    omega
  reads := hsame.headingAt hopens.reads hinside
  stays := hopens.stays

/-- A leaf of a zone is read from other contents, and in a zone with another end. -/
theorem Settles.yields
    (hopens : Opens c v zone pos heading)
    (hsettles :
      Settles c v s zone (zone.frameAt pos heading) (zone.carries seen) element)
    (hzone : zone.stop ≤ c.length)
    (hsame : c.SameOn c' pos element.stop)
    (hspares : zone.Spares stop element.frame)
    (hlength : stop ≤ c'.length) :
    Yields c' v s (zone.upTo stop) pos seen element (zone.carries seen) := by
  obtain ⟨_, _, hdeclared, hdata⟩ := hsettles.keeps
  have hframe := hopens.frameAt_upTo hdata hdeclared hspares
  obtain ⟨hstart, hforward, hstop⟩ := hopens.data_bounds
  have hplace : element.stop = (zone.frameAt pos heading).data.stop := by
    rw [Element.stop, hdata]
  have hinside : element.stop ≤ stop := by
    rcases hspares with rfl | ⟨hinside, _⟩
    · rw [hplace]
      exact hstop
    · exact hinside
  rw [Zone.frameAt_data_start] at hforward
  have hopens' : Opens c' v (zone.upTo stop) pos heading :=
    hopens.transfer (hsame.mono (Nat.le_refl _) (by omega)) (by omega)
  have hsettles' := hsettles.transfer
    (hsame.mono (by omega) (Nat.le_of_eq hplace.symm)) (by omega) (by omega) stop
  rw [← hframe] at hsettles'
  exact .settled hopens' hsettles'

/-- A declared zone is read to its end. -/
theorem Reads.stop_of_declared
    (h : Reads c v s zone pos seen r)
    (hdeclared : zone.isOpen = false)
    (hpos : pos ≤ zone.stop) :
    r.stop = zone.stop := by
  rcases h.stop_cases hpos with hend | ⟨_, hopen, _⟩
  · exact hend
  · simp [hdeclared] at hopen

/-- A container of a zone is read from other contents, and in a zone with another end, when
its own contents are. -/
theorem Reads.yields
    {kept : Bool}
    (hopens : Opens c v zone pos heading)
    (happroach : Scan.approach v s zone (zone.frameAt pos heading) = .goesOn .asMaster)
    (hentry :
      Scan.entry v s zone (zone.frameAt pos heading) (zone.carries seen) = .goesOn kept)
    (hcontents :
      Reads c v s (zone.inside (zone.frameAt pos heading)) (zone.frameAt pos heading).data.start
        (Scan.seenInside v s (zone.frameAt pos heading) (zone.carries seen)) contents)
    (hsame : c.SameOn c' pos contents.stop)
    (hends : c.FindsAgain c' zone.stop stop contents.stop)
    (hspares : zone.Spares stop ((zone.frameAt pos heading).closedAt contents.stop))
    (hlength : stop ≤ c'.length)
    (htransfer : ∀ inner : Nat,
      c.FindsAgain c' (zone.inside (zone.frameAt pos heading)).stop inner contents.stop →
      (zone.inside (zone.frameAt pos heading)).Allows inner contents.stop →
      inner ≤ c'.length →
        Reads c' v s ((zone.inside (zone.frameAt pos heading)).upTo inner)
          (zone.frameAt pos heading).data.start
          (Scan.seenInside v s (zone.frameAt pos heading) (zone.carries seen)) contents) :
    Yields c' v s (zone.upTo stop) pos seen
      ((zone.frameAt pos heading).contained kept contents) contents.seen := by
  obtain ⟨hstart, hforward, hstop⟩ := hopens.data_bounds
  obtain ⟨hlow, hhigh⟩ := hcontents.bounds
  have hwithin : contents.stop ≤ zone.stop := Nat.le_trans (hhigh hforward) hstop
  have hclosed := hopens.closed_stop hcontents
  have hinside : contents.stop ≤ stop := by
    rcases hspares with rfl | ⟨hinside, _⟩
    · exact hwithin
    · rwa [hclosed] at hinside
  rw [Zone.frameAt_data_start] at hlow
  have hopens' : Opens c' v (zone.upTo stop) pos heading :=
    hopens.transfer (hsame.mono (Nat.le_refl _) hlow) (by omega)
  cases hsize : heading.size with
  | known length =>
      have hdeclared : (zone.frameAt pos heading).declared = .known length := by
        rw [Zone.frameAt_declared, hsize]
      rw [Frame.closedAt_of_known _ hdeclared] at hspares
      have hframe := hopens.frameAt_upTo rfl rfl hspares
      have hwhole := hcontents.stop_of_declared (by rw [Zone.inside_isOpen, hdeclared]; rfl)
        hforward
      have hread := htransfer _
        (by
          intro next hnext
          obtain ⟨htwo, hbefore⟩ := Contents.headingAt_bounds hnext
          omega)
        (Or.inl rfl) (by omega)
      rw [Zone.upTo_self] at hread
      rw [← hframe] at happroach hentry hread ⊢
      exact .entered hopens' rfl happroach hentry hread
  | unknown =>
      have hdeclared : (zone.frameAt pos heading).declared = .unknown := by
        rw [Zone.frameAt_declared, hsize]
      have hlimit : (zone.inside (zone.frameAt pos heading)).stop = zone.stop :=
        hopens.unknown_stop hdeclared
      have hallows : (zone.inside (zone.frameAt pos heading)).Allows stop contents.stop := by
        rw [Zone.Allows, hlimit]
        rcases hspares with rfl | ⟨_, hbefore | hknown⟩
        · exact Or.inl rfl
        · rw [hclosed] at hbefore
          exact Or.inr ⟨hbefore, hinside⟩
        · simp [hsize] at hknown
      have hread := htransfer stop (by rw [hlimit]; exact hends) hallows hlength
      have hcontained : ((zone.upTo stop).frameAt pos heading).contained kept contents =
          (zone.frameAt pos heading).contained kept contents := by
        unfold Frame.contained
        rw [Zone.closedAt_upTo_of_unknown hsize]
      rw [← Zone.inside_upTo_of_unknown hsize (by omega)] at hread
      rw [← hcontained]
      refine .entered hopens' rfl ?_ ?_ ?_
      · rw [Zone.frameAt_eq_of_unknown hsize] at happroach ⊢
        exact happroach
      · rw [Zone.frameAt_eq_of_unknown hsize] at hentry ⊢
        exact hentry
      · simpa only [Zone.frameAt_data_start, Scan.seenInside, Zone.frameAt_id,
          Zone.upTo_carries] using hread

/-- Reading that goes past a heading goes past all of it. -/
theorem Reads.heading_inside
    (h : Reads c v s zone pos seen r)
    (hreads : c.headingAt zone.stop pos = .ok heading) :
    r.stop = pos ∨ pos + heading.length ≤ r.stop := by
  cases h with
  | ended _ => exact Or.inl rfl
  | closed _ _ _ _ => exact Or.inl rfl
  | unreadable _ hfound _ _ => simp [hreads] at hfound
  | @leaf _ _ _ found element rest hopens hsettles hrest =>
      obtain rfl := hopens.eq_of_reads hreads
      obtain ⟨_, hforward, _⟩ := hopens.data_bounds
      obtain ⟨hbehind, _⟩ := hrest.bounds
      rw [Element.stop, hsettles.keeps.2.2.2] at hbehind
      rw [Zone.frameAt_data_start] at hforward
      exact Or.inr (Nat.le_trans hforward hbehind)
  | @entered _ _ _ kept found frame contents rest hopens hframe _ _ hcontents hrest =>
      subst hframe
      obtain rfl := hopens.eq_of_reads hreads
      obtain ⟨hlow, _⟩ := hcontents.bounds
      obtain ⟨hbehind, _⟩ := hrest.bounds
      rw [hopens.closed_stop hcontents] at hbehind
      rw [Zone.frameAt_data_start] at hlow
      exact Or.inr (Nat.le_trans hlow hbehind)

/-- A stretch is read the same from other contents that hold its bytes, and in a zone with
another end that it does not reach, as long as the heading that closes it is found. -/
theorem Reads.transfer
    (h : Reads c v s zone pos seen r)
    (hzone : zone.stop ≤ c.length)
    (hsame : c.SameOn c' pos r.stop)
    (hends : c.FindsAgain c' zone.stop stop r.stop)
    (hallows : zone.Allows stop r.stop)
    (hlength : stop ≤ c'.length) :
    Reads c' v s (zone.upTo stop) pos seen r := by
  induction h generalizing stop with
  | @ended zone pos seen hend =>
      refine .ended ?_
      rcases hallows with rfl | ⟨hbefore, _⟩
      · exact hend
      · dsimp only at hbefore
        omega
  | @closed zone pos seen heading hinside hreads hopen hcloses =>
      have hfound := hends heading hreads
      obtain ⟨htwo, hbefore⟩ := Contents.headingAt_bounds hfound
      exact .closed (by rw [Zone.upTo_stop]; dsimp only at hbefore; omega) hfound hopen hcloses
  | @unreadable zone pos seen reason hinside hreads hdeclared hlenient =>
      rcases hallows with rfl | ⟨hbefore, _⟩
      · exact .unreadable hinside (by rw [← hreads]; exact hsame.headingAt_eq) hdeclared hlenient
      · exact absurd hbefore (Nat.lt_irrefl _)
  | @leaf zone pos seen heading element rest hopens hsettles hrest ih =>
      obtain ⟨hbehind, hbefore⟩ := hrest.bounds
      have hread : Yields c v s zone pos seen element (zone.carries seen) :=
        .settled hopens hsettles
      have hforward := hread.bounds
      have hfirst := hsettles.yields hopens hzone (hsame.mono (Nat.le_refl _) hbehind)
        (hallows.spares hbehind) hlength
      exact .cons hfirst
        (ih hzone (hsame.mono (by omega) (Nat.le_refl _)) hends hallows hlength)
  | @entered zone pos seen kept heading frame contents rest hopens hframe happroach hentry
      hcontents hrest ihContents ihRest =>
      subst hframe
      obtain ⟨hstart, hdata, hwithin⟩ := hopens.data_bounds
      obtain ⟨hlow, hhigh⟩ := hcontents.bounds
      have hclosed := hopens.closed_stop hcontents
      obtain ⟨hbehind, hend⟩ := hrest.bounds
      rw [hclosed] at hbehind
      have hrest' := ihRest hzone (hsame.mono (by omega) (Nat.le_refl _)) hends hallows hlength
      have hspares : zone.Spares stop ((zone.frameAt pos heading).closedAt contents.stop) :=
        hallows.spares (by rw [hclosed]; exact hbehind)
      rw [hclosed] at hrest hend
      have hlast : rest.stop ≤ stop :=
        hallows.le (hend (Nat.le_trans (hhigh hdata) hwithin))
      -- What closes the container is the next element, or it closes the zone as well.
      have hnext : c.FindsAgain c' zone.stop stop contents.stop := by
        intro next hnext
        rcases hrest.heading_inside hnext with hsameStop | hpast
        · rw [← hsameStop] at hnext ⊢
          exact hends next hnext
        · exact Contents.SameOn.headingAt (hsame.mono (by omega) hpast) hnext
            (Nat.le_trans hpast hlast)
      have hfirst := hcontents.yields hopens happroach hentry
        (hsame.mono (Nat.le_refl _) hbehind) hnext hspares hlength
        (fun _ => ihContents (Nat.le_trans hwithin hzone) (hsame.mono (by omega) hbehind))
      refine .cons hfirst ?_
      rw [Element.stop, Frame.contained_frame]
      exact hrest'

/-- A single element is read the same from other contents that hold its bytes, and in a
zone with another end that spares it, as long as the heading behind it is found. -/
theorem Yields.transfer
    (h : Yields c v s zone pos seen element after)
    (hzone : zone.stop ≤ c.length)
    (hsame : c.SameOn c' pos element.stop)
    (hends : c.FindsAgain c' zone.stop stop element.stop)
    (hspares : zone.Spares stop element.frame)
    (hlength : stop ≤ c'.length) :
    Yields c' v s (zone.upTo stop) pos seen element after := by
  cases h with
  | settled hopens hsettles => exact hsettles.yields hopens hzone hsame hspares hlength
  | @entered kept heading frame contents hopens hframe happroach hentry hcontents =>
      subst hframe
      obtain ⟨hstart, hdata, hwithin⟩ := hopens.data_bounds
      have hclosed := hopens.closed_stop hcontents
      have hstop : ((zone.frameAt pos heading).contained kept contents).stop = contents.stop := by
        rw [Element.stop, Frame.contained_frame, hclosed]
      rw [hstop] at hsame hends
      rw [Frame.contained_frame] at hspares
      exact hcontents.yields hopens happroach hentry hsame hends hspares hlength
        (fun _ => hcontents.transfer (Nat.le_trans hwithin hzone)
          (hsame.mono (by omega) (Nat.le_refl _)))

/-- Where the same bytes stand to the end of a zone, the same is read. -/
theorem Reads.of_sameOn
    (h : Reads c v s zone pos seen r)
    (hpos : pos ≤ zone.stop)
    (hzone : zone.stop ≤ c.length)
    (hzone' : zone.stop ≤ c'.length)
    (hsame : c.SameOn c' pos zone.stop) :
    Reads c' v s zone pos seen r := by
  obtain ⟨hlow, hhigh⟩ := h.bounds
  refine h.transfer hzone (hsame.mono (Nat.le_refl _) (hhigh hpos)) ?_ (Or.inl rfl) hzone'
  intro heading hreads
  rw [← hreads]
  exact (hsame.mono hlow (Nat.le_refl _)).headingAt_eq

end Elements

end EbmlReport
