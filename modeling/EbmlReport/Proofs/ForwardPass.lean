import EbmlReport.Proofs.Cancelling
import EbmlReport.Proofs.Halting
import EbmlReport.Proofs.Transcript
import Mathlib.Data.List.Perm.Subperm

/-!
# A scan is one bounded forward pass

A scan asks for headings and for payloads, and each piece begins where the one before did or
behind it.  It may begin at the same place, since a heading that closes a zone is asked for
once more by the zone around.  The window turns this into fetches that begin strictly one
behind the other: a short piece is fetched as the beginning of a new window, and found there
when it is asked for again.  The pieces as long as a window are texts, which are asked for
once.

So the sizes that a file declares move a scan forward, but it never fetches that much at once.

**Results.**
* `Scan.siblings_fuel`: fuel for the length of a zone is enough, whatever is read there.
* `Buffered.Advanced.read`: what one read does to the log and the window.
* `Inquiry.Forward.run`: an inquiry that goes forward leaves its fetches in order.
* `Scan.siblings_forward`: reading a zone goes forward.
* `Buffered.scan_forward`: the law for scans.
-/

namespace EbmlReport

/-- The bytes are the payload of a text element that a scan comes to. -/
def Contents.TextPayload (c : Contents) (v : Vocabulary) (s : Settings) (offset length : Nat) :
    Prop :=
  ∃ above pos seen heading,
    Reaches c v s above pos seen ∧ Opens c v (.around c.length above) pos heading ∧
      (v.kind heading.id = .ascii ∨ v.kind heading.id = .utf8) ∧
      ((Zone.around c.length above).frameAt pos heading).data = ⟨offset, length⟩

namespace Buffered

/-- Where a scan may ask again once it has asked for a piece: pieces as long as a window are
asked for once. -/
def resumesAt (offset length : Nat) : Nat :=
  if windowLength ≤ length then offset + 1 else offset

theorem resumesAt_le
    {offset length more : Nat}
    (h : length ≤ more) :
    resumesAt offset length ≤ offset + more := by
  unfold resumesAt
  split
  · rename_i hlong
    simp only [windowLength] at hlong
    omega
  · omega

/-- The fetches, newest first, begin one behind the other.  Each lies inside a stream of the
given length, and the long ones are `large`. -/
structure Orderly (size : Nat) (large : Nat → Nat → Prop) (log : List Fetch) : Prop where
  ascending : log.Pairwise fun later earlier => earlier.offset < later.offset
  positive : ∀ f ∈ log, 0 < f.length
  inside : ∀ f ∈ log, f.offset + f.length ≤ size
  large : ∀ f ∈ log, windowLength < f.length → large f.offset f.length

/-- Nothing was fetched from `pos` on, unless the window begins there. -/
structure Advanced (b : Buffered) (large : Nat → Nat → Prop) (pos : Nat) : Prop where
  exact : b.Exact
  orderly : Orderly b.length large b.log
  front : ∀ f ∈ b.log, f.offset < pos ∨
    (f.offset = pos ∧ b.windowStart = pos ∧
      b.window.size = min windowLength (b.length - pos))

theorem ofDevice_advanced
    (d : Device)
    (cancelled : Bool)
    (large : Nat → Nat → Prop) :
    (ofDevice d cancelled).Advanced large 0 where
  exact := ofDevice_exact d cancelled
  orderly := ⟨.nil, by simp [ofDevice], by simp [ofDevice], by simp [ofDevice]⟩
  front := by simp [ofDevice]

section Reads

variable {b : Buffered} {large : Nat → Nat → Prop} {pos offset length : Nat}

theorem Orderly.cons
    {size : Nat}
    {log : List Fetch}
    {f : Fetch}
    (h : Orderly size large log)
    (hbehind : ∀ earlier ∈ log, earlier.offset < f.offset)
    (hpositive : 0 < f.length)
    (hinside : f.offset + f.length ≤ size)
    (hlarge : windowLength < f.length → large f.offset f.length) :
    Orderly size large (f :: log) where
  ascending := .cons hbehind h.ascending
  positive := List.forall_mem_cons.mpr ⟨hpositive, h.positive⟩
  inside := List.forall_mem_cons.mpr ⟨hinside, h.inside⟩
  large := List.forall_mem_cons.mpr ⟨hlarge, h.large⟩

/-- A scan may always go on further behind. -/
theorem Advanced.mono
    (hb : b.Advanced large pos)
    (hle : pos ≤ offset) :
    b.Advanced large offset := by
  refine ⟨hb.exact, hb.orderly, fun f hmem => ?_⟩
  rcases Nat.lt_or_eq_of_le hle with hless | rfl
  · rcases hb.front f hmem with hbefore | ⟨hhere, _, _⟩
    · exact Or.inl (Nat.lt_trans hbefore hless)
    · exact Or.inl (hhere ▸ hless)
  · exact hb.front f hmem

/-- A piece that is not in the window begins behind all that was fetched. -/
theorem Advanced.behind
    (hb : b.Advanced large pos)
    (hpos : pos ≤ offset)
    (hinside : offset + length ≤ b.length)
    (hlong : windowLength ≤ length → pos < offset)
    (hheld : b.held? offset length = none) :
    ∀ f ∈ b.log, f.offset < offset := by
  intro f hmem
  rcases hb.front f hmem with hbefore | ⟨hhere, hstart, hsize⟩
  · exact Nat.lt_of_lt_of_le hbefore hpos
  · rcases Nat.lt_or_eq_of_le hpos with hless | rfl
    · exact hhere ▸ hless
    · -- The window begins with the piece, which is shorter than the window.
      have hshort : length < windowLength :=
        Nat.lt_of_not_le fun hnot => Nat.lt_irrefl _ (hlong hnot)
      simp only [held?, hstart, hsize] at hheld
      rw [if_pos (by omega)] at hheld
      simp at hheld

/-- A fetch behind all others keeps the log in order. -/
theorem Orderly.fetch
    (hb : Orderly b.length large b.log)
    (hbehind : ∀ f ∈ b.log, f.offset < offset)
    (hinside : offset + length ≤ b.length)
    (hlarge : windowLength < length → large offset length) :
    Orderly b.length large (b.fetch offset length).2.log := by
  simp only [Buffered.fetch]
  split
  · exact hb
  · rename_i hlength
    exact hb.cons hbehind (Nat.pos_of_ne_zero hlength) hinside hlarge

/-- Moving the window makes one fetch, after which the window begins there. -/
theorem refill_moves (b : Buffered) (offset length : Nat) :
    (b.refill offset length).2.log =
        (b.fetch offset (min windowLength (b.length - offset))).2.log ∧
      (b.refill offset length).2.device = b.device ∧
      ∀ bytes, (b.refill offset length).1 = .ok bytes →
        (b.refill offset length).2.windowStart = offset ∧
          (b.refill offset length).2.window.size = min windowLength (b.length - offset) := by
  rcases b.refill_cases offset length with
    ⟨cause, _, hrefill⟩ | ⟨fetched, moved, hfetch, rfl, hrefill⟩
  · rw [hrefill]
    exact ⟨rfl, rfl, by simp⟩
  · rw [hrefill]
    refine ⟨rfl, rfl, fun _ _ => ⟨rfl, ?_⟩⟩
    rw [List.size_toArray, fetch_eq_slice hfetch, Contents.length_slice]

/-- Moving the window to a piece behind all fetches adds one of these. -/
theorem Advanced.refill
    (hb : b.Advanced large pos)
    (hbehind : ∀ f ∈ b.log, f.offset < offset)
    (hinside : offset ≤ b.length) :
    Orderly b.length large (b.refill offset length).2.log ∧
      ∀ bytes, (b.refill offset length).1 = .ok bytes →
        (b.refill offset length).2.Advanced large offset := by
  obtain ⟨hlog, hdevice, hmoved⟩ := b.refill_moves offset length
  have horderly : Orderly b.length large (b.refill offset length).2.log := by
    rw [hlog]
    exact hb.orderly.fetch hbehind (by omega) (by omega)
  refine ⟨horderly, fun bytes hok => ?_⟩
  obtain ⟨hstart, hsize⟩ := hmoved bytes hok
  have hlength : (b.refill offset length).2.length = b.length :=
    congrArg (fun d => d.length) hdevice
  refine ⟨(hb.exact.refill offset length).1, hlength ▸ horderly, fun f hmem => ?_⟩
  rw [hlog, Buffered.fetch] at hmem
  dsimp only at hmem
  rw [hlength]
  split at hmem
  · exact Or.inl (hbehind f hmem)
  · rcases List.mem_cons.mp hmem with rfl | hmem
    · exact Or.inr ⟨rfl, hstart, hsize⟩
    · exact Or.inl (hbehind f hmem)

/-- A read from where the scan has come to, or behind it, makes no fetch or one that begins
behind all others; if it brings something, the scan may go on. -/
theorem Advanced.read
    (hb : b.Advanced large pos)
    (hpos : pos ≤ offset)
    (hlong : windowLength ≤ length → pos < offset ∧ large offset length) :
    Orderly b.length large (b.read offset length).2.log ∧
      ∀ bytes, (b.read offset length).1 = .ok bytes →
        (b.read offset length).2.Advanced large (resumesAt offset length) := by
  have hlater : pos ≤ resumesAt offset length := by
    unfold resumesAt
    split <;> omega
  unfold Buffered.read
  split
  · exact ⟨hb.orderly, by simp⟩
  · rename_i houtside
    have hinside : offset + length ≤ b.length := Nat.le_of_not_lt houtside
    cases hheld : b.held? offset length with
    | some held => exact ⟨hb.orderly, fun _ _ => hb.mono hlater⟩
    | none =>
        have hbehind := hb.behind hpos hinside (fun h => (hlong h).1) hheld
        dsimp only
        split
        · rename_i h
          have horderly := hb.orderly.fetch hbehind hinside fun _ => (hlong h).2
          refine ⟨horderly, fun bytes _ => ⟨hb.exact.fetch _ _, horderly, fun f hmem => ?_⟩⟩
          rw [resumesAt, if_pos h]
          rw [Buffered.fetch] at hmem
          dsimp only at hmem
          split at hmem
          · exact Or.inl (Nat.lt_succ_of_lt (hbehind f hmem))
          · rcases List.mem_cons.mp hmem with rfl | hmem
            · exact Or.inl (Nat.lt_succ_self _)
            · exact Or.inl (Nat.lt_succ_of_lt (hbehind f hmem))
        · rename_i h
          rw [resumesAt, if_neg h]
          exact hb.refill hbehind (by omega)

end Reads

end Buffered

namespace Inquiry

variable {α : Type} {c : Contents} {large : Nat → Nat → Prop} {low pos : Nat}

/-- As far as it is answered by the contents, each piece that the inquiry asks for lies at
`pos` or behind it, and behind all pieces before it, except that short ones may begin where
another does.  The long ones are `large`. -/
def Forward (c : Contents) (large : Nat → Nat → Prop) : (pos : Nat) → Inquiry α → Prop
  | _, done _ => True
  | _, fail _ _ => True
  | pos, checkpoint next => next.Forward c large pos
  | pos, fetch offset length next =>
      pos ≤ offset ∧
        (Buffered.windowLength ≤ length → pos < offset ∧ large offset length) ∧
        (offset + length ≤ c.length →
          (next (c.slice offset length)).Forward c large (Buffered.resumesAt offset length))

theorem Forward.mono
    {q : Inquiry α}
    (h : q.Forward c large pos)
    (hle : low ≤ pos) :
    q.Forward c large low := by
  induction q generalizing low pos with
  | done result => trivial
  | fail offset reason => trivial
  | checkpoint next ih => exact ih h hle
  | fetch offset length next ih =>
      obtain ⟨hpos, hlong, hnext⟩ := h
      refine ⟨Nat.le_trans hle hpos, fun hlength => ?_, hnext⟩
      exact ⟨Nat.lt_of_le_of_lt hle (hlong hlength).1, (hlong hlength).2⟩

/-- An inquiry that goes forward leaves the log in order, whatever the stream does. -/
theorem Forward.run
    {q : Inquiry α}
    {b : Buffered}
    (h : q.Forward b.device.toContents large pos)
    (hb : b.Advanced large pos) :
    Buffered.Orderly b.length large (q.run b).2.log := by
  induction q generalizing b pos with
  | done result => exact hb.orderly
  | fail offset reason => exact hb.orderly
  | checkpoint next ih =>
      simp only [run]
      split
      · exact hb.orderly
      · exact ih h hb
  | fetch offset length next ih =>
      obtain ⟨hpos, hlong, hnext⟩ := h
      obtain ⟨horderly, hgoesOn⟩ := hb.read hpos hlong
      obtain ⟨_, hdevice, hbytes⟩ := hb.exact.of_read offset length
      simp only [run]
      split
      · rename_i cause after heq
        rw [heq] at horderly
        exact horderly
      · rename_i bytes after heq
        rw [heq] at hgoesOn hdevice hbytes
        dsimp only at hgoesOn hdevice hbytes
        obtain ⟨hinside, rfl⟩ := hbytes bytes rfl
        have hlength : after.length = b.length := congrArg (fun d => d.length) hdevice
        rw [← hlength]
        refine ih _ ?_ (hgoesOn _ rfl)
        rw [hdevice]
        exact hnext hinside

end Inquiry

namespace Scan

/-- What a scan may ask for at once beyond the length of a window. -/
def MayTake (c : Contents) (v : Vocabulary) (s : Settings) (offset length : Nat) : Prop :=
  length ≤ maxTextLength ∧ c.TextPayload v s offset length

variable {α : Type} {c : Contents} {v : Vocabulary} {s : Settings} {large : Nat → Nat → Prop}
  {pos fuel : Nat} {frame : Frame} {seen : Bool}

theorem finishLeaf_forward
    {payload : Except Defect Value}
    {next : Element → Inquiry α}
    (hnext : ∀ element, (finishLeaf s frame payload .done).answer c = .ok element →
      (next element).Forward c large pos) :
    (finishLeaf s frame payload next).Forward c large pos := by
  cases payload with
  | ok value => exact hnext _ rfl
  | error reason =>
      cases hstrict : s.isStrict with
      | true =>
          simp only [finishLeaf, hstrict, if_true]
          trivial
      | false =>
          simp only [finishLeaf, hstrict, Bool.false_eq_true, if_false] at hnext ⊢
          exact hnext _ rfl

/-- The payload of a number is no longer than eight bytes, and that of a text no longer than
a text may be. -/
theorem length_of_no_defect
    {kind : Kind}
    {length : Nat}
    (h : lengthDefect? kind length = none)
    (hbinary : kind ≠ .binary)
    (hmaster : kind ≠ .master) :
    length ≤ 8 ∨ (length ≤ maxTextLength ∧ (kind = .ascii ∨ kind = .utf8)) := by
  unfold lengthDefect? at h
  grind

/-- A leaf is asked for behind its heading, and what comes after it behind its payload. -/
theorem leaf_forward
    {next : Element → Inquiry α}
    (hpreview : ∀ id, v.previewLength id < Buffered.windowLength)
    (hleaf : v.isMaster frame.id = false)
    (hpos : pos < frame.data.start)
    (htext : frame.error = none → v.kind frame.id = .ascii ∨ v.kind frame.id = .utf8 →
      frame.data.length ≤ maxTextLength → large frame.data.start frame.data.length)
    (hnext : ∀ element, (leaf v s frame .done).answer c = .ok element →
      (next element).Forward c large frame.data.stop) :
    (leaf v s frame next).Forward c large pos := by
  have hstop : pos ≤ frame.data.stop := by
    rw [Span.stop]
    omega
  -- Whatever was asked for, it does not reach beyond the payload.
  have hbehind : ∀ {q : Inquiry α} {length : Nat}, length ≤ frame.data.length →
      q.Forward c large frame.data.stop →
        q.Forward c large (Buffered.resumesAt frame.data.start length) :=
    fun hlength hforward => hforward.mono (Buffered.resumesAt_le hlength)
  unfold leaf at hnext ⊢
  cases herror : frame.error with
  | some reason =>
      simp only [herror] at hnext
      exact (hnext _ rfl).mono hstop
  | none =>
      simp only [herror] at hnext ⊢
      have hkind := v.kind_ne_master hleaf
      split at hnext
      · exact finishLeaf_forward fun element h => (hnext element h).mono hstop
      · have hshort := hpreview frame.id
        refine ⟨Nat.le_of_lt hpos, fun hlong => by omega, fun hinside => ?_⟩
        refine hbehind (Nat.min_le_right _ _) (finishLeaf_forward fun element h => ?_)
        exact hnext element (Inquiry.answer_fetch_eq_ok.mpr ⟨hinside, h⟩)
      · rename_i hdefect hbinary
        refine ⟨Nat.le_of_lt hpos, fun hlong => ⟨hpos, ?_⟩, fun hinside => ?_⟩
        · rcases length_of_no_defect hdefect hbinary hkind with hnumber | ⟨hlength, hstring⟩
          · simp only [Buffered.windowLength] at hlong
            omega
          · exact htext herror hstring hlength
        · refine hbehind (Nat.le_refl _) (finishLeaf_forward fun element h => ?_)
          exact hnext element (Inquiry.answer_fetch_eq_ok.mpr ⟨hinside, h⟩)

variable {above : List Frame} {heading : Heading} {next : Stretch → Inquiry α}

/-- The payload of a text element that a scan comes to may be long. -/
theorem mayTake_text
    (hreaches : Reaches c v s above pos seen)
    (hopens : Opens c v (.around c.length above) pos heading)
    (hframe : frame = (Zone.around c.length above).frameAt pos heading)
    (htext : v.kind frame.id = .ascii ∨ v.kind frame.id = .utf8)
    (hlength : frame.data.length ≤ maxTextLength) :
    MayTake c v s frame.data.start frame.data.length := by
  subst hframe
  rw [Zone.frameAt_id] at htext
  exact ⟨hlength, above, pos, seen, heading, hreaches, hopens, htext, rfl⟩

/-- Reading an element goes forward, when that holds of what is below and behind it. -/
theorem element_forward
    (hpreview : ∀ id, v.previewLength id < Buffered.windowLength)
    (hreaches : Reaches c v s above pos seen)
    (hopens : Opens c v (.around c.length above) pos heading)
    (hframe : frame = (Zone.around c.length above).frameAt pos heading)
    (hbehind : ∀ element after,
      Yields c v s (.around c.length above) pos seen element after →
        (proceed v s fuel (.around c.length above) next element after).Forward c
          (MayTake c v s) element.stop)
    (hbelow : ∀ kept (next : Stretch → Inquiry α),
      approach v s (.around c.length above) frame = .goesOn .asMaster →
      entry v s (.around c.length above) frame ((Zone.around c.length above).carries seen) =
        .goesOn kept →
      (∀ r,
        Reads c v s (.around c.length (frame :: above)) frame.data.start
          (seenInside v s frame ((Zone.around c.length above).carries seen)) r →
        (next r).Forward c (MayTake c v s) r.stop) →
      (siblings v s fuel (.around c.length (frame :: above)) frame.data.start
        (seenInside v s frame ((Zone.around c.length above).carries seen)) next).Forward c
          (MayTake c v s) frame.data.start) :
    (element v s fuel (.around c.length above) frame
      ((Zone.around c.length above).carries seen) next).Forward c (MayTake c v s) pos := by
  obtain ⟨hstart, hdata, _⟩ := hopens.data_bounds
  rw [← hframe] at hstart hdata
  have hsettled : ∀ element,
      Settles c v s (.around c.length above) frame ((Zone.around c.length above).carries seen)
        element →
      (proceed v s fuel (.around c.length above) next element
        ((Zone.around c.length above).carries seen)).Forward c (MayTake c v s)
          frame.data.stop := by
    intro element hsettles
    have hstop : element.stop = frame.data.stop := by rw [Element.stop, hsettles.keeps.2.2.2]
    rw [← hstop]
    exact hbehind element _ (.settled hopens (hframe ▸ hsettles))
  unfold element
  cases happroach : approach v s (.around c.length above) frame with
  | fails offset reason => trivial
  | settles content => exact (hsettled _ (.givenUp happroach)).mono (by omega)
  | goesOn how =>
      cases how with
      | asLeaf =>
          exact leaf_forward hpreview (not_isMaster_of_approach happroach) (by omega)
            (fun _ htext hlength => mayTake_text hreaches hopens hframe htext hlength)
            fun element hleaf => hsettled element (.leaf happroach hleaf)
      | asMaster =>
          simp only [Inquiry.Forward]
          cases hentry : entry v s (.around c.length above) frame
              ((Zone.around c.length above).carries seen) with
          | fails offset reason => trivial
          | settles content => exact (hsettled _ (.shut happroach hentry)).mono (by omega)
          | goesOn kept =>
              refine (hbelow kept _ happroach hentry fun contents hcontents => ?_).mono (by omega)
              have hall := hbehind _ _ (.entered hopens hframe happroach hentry hcontents)
              subst hframe
              rwa [Element.stop, Frame.contained_frame, hopens.closed_stop hcontents] at hall

/-- Reading a zone that a scan comes to goes forward, when what comes after it does. -/
theorem siblings_forward
    (hpreview : ∀ id, v.previewLength id < Buffered.windowLength)
    (hreaches : Reaches c v s above pos seen)
    (hfuel : (Zone.around c.length above).stop ≤ pos + fuel)
    (hnext : ∀ r, Reads c v s (.around c.length above) pos seen r →
      (next r).Forward c (MayTake c v s) r.stop) :
    (siblings v s fuel (.around c.length above) pos seen next).Forward c (MayTake c v s) pos := by
  induction fuel generalizing above pos seen next with
  | zero => exact hnext _ (.ended hfuel)
  | succ fuel ih =>
      by_cases hend : (Zone.around c.length above).stop ≤ pos
      · rw [siblings, if_pos hend]
        exact hnext _ (.ended hend)
      · have hinside := Nat.lt_of_not_le hend
        have hshort : ¬ Buffered.windowLength ≤
            min Heading.maxLength ((Zone.around c.length above).stop - pos) := by
          simp only [Buffered.windowLength, Heading.maxLength]
          omega
        rw [siblings, if_neg hend]
        refine ⟨Nat.le_refl _, fun hlong => absurd hlong hshort, fun _ => ?_⟩
        rw [Buffered.resumesAt, if_neg hshort]
        dsimp only
        cases hreads : heading (c.slice pos
            (min Heading.maxLength ((Zone.around c.length above).stop - pos))) with
        | error reason =>
            cases hopen : (Zone.around c.length above).isOpen with
            | true => trivial
            | false =>
                cases hstrict : s.isStrict with
                | true => trivial
                | false =>
                    exact (hnext _ (.unreadable hinside hreads hopen hstrict)).mono
                      (Nat.le_of_lt hinside)
        | ok heading =>
            dsimp only
            split
            · rename_i hcloses
              obtain ⟨hopen, hcloses⟩ := Bool.and_eq_true_iff.mp hcloses
              exact hnext _ (.closed hinside hreads hopen hcloses)
            · rename_i hstays
              have hopens : Opens c v (.around c.length above) pos heading :=
                ⟨hinside, hreads, by simpa using hstays⟩
              obtain ⟨hstart, hdata, hstop⟩ := hopens.data_bounds
              refine element_forward hpreview hreaches hopens rfl ?_ ?_
              · intro element after hfirst
                have hforward := hfirst.bounds.1
                exact ih (hreaches.behind hfirst) (by omega) fun rest hrest =>
                  hnext _ (.cons hfirst hrest)
              · intro kept next happroach hentry hnext
                refine ih (hreaches.inside hopens rfl happroach hentry) ?_ hnext
                rw [Zone.around_cons_stop]
                omega

section Fuel

variable {zone : Zone} {fuel' : Nat}

theorem finishLeaf_congr
    {payload : Except Defect Value}
    {next next' : Element → Inquiry α}
    (h : ∀ element, element.stop = frame.data.stop → next element = next' element) :
    finishLeaf s frame payload next = finishLeaf s frame payload next' := by
  cases payload with
  | ok value => exact h _ rfl
  | error reason =>
      simp only [finishLeaf]
      split
      · rfl
      · exact h _ rfl

/-- What is done with a leaf need only be told for leaves that end with the payload. -/
theorem leaf_congr
    {next next' : Element → Inquiry α}
    (h : ∀ element, element.stop = frame.data.stop → next element = next' element) :
    leaf v s frame next = leaf v s frame next' := by
  unfold leaf
  cases frame.error with
  | some reason => exact h _ rfl
  | none =>
      dsimp only
      split
      · exact finishLeaf_congr h
      · simp only [finishLeaf_congr h]
      · simp only [finishLeaf_congr h]

/-- An element is read alike with other fuel, when what is below and behind it is. -/
theorem element_congr
    (hbehind : ∀ element after, frame.data.start ≤ element.stop →
      proceed v s fuel zone next element after = proceed v s fuel' zone next element after)
    (hbelow : ∀ next : Stretch → Inquiry α,
      siblings v s fuel (zone.inside frame) frame.data.start (seenInside v s frame seen) next =
        siblings v s fuel' (zone.inside frame) frame.data.start (seenInside v s frame seen) next) :
    element v s fuel zone frame seen next = element v s fuel' zone frame seen next := by
  have hdata : frame.data.start ≤ frame.data.stop := Nat.le_add_right _ _
  unfold element
  cases approach v s zone frame with
  | fails offset reason => rfl
  | settles content => exact hbehind _ _ hdata
  | goesOn how =>
      cases how with
      | asLeaf =>
          refine congrArg Inquiry.checkpoint (leaf_congr fun element hstop => ?_)
          exact hbehind _ _ (hstop ▸ hdata)
      | asMaster =>
          refine congrArg Inquiry.checkpoint ?_
          cases entry v s zone frame seen with
          | fails offset reason => rfl
          | settles content => exact hbehind _ _ hdata
          | goesOn kept =>
              refine (hbelow _).trans (congrArg _ (funext fun contents => hbehind _ _ ?_))
              rw [Element.stop, Frame.contained_frame, Span.stop, Frame.closedAt_data_start]
              exact Nat.le_add_right _ _

/-- More fuel than the zone is long changes nothing, whatever is read there: each element takes
up two bytes at least. -/
theorem siblings_fuel
    (hfuel : zone.stop ≤ pos + fuel)
    (hfuel' : zone.stop ≤ pos + fuel') :
    siblings v s fuel zone pos seen next = siblings v s fuel' zone pos seen next := by
  induction fuel generalizing fuel' zone pos seen next with
  | zero =>
      cases fuel' with
      | zero => rfl
      | succ fuel' =>
          rw [siblings, siblings]
          exact (if_pos hfuel).symm
  | succ fuel ih =>
      cases fuel' with
      | zero =>
          rw [siblings, siblings]
          exact if_pos hfuel'
      | succ fuel' =>
          simp only [siblings]
          split
          · rfl
          · congr 2
            funext bytes
            cases hfound : heading bytes with
            | error reason => rfl
            | ok found =>
                dsimp only
                split
                · rfl
                · obtain ⟨htwo, _, _⟩ := Heading.decode_bounds (heading_eq_ok hfound)
                  have hstart := zone.frameAt_data_start pos found
                  have hlength := @Zone.frameAt_data_length_le zone pos found
                  exact element_congr
                    (fun element after hstop => ih (by omega) (by omega))
                    (fun next => ih (by rw [Zone.inside_stop, Span.stop]; omega)
                      (by rw [Zone.inside_stop, Span.stop]; omega))

end Fuel

end Scan

/-- Fetches that begin one behind the other in a stream are not more than it has bytes. -/
theorem Buffered.Orderly.length_le
    {size : Nat}
    {large : Nat → Nat → Prop}
    {log : List Fetch}
    (h : Orderly size large log) :
    log.length ≤ size := by
  have hnodup : (log.map Fetch.offset).Nodup := by
    rw [List.Nodup, List.pairwise_map]
    exact h.ascending.imp fun hless => Nat.ne_of_gt hless
  have hsubset : log.map Fetch.offset ⊆ List.range size := by
    intro offset hmem
    obtain ⟨f, hf, rfl⟩ := List.mem_map.mp hmem
    have hpositive := h.positive f hf
    have hinside := h.inside f hf
    rw [List.mem_range]
    omega
  have hcount := (hnodup.subperm hsubset).length_le
  rwa [List.length_map, List.length_range] at hcount

theorem Matroska.previewLength_lt (id : Nat) :
    Matroska.vocabulary.previewLength id < Buffered.windowLength := by
  simp only [vocabulary, Vocabulary.ofTable, List.lookup_cons, List.lookup_nil]
  split
  · decide
  · split <;> decide

namespace Buffered

/-- **A scan is one bounded forward pass.**  Whatever a device does, the fetches of a scan begin
strictly one behind the other and lie inside the stream, so that there are no more of them than
it has bytes.  Each asks for 2^20 bytes at most, and for more than the length of a window only
as the payload of a text element.  A scan comes to its end by itself: more fuel than the length
of the stream changes nothing. -/
theorem scan_forward (d : Device) (cancelled : Bool) (s : Settings) :
    let b := ofDevice d cancelled
    let fetches := b.fetchesSince (b.scan Matroska.vocabulary s).2
    fetches.Pairwise (fun earlier later => earlier.offset < later.offset) ∧
      (∀ f ∈ fetches,
        0 < f.length ∧ f.offset + f.length ≤ d.length ∧ f.length ≤ 2 ^ 20 ∧
          (8192 < f.length →
            d.toContents.TextPayload Matroska.vocabulary s f.offset f.length)) ∧
      fetches.length ≤ d.length ∧
      ∀ fuel, d.length ≤ fuel →
        (Scan.siblings Matroska.vocabulary s fuel ⟨[], false, d.length⟩ 0 false fun stretch =>
          .done stretch.elements).run b = b.scan Matroska.vocabulary s := by
  intro b fetches
  have hforward : (Scan.whole Matroska.vocabulary s b.length).Forward d.toContents
      (Scan.MayTake d.toContents Matroska.vocabulary s) 0 :=
    Scan.siblings_forward Matroska.previewLength_lt .start (Nat.le_add_left _ _)
      fun _ _ => trivial
  have horderly := hforward.run (ofDevice_advanced d cancelled _)
  have hfetches : fetches = (b.scan Matroska.vocabulary s).2.log.reverse := by
    simp [fetches, b, fetchesSince, ofDevice]
  rw [hfetches]
  refine ⟨List.pairwise_reverse.mpr horderly.ascending, fun f hmem => ?_, ?_, fun fuel hfuel => ?_⟩
  · rw [List.mem_reverse] at hmem
    refine ⟨horderly.positive f hmem, horderly.inside f hmem, ?_, fun hlong =>
      (horderly.large f hmem hlong).2⟩
    rcases Nat.lt_or_ge windowLength f.length with hlong | hshort
    · exact (horderly.large f hmem hlong).1
    · exact Nat.le_trans hshort (by decide)
  · rw [List.length_reverse]
    exact horderly.length_le
  · have henough : d.length ≤ 0 + fuel := by omega
    exact congrArg (fun q => Inquiry.run q b)
      (Scan.siblings_fuel henough (Nat.le_add_left d.length 0))

end Buffered

end EbmlReport
