import EbmlReport.Matroska.Specification
import EbmlReport.Proofs.Locality
import EbmlReport.Proofs.Translation

/-!
# Scans of concatenated streams

When one stream is written behind another, the elements of the second are found behind
those of the first, as long as the first does not end in the middle of something.  Its last
element must declare where it ends.  One of unknown size would go on into the second stream,
and a clipped one would take bytes from it.

The elements of the first stream are read in the whole as they were alone, since each but
the last ends before the end of its stream.  Those of the second are read further on.
Nothing that is kept from one top-level element to the next matters, so the second stream
may be read with whatever the first has left.

**Results.**
* `Reads.at_root`, `Fails.at_root`: the top level forgets which containers were opened.
* `Reads.leads`: what is read behind a stretch is read after it.
* `Buffered.scan_concatenated`: the law for a scan.
-/

namespace EbmlReport

/-- Whatever comes of reading the zone from `middle` on, with any containers opened before,
comes of reading it from `pos` on behind the elements of `front`. -/
structure Leads (c : Contents) (v : Vocabulary) (s : Settings) (zone : Zone) (pos : Nat)
    (seen : Bool) (front : Forest) (middle : Nat) : Prop where
  reads :
    ∀ behind, (∀ seen, ∃ r, Reads c v s zone middle seen r ∧ r.elements = behind) →
      ∃ r, Reads c v s zone pos seen r ∧ r.elements.toList = front.toList ++ behind.toList
  fails :
    ∀ offset reason, (∀ seen, Fails c v s zone middle seen offset reason) →
      Fails c v s zone pos seen offset reason

section Stretches

variable {c c' : Contents} {v : Vocabulary} {s : Settings} {zone : Zone} {pos middle : Nat}
  {seen after : Bool} {element : Element} {rest : Forest} {r : Stretch}

theorem Leads.refl (seen : Bool) : Leads c v s zone pos seen .nil pos where
  reads behind h := by
    obtain ⟨r, hread, rfl⟩ := h seen
    exact ⟨r, hread, rfl⟩
  fails _ _ h := h seen

theorem Leads.cons
    (hfirst : Yields c v s zone pos seen element after)
    (h : Leads c v s zone element.stop after rest middle) :
    Leads c v s zone pos seen (.cons element rest) middle where
  reads behind hbehind := by
    obtain ⟨r, hread, hlist⟩ := h.reads behind hbehind
    exact ⟨_, .cons hfirst hread, by simp [hlist]⟩
  fails offset reason hbehind := .behind hfirst (h.fails offset reason hbehind)

/-- At the top level it is not kept whether a container was opened before. -/
theorem Zone.carries_at_root
    (hroot : zone.path = [])
    (seen other : Bool) :
    zone.carries seen = zone.carries other := by
  simp [carries, hroot]

/-- So for what is read there it does not matter. -/
theorem Reads.at_root
    (h : Reads c v s zone pos seen r)
    (hroot : zone.path = [])
    (other : Bool) :
    ∃ r', Reads c v s zone pos other r' ∧ r'.elements = r.elements := by
  cases h with
  | ended hend => exact ⟨_, .ended hend, rfl⟩
  | closed hinside hreads hopen hcloses => exact ⟨_, .closed hinside hreads hopen hcloses, rfl⟩
  | unreadable hinside hreads hdeclared hlenient =>
      exact ⟨_, .unreadable hinside hreads hdeclared hlenient, rfl⟩
  | leaf hopens hsettles hrest =>
      rw [Zone.carries_at_root hroot seen other] at hsettles hrest
      exact ⟨_, .leaf hopens hsettles hrest, rfl⟩
  | entered hopens hframe happroach hentry hcontents hrest =>
      rw [Zone.carries_at_root hroot seen other] at hentry hcontents
      exact ⟨_, .entered hopens hframe happroach hentry hcontents hrest, rfl⟩

theorem Yields.at_root
    (h : Yields c v s zone pos seen element after)
    (hroot : zone.path = [])
    (other : Bool) :
    Yields c v s zone pos other element after := by
  cases h with
  | settled hopens hsettles =>
      rw [Zone.carries_at_root hroot seen other] at hsettles ⊢
      exact .settled hopens hsettles
  | entered hopens hframe happroach hentry hcontents =>
      rw [Zone.carries_at_root hroot seen other] at hentry hcontents
      exact .entered hopens hframe happroach hentry hcontents

/-- Nor does it for a defect. -/
theorem Fails.at_root
    {offset : Nat}
    {reason : Defect}
    (h : Fails c v s zone pos seen offset reason)
    (hroot : zone.path = [])
    (other : Bool) :
    Fails c v s zone pos other offset reason := by
  cases h with
  | astray hinside hreads hopen => exact .astray hinside hreads hopen
  | unreadable hinside hreads hdeclared hstrict =>
      exact .unreadable hinside hreads hdeclared hstrict
  | spoiled hopens hspoils =>
      rw [Zone.carries_at_root hroot seen other] at hspoils
      exact .spoiled hopens hspoils
  | inside hopens hframe happroach hentry hcontents =>
      rw [Zone.carries_at_root hroot seen other] at hentry hcontents
      exact .inside hopens hframe happroach hentry hcontents
  | behind hfirst hrest => exact .behind (hfirst.at_root hroot other) hrest

/-- An element of the first stream is read in the whole: it ends before its stream does, or
it is the last one and whole. -/
theorem Yields.concatenated
    {rest : Stretch}
    (hfirst : Yields c v s ⟨[], false, c.length⟩ pos seen element after)
    (hrest : Reads c v s ⟨[], false, c.length⟩ element.stop after rest)
    (hlast : rest.elements = .nil → element.IsWhole)
    (hlength : c.length ≤ c'.length)
    (hsame : c.SameOn c' 0 c.length) :
    Yields c' v s ⟨[], false, c'.length⟩ pos seen element after := by
  obtain ⟨_, hwithin⟩ := hfirst.bounds
  refine hfirst.transfer (Nat.le_refl _) (hsame.mono (Nat.zero_le _) hwithin)
    ?_ ?_ (Nat.le_refl _)
  · intro next hnext
    obtain ⟨_, hbefore⟩ := Contents.headingAt_bounds hnext
    exact Contents.SameOn.headingAt (hsame.mono (Nat.zero_le _) hbefore) hnext
      (Nat.le_trans hbefore hlength)
  · refine Or.inr ⟨Nat.le_trans hwithin hlength, ?_⟩
    by_cases hend : element.stop = c.length
    · have hnone := hrest.eq_of_end (Nat.le_of_eq hend.symm)
      exact Or.inr (hlast (by rw [hnone])).declared
    · exact Or.inl (Nat.lt_of_le_of_ne hwithin hend)

theorem Leads.cons_of_concatenated
    {rest : Stretch}
    (hfirst : Yields c v s ⟨[], false, c.length⟩ pos seen element after)
    (hrest : Reads c v s ⟨[], false, c.length⟩ element.stop after rest)
    (hlast : ∀ e, (Forest.cons element rest.elements).toList.getLast? = some e → e.IsWhole)
    (hlength : c.length ≤ c'.length)
    (hsame : c.SameOn c' 0 c.length)
    (h : (∀ e, rest.elements.toList.getLast? = some e → e.IsWhole) →
      Leads c' v s ⟨[], false, c'.length⟩ element.stop after rest.elements c.length) :
    Leads c' v s ⟨[], false, c'.length⟩ pos seen (.cons element rest.elements) c.length := by
  rw [Forest.toList_cons, List.getLast?_cons] at hlast
  refine .cons (hfirst.concatenated hrest ?_ hlength hsame) (h ?_)
  · intro hnil
    exact hlast element (by simp [hnil, Forest.toList])
  · intro e he
    exact hlast e (by simp [he])

/-- What is read of the first stream leads to what is read behind it. -/
theorem Reads.leads
    (h : Reads c v s zone pos seen r)
    (hzone : zone = ⟨[], false, c.length⟩)
    (hpos : pos ≤ c.length)
    (hlast : ∀ e, r.elements.toList.getLast? = some e → e.IsWhole)
    (hlength : c.length ≤ c'.length)
    (hsame : c.SameOn c' 0 c.length) :
    Leads c' v s ⟨[], false, c'.length⟩ pos seen r.elements c.length := by
  induction h with
  | @ended zone pos seen hend =>
      subst hzone
      obtain rfl : pos = c.length := Nat.le_antisymm hpos hend
      exact .refl seen
  | closed hinside hreads hopen hcloses => simp [hzone] at hopen
  | @unreadable zone pos seen reason hinside hreads hdeclared hlenient =>
      have hwhole := hlast (.placeholder pos (zone.stop - pos) reason) (by simp [Forest.toList])
      exact absurd hwhole.heading (by simp [Element.placeholder])
  | @leaf zone pos seen heading element rest hopens hsettles hrest ih =>
      subst hzone
      have hfirst : Yields c v s ⟨[], false, c.length⟩ pos seen element _ :=
        .settled hopens hsettles
      exact .cons_of_concatenated hfirst hrest hlast hlength hsame
        (fun hlast => ih rfl hfirst.bounds.2 hlast)
  | @entered zone pos seen kept heading frame contents rest hopens hframe happroach hentry
      hcontents hrest ihContents ihRest =>
      subst hzone
      have hfirst : Yields c v s ⟨[], false, c.length⟩ pos seen _ _ :=
        .entered hopens hframe happroach hentry hcontents
      have hwithin := hfirst.bounds.2
      rw [Element.stop, Frame.contained_frame] at hwithin
      refine .cons_of_concatenated hfirst ?_ hlast hlength hsame ?_
      · rw [Element.stop, Frame.contained_frame]
        exact hrest
      · rw [Element.stop, Frame.contained_frame]
        exact fun hlast => ihRest rfl hwithin hlast

end Stretches

namespace Buffered

/-- When a second stream is written behind a first, and the last element of the first is
whole, a scan of both gives the elements of the first and those of the second, which lie
further on.  Where the second alone fails, both together fail, further on. -/
theorem scan_concatenated
    {front back whole : Buffered}
    {v : Vocabulary}
    {s : Settings}
    {forest : Forest}
    (hfront : front.Faithful)
    (hback : back.Faithful)
    (hwhole : whole.Faithful)
    (hlength : whole.length = front.length + back.length)
    (hbefore : ∀ i, i < front.length → whole.device.byteAt i = front.device.byteAt i)
    (hbehind : ∀ i, i < back.length →
      whole.device.byteAt (front.length + i) = back.device.byteAt i)
    (hscan : (front.scan v s).1 = .ok forest)
    (hlast : ∀ e, forest.toList.getLast? = some e → e.IsWhole) :
    (∀ behind, (back.scan v s).1 = .ok behind →
      (whole.scan v s).1 =
        .ok (.ofList (forest.toList ++ (behind.shift front.length).toList))) ∧
      ∀ offset reason, (back.scan v s).1 = .error (.format offset reason) →
        (whole.scan v s).1 = .error (.format (front.length + offset) reason) := by
  rw [hfront.scan_eq] at hscan
  rw [hback.scan_eq, hwhole.scan_eq]
  obtain ⟨r, hreads, rfl⟩ := Contents.scan_eq_ok_iff.mp hscan
  have hholds : whole.device.toContents.HoldsAt back.device.toContents front.length :=
    ⟨Nat.le_of_eq hlength.symm, hbehind⟩
  have hleads : Leads whole.device.toContents v s ⟨[], false, whole.length⟩ 0 false r.elements
      front.length :=
    hreads.leads rfl (Nat.zero_le _) hlast (by
      show front.length ≤ whole.length
      omega) (fun i _ hi => hbefore i hi)
  have hzone : (⟨[], false, back.length⟩ : Zone).shift front.length =
      ⟨[], false, whole.length⟩ := by
    rw [hlength]
    rfl
  constructor
  · intro behind hscan
    obtain ⟨r', hreads', rfl⟩ := Contents.scan_eq_ok_iff.mp hscan
    have hshifted : Reads whole.device.toContents v s ⟨[], false, whole.length⟩ front.length false
        (r'.shift front.length) := by
      rw [← hzone]
      exact hreads'.shift hholds (Nat.le_refl _)
    obtain ⟨all, hall, hlist⟩ := hleads.reads (r'.elements.shift front.length)
      (hshifted.at_root rfl)
    rw [← hlist, Forest.ofList_toList]
    exact Contents.scan_eq_ok_iff.mpr ⟨all, hall, rfl⟩
  · intro offset reason hscan
    obtain ⟨_, _, hfailure, hfails⟩ := Contents.scan_eq_error_iff.mp hscan
    obtain ⟨rfl, rfl⟩ := Failure.format.inj hfailure
    have hshifted : Fails whole.device.toContents v s ⟨[], false, whole.length⟩ front.length false
        (front.length + offset) reason := by
      rw [← hzone]
      exact hfails.shift hholds (Nat.le_refl _)
    exact Contents.scan_eq_error_iff.mpr
      ⟨_, _, rfl, hleads.fails _ _ (hshifted.at_root rfl)⟩

/-- Two segments of two clusters each in a shallow scan: the first cluster of either is
opened, and the second one passed over. -/
theorem scan_concatenated_segments :
    let segment : Bytes :=
      [0x18, 0x53, 0x80, 0x67, 0x8D, 0x1F, 0x43, 0xB6, 0x75, 0x83, 0xE7, 0x81, 0x05,
        0x1F, 0x43, 0xB6, 0x75, 0x80]
    let forest : Forest :=
      .master ⟨0x18538067, ⟨0, 5⟩, .known 13, ⟨5, 13⟩, none⟩
        (.master ⟨0x1F43B675, ⟨5, 5⟩, .known 3, ⟨10, 3⟩, none⟩
          (.leaf ⟨0xE7, ⟨10, 2⟩, .known 1, ⟨12, 1⟩, none⟩ (.value (.unsigned 5)) .nil)
          (.leaf ⟨0x1F43B675, ⟨13, 5⟩, .known 0, ⟨18, 0⟩, none⟩ .skipped .nil))
        .nil
    let front := ofBytes segment
    let whole := ofBytes (segment ++ segment)
    front.Faithful ∧ whole.Faithful ∧ whole.length = front.length + front.length ∧
      (∀ i, i < front.length → whole.device.byteAt i = front.device.byteAt i) ∧
      (∀ i, i < front.length →
        whole.device.byteAt (front.length + i) = front.device.byteAt i) ∧
      (front.scan Matroska.vocabulary { shallow := true }).1 = .ok forest ∧
      (∀ e, forest.toList.getLast? = some e → e.IsWhole) ∧
      (whole.scan Matroska.vocabulary { shallow := true }).1 =
        .ok (.ofList (forest.toList ++ (forest.shift 18).toList)) := by
  intro segment forest front whole
  have hfront : front.Faithful := ofBytes_faithful _
  have hwhole : whole.Faithful := ofBytes_faithful _
  have hlength : whole.length = front.length + front.length := by decide +kernel
  have hbefore : ∀ i, i < front.length → whole.device.byteAt i = front.device.byteAt i := by
    decide +kernel
  have hbehind : ∀ i, i < front.length →
      whole.device.byteAt (front.length + i) = front.device.byteAt i := by
    decide +kernel
  have hscan : (front.scan Matroska.vocabulary { shallow := true }).1 = .ok forest := by
    decide +kernel
  have hlast : ∀ e, forest.toList.getLast? = some e → e.IsWhole := by
    intro e he
    obtain rfl := Option.some.inj he
    exact ⟨by decide, rfl⟩
  exact ⟨hfront, hwhole, hlength, hbefore, hbehind, hscan, hlast,
    (scan_concatenated hfront hfront hwhole hlength hbefore hbehind hscan hlast).1 _ hscan⟩

end Buffered

end EbmlReport
