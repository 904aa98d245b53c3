import EbmlReport.Matroska.Specification
import EbmlReport.Proofs.Reading
import EbmlReport.Proofs.Stream

/-!
# The elements of a scan tile the file

The elements of a zone lie end to end, from where reading began to where it stopped,
and so do the children of each container inside its payload.  No byte is left out and
none belongs to two elements next to each other.

A payload has the length that was declared for it, unless that is more than the zone
has left.  Such an element is clipped, carries the defect that says so, and is the last
one of its zone.

**Results.**
* `Reads.tiles`: a stretch tiles what was read.
* `Reads.keepsSizes`: only the last element of a stretch can be clipped.
* `Forest.Tiles.increasing`: in a tiling, each element starts behind the one before it.
* `Buffered.scan_tiles_stream`: all this holds of every scan that has a result.
-/

namespace EbmlReport

/-- The elements lie end to end from `start` to `stop`, each payload right behind its
heading, and the children of each container tile its payload. -/
def Forest.Tiles : Forest → (start stop : Nat) → Prop
  | nil, start, stop => start = stop
  | leaf frame _ rest, start, stop =>
      frame.heading.start = start ∧ frame.heading.stop = frame.data.start ∧
        start < frame.data.stop ∧ rest.Tiles frame.data.stop stop
  | master frame children rest, start, stop =>
      frame.heading.start = start ∧ frame.heading.stop = frame.data.start ∧
        start < frame.data.start ∧ children.Tiles frame.data.start frame.data.stop ∧
        rest.Tiles frame.data.stop stop

/-- The element carries the defect of one that declares more than there is: beside its
content when it is a container, as its content when it is not. -/
def Element.Overruns (v : Vocabulary) (e : Element) (declared : Nat) : Prop :=
  if v.isMaster e.id then e.frame.error = some (.overrunsParent declared e.frame.data.length)
  else e = .leaf e.frame (.corrupt (.overrunsParent declared e.frame.data.length))

/-- A declared length is kept, or the element is clipped: it says so, nothing follows
it, and it ends at `stop`. -/
def Element.KeepsSize (v : Vocabulary) (e : Element) (rest : Forest) (stop : Nat) : Prop :=
  ∀ declared, e.frame.declared = .known declared →
    e.frame.data.length = declared ∨
      (e.frame.data.length < declared ∧ e.Overruns v declared ∧ rest = .nil ∧ e.stop = stop)

/-- Every element below a payload that ends at `stop` keeps its size. -/
def Forest.KeepsSizes (v : Vocabulary) : Forest → (stop : Nat) → Prop
  | nil, _ => True
  | leaf frame content rest, stop =>
      (Element.leaf frame content).KeepsSize v rest stop ∧ rest.KeepsSizes v stop
  | master frame children rest, stop =>
      (Element.master frame children).KeepsSize v rest stop ∧
        children.KeepsSizes v frame.data.stop ∧ rest.KeepsSizes v stop

/-- The offsets at which the elements start, in the order of a walk. -/
def Forest.starts (forest : Forest) : List Nat :=
  (forest.preorder 0).map fun (_, e) => e.frame.heading.start

namespace Forest.Tiles

variable {forest : Forest} {start stop : Nat}

theorem le (h : forest.Tiles start stop) : start ≤ stop := by
  induction forest generalizing start stop with
  | nil => exact Nat.le_of_eq h
  | leaf frame content rest ih =>
      obtain ⟨_, _, hforward, hrest⟩ := h
      have hle := ih hrest
      omega
  | master frame children rest ihChildren ih =>
      obtain ⟨_, _, hforward, hchildren, hrest⟩ := h
      have hinside := ihChildren hchildren
      have hle := ih hrest
      omega

/-- Nothing tiles only nothing. -/
theorem eq_nil_iff (h : forest.Tiles start stop) : forest = .nil ↔ start = stop := by
  cases forest with
  | nil => exact ⟨fun _ => h, fun _ => rfl⟩
  | leaf frame content rest =>
      obtain ⟨_, _, hforward, hrest⟩ := h
      have hle := le hrest
      constructor
      · intro hnil
        simp at hnil
      · intro hsame
        omega
  | master frame children rest =>
      obtain ⟨_, _, hforward, hchildren, hrest⟩ := h
      have hinside := le hchildren
      have hle := le hrest
      constructor
      · intro hnil
        simp at hnil
      · intro hsame
        omega

/-- Every element of a tiling starts inside it, and behind all that come before it. -/
theorem increasing_below (h : forest.Tiles start stop) (depth : Nat) :
    (∀ x ∈ forest.preorder depth,
        start ≤ x.2.frame.heading.start ∧ x.2.frame.heading.start < stop) ∧
      (forest.preorder depth).Pairwise fun x y =>
        x.2.frame.heading.start < y.2.frame.heading.start := by
  induction forest generalizing start stop depth with
  | nil => exact ⟨by simp [preorder], .nil⟩
  | leaf frame content rest ih =>
      obtain ⟨hstart, _, hforward, hrest⟩ := h
      obtain ⟨hrange, hpairs⟩ := ih hrest depth
      have hle := le hrest
      simp only [preorder, List.mem_cons, List.pairwise_cons]
      refine ⟨?_, ?_, hpairs⟩
      · rintro x (rfl | hx)
        · simp only [Element.frame_leaf]
          omega
        · have := hrange x hx
          omega
      · intro x hx
        have := hrange x hx
        simp only [Element.frame_leaf]
        omega
  | master frame children rest ihChildren ih =>
      obtain ⟨hstart, _, hforward, hchildren, hrest⟩ := h
      obtain ⟨hinner, hbelow⟩ := ihChildren hchildren (depth + 1)
      obtain ⟨hrange, hpairs⟩ := ih hrest depth
      have hinside := le hchildren
      have hle := le hrest
      simp only [preorder, List.mem_cons, List.mem_append, List.pairwise_cons,
        List.pairwise_append]
      refine ⟨?_, ?_, hbelow, hpairs, ?_⟩
      · rintro x (rfl | hx | hx)
        · simp only [Element.frame_master]
          omega
        · have := hinner x hx
          omega
        · have := hrange x hx
          omega
      · rintro x (hx | hx)
        · have := hinner x hx
          simp only [Element.frame_master]
          omega
        · have := hrange x hx
          simp only [Element.frame_master]
          omega
      · intro x hx y hy
        have hxrange := hinner x hx
        have hyrange := hrange y hy
        omega

/-- A walk over a tiling never goes back. -/
theorem increasing (h : forest.Tiles start stop) : forest.starts.Pairwise (· < ·) := by
  unfold Forest.starts
  rw [List.pairwise_map]
  exact (h.increasing_below 0).2

end Forest.Tiles

section Stretches

variable {c : Contents} {v : Vocabulary} {s : Settings} {zone : Zone} {pos : Nat}

theorem Zone.heading_stop_frameAt {heading : Heading} :
    (zone.frameAt pos heading).heading.stop = (zone.frameAt pos heading).data.start := by
  rw [Zone.frameAt_heading, Zone.frameAt_data_start]
  rfl

/-- A stretch tiles what was read of its zone. -/
theorem Reads.tiles
    {seen : Bool}
    {r : Stretch}
    (h : Reads c v s zone pos seen r)
    (hpos : pos ≤ zone.stop) :
    r.elements.Tiles pos r.stop := by
  induction h with
  | ended hend => rfl
  | closed hinside hreads hopen hcloses => rfl
  | @unreadable zone pos seen reason hinside hreads hdeclared hlenient =>
      have hstop : pos + (zone.stop - pos) = zone.stop := by omega
      simp only [Element.placeholder, Forest.cons, Forest.Tiles, Span.stop, Nat.add_zero,
        hstop, true_and, and_true]
      exact hinside
  | @leaf zone pos seen heading element rest hopens hsettles hrest ih =>
      obtain ⟨hstart, hdata, hstop⟩ := hopens.data_bounds
      obtain ⟨_, hheading, _, hspan⟩ := hsettles.keeps
      have hplace : element.stop = (zone.frameAt pos heading).data.stop := by
        rw [Element.stop, hspan]
      have htail := ih (by rw [hplace]; exact hstop)
      cases element with
      | leaf frame content =>
          simp only [Element.frame_leaf] at hheading hspan
          refine ⟨?_, ?_, ?_, htail⟩
          · rw [hheading, Zone.frameAt_heading]
          · rw [hheading, hspan]
            exact Zone.heading_stop_frameAt
          · rw [hspan]
            omega
      | master frame children =>
          exact absurd hsettles.exists_leaf (by simp)
  | @entered zone pos seen kept heading frame contents rest hopens hframe happroach hentry
      hcontents hrest ihContents ihRest =>
      subst hframe
      obtain ⟨hstart, hdata, hstop⟩ := hopens.data_bounds
      obtain ⟨hlow, hhigh⟩ := hcontents.bounds
      obtain ⟨hforward, hinside⟩ := hopens.closed_bounds hlow (hhigh hdata)
      have hclosed := hopens.closed_stop hcontents
      have hheading : ((zone.frameAt pos heading).closedAt contents.stop).heading.start = pos ∧
          ((zone.frameAt pos heading).closedAt contents.stop).heading.stop =
            ((zone.frameAt pos heading).closedAt contents.stop).data.start := by
        rw [Frame.closedAt_heading, Frame.closedAt_data_start]
        exact ⟨by rw [Zone.frameAt_heading], Zone.heading_stop_frameAt⟩
      cases kept with
      | true =>
          refine ⟨hheading.1, hheading.2, ?_, ?_, ihRest hinside⟩
          · rw [Frame.closedAt_data_start]
            omega
          · rw [Frame.closedAt_data_start, hclosed]
            exact ihContents hdata
      | false =>
          exact ⟨hheading.1, hheading.2, by omega, ihRest hinside⟩

/-- A frame keeps the declared size, or is clipped where its zone ends. -/
theorem Opens.frame_size
    {heading : Heading}
    (h : Opens c v zone pos heading)
    {declared : Nat}
    (hdeclared : (zone.frameAt pos heading).declared = .known declared) :
    (zone.frameAt pos heading).data.length = declared ∨
      ((zone.frameAt pos heading).data.length < declared ∧
        (zone.frameAt pos heading).error =
          some (.overrunsParent declared (zone.frameAt pos heading).data.length) ∧
        (zone.frameAt pos heading).data.stop = zone.stop) := by
  obtain ⟨_, hinside⟩ := h.bounds
  rw [Zone.frameAt_declared] at hdeclared
  rcases @Zone.frameAt_of_known zone pos heading declared hdeclared with
    ⟨_, hlength, _⟩ | ⟨hover, hlength, herror⟩
  · exact Or.inl hlength
  · refine Or.inr ⟨by omega, by rw [herror, hlength], ?_⟩
    rw [Span.stop, hlength, Zone.frameAt_data_start]
    omega

/-- A leaf keeps its size, or is the clipped last element of its zone. -/
theorem Settles.keepsSize
    {heading : Heading}
    {seen : Bool}
    {element : Element}
    {rest : Stretch}
    (hopens : Opens c v zone pos heading)
    (h : Settles c v s zone (zone.frameAt pos heading) seen element)
    (hrest : Reads c v s zone element.stop seen rest) :
    element.KeepsSize v rest.elements rest.stop := by
  intro declared hdeclared
  obtain ⟨hid, _, hsame, hspan⟩ := h.keeps
  rw [hsame] at hdeclared
  rcases hopens.frame_size hdeclared with hlength | ⟨hover, herror, hstop⟩
  · exact Or.inl (by rw [hspan]; exact hlength)
  · have hend : element.stop = zone.stop := by rw [Element.stop, hspan, hstop]
    obtain rfl := hrest.eq_of_end (Nat.le_of_eq hend.symm)
    refine Or.inr ⟨by rw [hspan]; exact hover, ?_, rfl, rfl⟩
    unfold Element.Overruns
    rw [Element.id, hid]
    rcases h.shape with ⟨content, rfl, hkind⟩ | ⟨hkind, reason, hreason, rfl⟩
    · rcases hkind with hmaster | hnone | hunknown
      · rw [if_pos hmaster]
        exact herror
      · rw [herror] at hnone
        simp at hnone
      · rw [hdeclared] at hunknown
        simp at hunknown
    · rw [hkind, if_neg Bool.false_ne_true]
      rw [herror] at hreason
      simp only [Option.some.injEq] at hreason
      rw [← hreason]
      rfl

/-- Only the last element of a stretch can be clipped, and it says so. -/
theorem Reads.keepsSizes
    {seen : Bool}
    {r : Stretch}
    (h : Reads c v s zone pos seen r) :
    r.elements.KeepsSizes v r.stop := by
  induction h with
  | ended hend => trivial
  | closed hinside hreads hopen hcloses => trivial
  | @unreadable zone pos seen reason hinside hreads hdeclared hlenient =>
      refine ⟨?_, trivial⟩
      intro declared hknown
      simp only [Element.frame_leaf, DeclaredSize.known.injEq] at hknown
      exact Or.inl hknown
  | @leaf zone pos seen heading element rest hopens hsettles hrest ih =>
      have hkeeps := hsettles.keepsSize hopens hrest
      obtain ⟨frame, content, rfl⟩ := hsettles.exists_leaf
      exact ⟨hkeeps, ih⟩
  | @entered zone pos seen kept heading frame contents rest hopens hframe happroach hentry
      hcontents hrest ihContents ihRest =>
      subst hframe
      have hkeeps : ∀ element : Element,
          element.frame = (zone.frameAt pos heading).closedAt contents.stop →
          element.KeepsSize v rest.elements rest.stop := by
        intro element hframe declared hdeclared
        rw [hframe, Frame.closedAt_declared] at hdeclared
        rw [Frame.closedAt_of_known _ hdeclared] at hframe hrest
        rcases hopens.frame_size hdeclared with hlength | ⟨hover, herror, hstop⟩
        · exact Or.inl (by rw [hframe]; exact hlength)
        · obtain rfl := hrest.eq_of_end (Nat.le_of_eq hstop.symm)
          refine Or.inr ⟨by rw [hframe]; exact hover, ?_, rfl, by rw [Element.stop, hframe]⟩
          unfold Element.Overruns
          rw [Element.id, hframe, if_pos (isMaster_of_approach happroach)]
          exact herror
      have hclosed := hopens.closed_stop hcontents
      cases kept with
      | true => exact ⟨hkeeps _ rfl, by rw [hclosed]; exact ihContents, ihRest⟩
      | false => exact ⟨hkeeps _ rfl, ihRest⟩

end Stretches

namespace Buffered

/-- The elements of a scan tile the stream: their tree leaves out no byte of it, keeps
all declared sizes that fit, and is in file order. -/
theorem scan_tiles_stream
    {b : Buffered}
    {v : Vocabulary}
    {s : Settings}
    {forest : Forest}
    (hb : b.Exact)
    (h : (b.scan v s).1 = .ok forest) :
    forest.Tiles 0 b.length ∧
      (forest = .nil ↔ b.length = 0) ∧
      forest.KeepsSizes v b.length ∧
      forest.starts.Pairwise (· < ·) := by
  obtain ⟨r, hreads, rfl⟩ := Contents.scan_eq_ok_iff.mp (hb.scan_eq h)
  have hstop : r.stop = b.length := by
    rcases hreads.stop_cases (Nat.zero_le _) with hend | ⟨_, hopen, _⟩
    · exact hend
    · simp at hopen
  have htiles := hreads.tiles (Nat.zero_le _)
  have hsizes := hreads.keepsSizes
  rw [hstop] at htiles hsizes
  refine ⟨htiles, ?_, hsizes, htiles.increasing⟩
  rw [htiles.eq_nil_iff]
  exact eq_comm

/-- A segment and a cluster of unknown size, the cluster closed by a second one that
declares two bytes more than there are. -/
theorem scan_tiles_stream_clipped :
    let b := ofBytes
      [0x18, 0x53, 0x80, 0x67, 0xFF, 0x1F, 0x43, 0xB6, 0x75, 0xFF, 0xE7, 0x81, 0x05,
        0x1F, 0x43, 0xB6, 0x75, 0x85, 0xE7, 0x81, 0x07]
    let forest : Forest :=
      .master ⟨0x18538067, ⟨0, 5⟩, .unknown, ⟨5, 16⟩, none⟩
        (.master ⟨0x1F43B675, ⟨5, 5⟩, .unknown, ⟨10, 3⟩, none⟩
          (.leaf ⟨0xE7, ⟨10, 2⟩, .known 1, ⟨12, 1⟩, none⟩ (.value (.unsigned 5)) .nil)
          (.master ⟨0x1F43B675, ⟨13, 5⟩, .known 5, ⟨18, 3⟩, some (.overrunsParent 5 3)⟩
            (.leaf ⟨0xE7, ⟨18, 2⟩, .known 1, ⟨20, 1⟩, none⟩ (.value (.unsigned 7)) .nil)
            .nil))
        .nil
    b.Exact ∧ (b.scan Matroska.vocabulary {}).1 = .ok forest ∧
      forest.Tiles 0 21 ∧ (forest = .nil ↔ b.length = 0) ∧
      forest.KeepsSizes Matroska.vocabulary 21 ∧ forest.starts.Pairwise (· < ·) := by
  intro b forest
  have hexact : b.Exact := (ofBytes_faithful _).exact
  have hscan : (b.scan Matroska.vocabulary {}).1 = .ok forest := by decide +kernel
  exact ⟨hexact, hscan, scan_tiles_stream hexact hscan⟩

end Buffered

end EbmlReport
