import EbmlReport.Matroska.Specification
import EbmlReport.Proofs.Reading
import EbmlReport.Proofs.Stream

/-!
# A shallow scan is the full scan pruned

A shallow scan keeps the first skippable container under each top-level element and
passes over the others.  So its result can be told from that of the full scan: walk
each top-level element in file order, keep the first skippable container, and drop the
children of those that come after it.

Containers of unknown size that are passed over have to be read all the same, since
their end shows only by content.  `Reads.shallow_container` covers both ways.

**Results.**
* `Reads.shallow`: a zone that can be read in full can be read shallowly, up to the same
  place, as the pruned stretch.
* `Buffered.scan_shallow_eq_pruned`: a shallow scan gives what pruning leaves of the
  full scan.
-/

namespace EbmlReport

namespace Forest

variable (v : Vocabulary)

/-- What is left of elements when all skippable containers but the first lose their
children.  `seen` tells whether the first has been met, before and afterwards. -/
def prune : Forest → (seen : Bool) → Forest × Bool
  | nil, seen => (nil, seen)
  | leaf frame content rest, seen =>
      let after := rest.prune seen
      (leaf frame content after.1, after.2)
  | master frame children rest, seen =>
      if v.isSkippable frame.id && seen then
        let after := rest.prune seen
        (leaf frame .skipped after.1, after.2)
      else
        let inside := children.prune (seen || v.isSkippable frame.id)
        let after := rest.prune inside.2
        (master frame inside.1 after.1, after.2)

end Forest

/-- What is left of one element, and whether a skippable container has then been met. -/
def Element.prune (v : Vocabulary) : Element → (seen : Bool) → Element × Bool
  | leaf frame content, seen => (leaf frame content, seen)
  | master frame children, seen =>
      if v.isSkippable frame.id && seen then (leaf frame .skipped, seen)
      else
        let inside := children.prune v (seen || v.isSkippable frame.id)
        (master frame inside.1, inside.2)

/-- Prunes every top-level element on its own. -/
def Forest.pruneRoots (v : Vocabulary) (forest : Forest) : Forest :=
  .ofList (forest.toList.map fun root => (root.prune v false).1)

namespace Forest

variable (v : Vocabulary) (element : Element) (rest : Forest) (seen : Bool)

theorem prune_cons :
    (cons element rest).prune v seen =
      (cons (element.prune v seen).1 (rest.prune v (element.prune v seen).2).1,
        (rest.prune v (element.prune v seen).2).2) := by
  cases element with
  | leaf frame content => rfl
  | master frame children =>
      simp only [cons, prune, Element.prune]
      split <;> rfl

theorem pruneRoots_cons :
    (cons element rest).pruneRoots v =
      cons (element.prune v false).1 (rest.pruneRoots v) := by
  simp [pruneRoots, ofList]

/-- Once a skippable container has been met, that is never forgotten. -/
theorem prune_true_snd (forest : Forest) : (forest.prune v true).2 = true := by
  induction forest with
  | nil => rfl
  | leaf frame content rest ih => exact ih
  | master frame children rest ihChildren ihRest =>
      simp only [prune]
      split
      · exact ihRest
      · rw [Bool.true_or, ihChildren]
        exact ihRest

end Forest

section Shallow

variable {c : Contents} {v : Vocabulary} {maxDepth : Nat} {recovery : Recovery} {zone : Zone}
  {pos : Nat} {frame : Frame} {seen : Bool}

/-- A full scan enters every container above the depth limit, to keep its children. -/
theorem entry_full
    {kept : Bool}
    (h : Scan.entry v ⟨false, maxDepth, recovery⟩ zone frame seen = .goesOn kept) :
    kept = true ∧ zone.depth < maxDepth := by
  simp only [Scan.entry] at h
  split at h
  · split at h
    · simp only [Scan.giveUp, Scan.settle] at h
      split at h
      · simp at h
      · split at h <;> simp at h
    · simp only [Scan.settle] at h
      split at h <;> simp at h
  · rename_i hdepth
    simp only [Bool.false_and, Bool.false_eq_true, if_false, Decision.goesOn.injEq] at h
    exact ⟨h.symm, by omega⟩

/-- What a full scan shuts is too deep, and a shallow one shuts it too. -/
theorem entry_shallow_of_shut
    {content : Content}
    (h : Scan.entry v ⟨false, maxDepth, recovery⟩ zone frame seen = .settles content)
    (seen' : Bool) :
    Scan.entry v ⟨true, maxDepth, recovery⟩ zone frame seen' = .settles content := by
  simp only [Scan.entry] at h ⊢
  split at h
  · rename_i hdepth
    rw [if_pos hdepth]
    exact h
  · simp at h

theorem entry_shallow (hdepth : zone.depth < maxDepth) :
    Scan.entry v ⟨true, maxDepth, recovery⟩ zone frame seen =
      if v.isSkippable frame.id && seen then
        if frame.declared = .unknown then .goesOn false else .settles .skipped
      else .goesOn true := by
  simp only [Scan.entry]
  rw [if_neg (Nat.not_le.mpr hdepth), Bool.true_and]

/-- A leaf of the full scan is one of the shallow scan. -/
theorem Settles.shallow
    {element : Element}
    (h : Settles c v ⟨false, maxDepth, recovery⟩ zone frame seen element)
    (seen' : Bool) :
    Settles c v ⟨true, maxDepth, recovery⟩ zone frame seen' element := by
  cases h with
  | givenUp happroach => exact .givenUp happroach
  | leaf happroach hleaf => exact .leaf happroach hleaf
  | shut happroach hentry => exact .shut happroach (entry_shallow_of_shut hentry seen')

/-- A container that the full scan enters is pruned by the shallow scan, which then goes
on behind it. -/
theorem Reads.shallow_container
    {heading : Heading}
    {contents rest : Stretch}
    (seen' : Bool)
    (hopens : Opens c v zone pos heading)
    (hframe : frame = zone.frameAt pos heading)
    (happroach : Scan.approach v ⟨true, maxDepth, recovery⟩ zone frame = .goesOn .asMaster)
    (hdepth : zone.depth < maxDepth)
    (hcontents : ∀ seen,
      Reads c v ⟨true, maxDepth, recovery⟩ (zone.inside frame) frame.data.start seen
        ⟨(contents.elements.prune v seen).1, contents.stop,
          (contents.elements.prune v seen).2⟩)
    (hrest :
      Reads c v ⟨true, maxDepth, recovery⟩ zone (frame.closedAt contents.stop).data.stop
        ((Element.master (frame.closedAt contents.stop) contents.elements).prune v
          (zone.carries seen')).2 rest) :
    Reads c v ⟨true, maxDepth, recovery⟩ zone pos seen'
      { rest with
        elements := .cons
          ((Element.master (frame.closedAt contents.stop) contents.elements).prune v
            (zone.carries seen')).1 rest.elements } := by
  have hentry := @entry_shallow v maxDepth recovery zone frame (zone.carries seen') hdepth
  simp only [Element.prune, Frame.closedAt_id] at hrest ⊢
  cases hskip : v.isSkippable frame.id && zone.carries seen' with
  | false =>
      simp only [hskip, Bool.false_eq_true, if_false] at hrest hentry ⊢
      have hread := hcontents (Scan.seenInside v ⟨true, maxDepth, recovery⟩ frame
        (zone.carries seen'))
      have hinside : Scan.seenInside v ⟨true, maxDepth, recovery⟩ frame (zone.carries seen') =
          (zone.carries seen' || v.isSkippable frame.id) := by
        simp [Scan.seenInside]
      rw [← hinside] at hrest ⊢
      exact .entered hopens hframe happroach hentry hread hrest
  | true =>
      simp only [hskip, if_true] at hrest hentry ⊢
      obtain ⟨hskippable, hseen⟩ := Bool.and_eq_true_iff.mp hskip
      rw [hseen] at hrest
      cases hdeclared : frame.declared with
      | known length =>
          rw [hdeclared] at hentry
          rw [Frame.closedAt_of_known _ hdeclared] at hrest ⊢
          subst hframe
          refine .leaf hopens (.shut happroach hentry) ?_
          rw [hseen]
          exact hrest
      | unknown =>
          rw [if_pos hdeclared] at hentry
          have hread := hcontents (Scan.seenInside v ⟨true, maxDepth, recovery⟩ frame
            (zone.carries seen'))
          have hmet : (contents.elements.prune v
              (Scan.seenInside v ⟨true, maxDepth, recovery⟩ frame
                (zone.carries seen'))).2 = true := by
            rw [Scan.seenInside, hseen, Bool.true_or, Forest.prune_true_snd]
          have hbehind : Reads c v ⟨true, maxDepth, recovery⟩ zone
              (frame.closedAt contents.stop).data.stop
              (contents.elements.prune v
                (Scan.seenInside v ⟨true, maxDepth, recovery⟩ frame
                  (zone.carries seen'))).2 rest := by
            rw [hmet]
            exact hrest
          have hall := Reads.entered hopens hframe happroach hentry hread hbehind
          exact hall

/-- A zone that can be read in full can be read shallowly: inside a top-level element as
what one pruning leaves, and at the top level with every element pruned on its own. -/
theorem Reads.shallow
    {r : Stretch}
    (h : Reads c v ⟨false, maxDepth, recovery⟩ zone pos seen r)
    (seen' : Bool) :
    (zone.path ≠ [] →
        Reads c v ⟨true, maxDepth, recovery⟩ zone pos seen'
          ⟨(r.elements.prune v seen').1, r.stop, (r.elements.prune v seen').2⟩) ∧
      (zone.path = [] →
        ∃ seen'', Reads c v ⟨true, maxDepth, recovery⟩ zone pos seen'
          ⟨r.elements.pruneRoots v, r.stop, seen''⟩) := by
  induction h generalizing seen' with
  | ended hend => exact ⟨fun _ => .ended hend, fun _ => ⟨seen', .ended hend⟩⟩
  | closed hinside hreads hopen hcloses =>
      exact ⟨fun _ => .closed hinside hreads hopen hcloses,
        fun _ => ⟨seen', .closed hinside hreads hopen hcloses⟩⟩
  | unreadable hinside hreads hdeclared hlenient =>
      exact ⟨fun _ => .unreadable hinside hreads hdeclared hlenient,
        fun _ => ⟨seen', .unreadable hinside hreads hdeclared hlenient⟩⟩
  | @leaf zone pos seen heading element rest hopens hsettles hrest ih =>
      have hleaf : ∀ seen, element.prune v seen = (element, seen) := by
        obtain ⟨frame, content, rfl⟩ := hsettles.exists_leaf
        exact fun _ => rfl
      constructor
      · intro hpath
        have hcarries : zone.carries seen' = seen' := by simp [Zone.carries, hpath]
        have hread : Reads c v ⟨true, maxDepth, recovery⟩ zone pos seen' _ :=
          .leaf hopens (hsettles.shallow _) ((ih _).1 hpath)
        rw [hcarries] at hread
        simp only [Forest.prune_cons, hleaf]
        exact hread
      · intro hpath
        have hcarries : zone.carries seen' = false := by simp [Zone.carries, hpath]
        obtain ⟨seen'', hread⟩ := (ih (zone.carries seen')).2 hpath
        simp only [Forest.pruneRoots_cons, hleaf]
        exact ⟨seen'', .leaf hopens (hsettles.shallow _) hread⟩
  | @entered zone pos seen kept heading frame contents rest hopens hframe happroach hentry
      hcontents hrest ihContents ihRest =>
      obtain ⟨rfl, hdepth⟩ := entry_full hentry
      have hshallow := fun seen => (ihContents seen).1 (by simp)
      -- The flag goes on from element to element, but starts anew at the top level.
      constructor
      · intro hpath
        have hcarries : zone.carries seen' = seen' := by simp [Zone.carries, hpath]
        have hread := Reads.shallow_container seen' hopens hframe happroach hdepth
          hshallow ((ihRest _).1 hpath)
        rw [hcarries] at hread
        rw [Frame.contained, if_pos rfl, Forest.prune_cons]
        exact hread
      · intro hpath
        have hcarries : zone.carries seen' = false := by simp [Zone.carries, hpath]
        obtain ⟨seen'', hrest⟩ := (ihRest _).2 hpath
        have hread := Reads.shallow_container seen' hopens hframe happroach hdepth
          hshallow hrest
        rw [hcarries] at hread
        rw [Frame.contained, if_pos rfl, Forest.pruneRoots_cons]
        exact ⟨seen'', hread⟩

end Shallow

namespace Buffered

/-- On a faithful stream a shallow scan gives what pruning leaves of the full scan. -/
theorem scan_shallow_eq_pruned
    {b : Buffered}
    {v : Vocabulary}
    {maxDepth : Nat}
    {recovery : Recovery}
    {forest : Forest}
    (hb : b.Faithful)
    (h : (b.scan v ⟨false, maxDepth, recovery⟩).1 = .ok forest) :
    (b.scan v ⟨true, maxDepth, recovery⟩).1 = .ok (forest.pruneRoots v) := by
  rw [hb.scan_eq, Contents.scan_eq_ok_iff] at h ⊢
  obtain ⟨r, hreads, rfl⟩ := h
  obtain ⟨seen, hshallow⟩ := (hreads.shallow false).2 rfl
  exact ⟨_, hshallow, rfl⟩

/-- Three clusters in a segment: the first is kept, the second is passed over by its
length, and the third has to be read to find its end. -/
theorem scan_shallow_three_clusters :
    let b := ofBytes
      [0x18, 0x53, 0x80, 0x67, 0xFF, 0x1F, 0x43, 0xB6, 0x75, 0xFF, 0xE7, 0x81, 0x05,
        0x1F, 0x43, 0xB6, 0x75, 0x83, 0xE7, 0x81, 0x07,
        0x1F, 0x43, 0xB6, 0x75, 0xFF, 0xE7, 0x81, 0x09, 0x12, 0x54, 0xC3, 0x67, 0x80]
    let full : Forest :=
      .master ⟨0x18538067, ⟨0, 5⟩, .unknown, ⟨5, 29⟩, none⟩
        (.master ⟨0x1F43B675, ⟨5, 5⟩, .unknown, ⟨10, 3⟩, none⟩
          (.leaf ⟨0xE7, ⟨10, 2⟩, .known 1, ⟨12, 1⟩, none⟩ (.value (.unsigned 5)) .nil)
          (.master ⟨0x1F43B675, ⟨13, 5⟩, .known 3, ⟨18, 3⟩, none⟩
            (.leaf ⟨0xE7, ⟨18, 2⟩, .known 1, ⟨20, 1⟩, none⟩ (.value (.unsigned 7)) .nil)
            (.master ⟨0x1F43B675, ⟨21, 5⟩, .unknown, ⟨26, 3⟩, none⟩
              (.leaf ⟨0xE7, ⟨26, 2⟩, .known 1, ⟨28, 1⟩, none⟩ (.value (.unsigned 9)) .nil)
              (.master ⟨0x1254C367, ⟨29, 5⟩, .known 0, ⟨34, 0⟩, none⟩ .nil .nil))))
        .nil
    let pruned : Forest :=
      .master ⟨0x18538067, ⟨0, 5⟩, .unknown, ⟨5, 29⟩, none⟩
        (.master ⟨0x1F43B675, ⟨5, 5⟩, .unknown, ⟨10, 3⟩, none⟩
          (.leaf ⟨0xE7, ⟨10, 2⟩, .known 1, ⟨12, 1⟩, none⟩ (.value (.unsigned 5)) .nil)
          (.leaf ⟨0x1F43B675, ⟨13, 5⟩, .known 3, ⟨18, 3⟩, none⟩ .skipped
            (.leaf ⟨0x1F43B675, ⟨21, 5⟩, .unknown, ⟨26, 3⟩, none⟩ .skipped
              (.master ⟨0x1254C367, ⟨29, 5⟩, .known 0, ⟨34, 0⟩, none⟩ .nil .nil))))
        .nil
    b.Faithful ∧ (b.scan Matroska.vocabulary ⟨false, 64, .strict⟩).1 = .ok full ∧
      full.pruneRoots Matroska.vocabulary = pruned ∧
      (b.scan Matroska.vocabulary ⟨true, 64, .strict⟩).1 = .ok pruned := by
  intro b full pruned
  have hfaithful : b.Faithful := ofBytes_faithful _
  have hscan : (b.scan Matroska.vocabulary ⟨false, 64, .strict⟩).1 = .ok full := by
    decide +kernel
  have hpruned : full.pruneRoots Matroska.vocabulary = pruned := by decide +kernel
  refine ⟨hfaithful, hscan, hpruned, ?_⟩
  rw [← hpruned]
  exact scan_shallow_eq_pruned hfaithful hscan

end Buffered

end EbmlReport
