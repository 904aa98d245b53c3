import EbmlReport.Proofs.Failing
import EbmlReport.Proofs.Pruning

/-!
# Strict scans and lenient scans

A lenient scan records a defect and goes on; a strict scan fails at the first one.  A
full scan finds defects in the order of a walk over its result: each element before what
is below it, and that before what comes behind.  So the result of a lenient scan tells
what a strict scan does: it fails with the first defect of the walk, and when there is
none it has the same result.

The converse holds of shallow scans too, since a strict scan has read everything that it
passes over.

**Results.**
* `Reads.strict`: what a lenient scan reads, a strict one reads unless it has a defect.
* `Reads.lenient`: what a strict scan reads, a lenient one reads, and it has no defect.
* `Buffered.scan_policies_agree`: the law for a scan.
-/

namespace EbmlReport

/-- The defect that stands in place of a content. -/
def Content.reason? : Content → Option Defect
  | value _ => none
  | skipped => none
  | corrupt reason => some reason

/-- The defect of a malformed element: the recovered one, or else the one in place of its
content. -/
def Element.defect? : Element → Option Defect
  | leaf frame content => frame.error.or content.reason?
  | master frame _ => frame.error

/-- Where an element is malformed, and how. -/
def Element.fault? (e : Element) : Option (Nat × Defect) :=
  e.defect?.map fun reason => (e.frame.heading.start, reason)

/-- The first fault of a walk. -/
def Forest.firstFault? : Forest → Option (Nat × Defect)
  | nil => none
  | leaf frame content rest => (Element.leaf frame content).fault?.or rest.firstFault?
  | master frame children rest =>
      (Element.master frame children).fault?.or (children.firstFault?.or rest.firstFault?)

theorem Element.isMalformed_eq (e : Element) : e.isMalformed = e.defect?.isSome := by
  cases e with
  | master frame children =>
      cases herror : frame.error <;> simp [isMalformed, isCorrupt, defect?, herror]
  | leaf frame content =>
      cases herror : frame.error <;> cases content <;>
        simp [isMalformed, isCorrupt, defect?, Content.reason?, herror]

namespace Forest

theorem firstFault?_cons (element : Element) (rest : Forest) :
    (cons element rest).firstFault? =
      element.fault?.or (element.children.firstFault?.or rest.firstFault?) := by
  cases element <;> rfl

/-- A walk comes to the first fault first. -/
theorem findSome?_fault? (forest : Forest) (depth : Nat) :
    (forest.preorder depth).findSome? (fun x => x.2.fault?) = forest.firstFault? := by
  induction forest generalizing depth with
  | nil => rfl
  | leaf frame content rest ih =>
      rw [preorder, firstFault?, List.findSome?_cons, ih]
      cases (Element.leaf frame content).fault? <;> rfl
  | master frame children rest ihChildren ihRest =>
      rw [preorder, firstFault?, List.findSome?_cons, List.findSome?_append, ihChildren, ihRest]
      cases (Element.master frame children).fault? <;> rfl

/-- A forest without malformed elements has no fault. -/
theorem firstFault?_eq_none_iff (forest : Forest) :
    forest.firstFault? = none ↔ ∀ x ∈ forest.preorder 0, x.2.isMalformed = false := by
  rw [← findSome?_fault? forest 0, List.findSome?_eq_none_iff]
  simp [Element.isMalformed_eq, Element.fault?]

/-- The first malformed element of a walk has the first fault. -/
theorem firstFault?_of_find?
    {forest : Forest}
    {x : Nat × Element}
    (h : (forest.preorder 0).find? (fun x => x.2.isMalformed) = some x) :
    ∃ reason, x.2.defect? = some reason ∧
      forest.firstFault? = some (x.2.frame.heading.start, reason) := by
  rw [← findSome?_fault? forest 0]
  generalize forest.preorder 0 = walk at h
  induction walk with
  | nil => simp at h
  | cons first rest ih =>
      cases hdefect : first.2.defect? with
      | some reason =>
          obtain rfl : first = x := by
            simpa [Element.isMalformed_eq, hdefect] using h
          exact ⟨reason, hdefect, by simp [Element.fault?, hdefect]⟩
      | none =>
          have hrest : rest.find? (fun x => x.2.isMalformed) = some x := by
            simpa [Element.isMalformed_eq, hdefect] using h
          obtain ⟨reason, hreason, hfirst⟩ := ih hrest
          exact ⟨reason, hreason, by simpa [Element.fault?, hdefect] using hfirst⟩

end Forest

@[simp] theorem Frame.closedAt_error (frame : Frame) (stop : Nat) :
    (frame.closedAt stop).error = frame.error := by
  unfold closedAt
  split <;> rfl

section Decisions

variable {v : Vocabulary} {s : Settings} {shallow : Bool} {maxDepth : Nat} {zone : Zone}
  {frame : Frame} {seen : Bool}

/-- Without a defect of its own, or in a lenient scan, an element is approached by its kind
and its size. -/
theorem approach_eq (h : frame.error = none ∨ s.isStrict = false) :
    Scan.approach v s zone frame =
      if v.isMaster frame.id then .goesOn .asMaster
      else if frame.declared = .unknown then
        Scan.giveUp s zone frame.heading.start .boundaryUnresolvable
      else .goesOn .asLeaf := by
  unfold Scan.approach
  split
  · rename_i herror hstrict
    simp [herror, hstrict] at h
  · rfl

/-- A strict scan fails at an element that has a defect of its own. -/
theorem approach_eq_fails
    {reason : Defect}
    (hstrict : s.isStrict = true)
    (herror : frame.error = some reason) :
    Scan.approach v s zone frame = .fails frame.heading.start reason := by
  unfold Scan.approach
  rw [herror, hstrict]

/-- A strict scan goes on only with elements that have no defect of their own. -/
theorem error_of_approach
    (hstrict : s.isStrict = true)
    (h : ∀ offset reason, Scan.approach v s zone frame ≠ .fails offset reason) :
    frame.error = none := by
  cases herror : frame.error with
  | none => rfl
  | some reason => exact absurd (approach_eq_fails hstrict herror) (h _ _)

theorem settle_ne_goesOn
    {α : Type}
    {offset : Nat}
    {reason : Defect}
    {how : α} :
    Scan.settle s offset reason ≠ .goesOn how := by
  unfold Scan.settle
  split <;> simp

theorem giveUp_ne_goesOn
    {α : Type}
    {offset : Nat}
    {reason : Defect}
    {how : α} :
    Scan.giveUp s zone offset reason ≠ .goesOn how := by
  unfold Scan.giveUp
  split
  · simp
  · exact settle_ne_goesOn

/-- A container that is entered stands above the depth limit.  Its contents are dropped only in a
shallow scan, and if it can be passed over. -/
theorem bounds_of_entry
    {kept : Bool}
    (h : Scan.entry v s zone frame seen = .goesOn kept) :
    zone.depth < s.maxDepth ∧
      (kept = false → s.shallow = true ∧ v.isSkippable frame.id = true) := by
  unfold Scan.entry at h
  split at h
  · split at h
    · exact absurd h giveUp_ne_goesOn
    · exact absurd h settle_ne_goesOn
  · rename_i hdepth
    refine ⟨Nat.lt_of_not_le hdepth, ?_⟩
    rintro rfl
    split at h
    · rename_i hskips
      simp only [Bool.and_eq_true] at hskips
      exact hskips.1
    · simp at h

/-- How an element is looked into does not depend on what is done about defects. -/
theorem approach_recovery
    {how : Approach}
    {recovery : Recovery}
    (hwhole : frame.error = none)
    (h : Scan.approach v ⟨shallow, maxDepth, recovery⟩ zone frame = .goesOn how)
    (other : Recovery) :
    Scan.approach v ⟨shallow, maxDepth, other⟩ zone frame = .goesOn how := by
  rw [approach_eq (Or.inl hwhole)] at h ⊢
  split at h
  · rename_i hmaster
    rw [if_pos hmaster, h]
  · rename_i hmaster
    rw [if_neg hmaster]
    split at h
    · exact absurd h giveUp_ne_goesOn
    · rename_i hknown
      rw [if_neg hknown, h]

/-- Nor does it matter for entering a container, which stands above the depth limit. -/
theorem entry_recovery
    {kept : Bool}
    {recovery : Recovery}
    (h : Scan.entry v ⟨shallow, maxDepth, recovery⟩ zone frame seen = .goesOn kept)
    (other : Recovery) :
    Scan.entry v ⟨shallow, maxDepth, other⟩ zone frame seen = .goesOn kept := by
  simp only [Scan.entry] at h ⊢
  split at h
  · split at h
    · exact absurd h giveUp_ne_goesOn
    · exact absurd h settle_ne_goesOn
  · rename_i hdepth
    rw [if_neg hdepth]
    exact h

/-- An element that a lenient scan gives up fails a strict one. -/
theorem approach_strict_of_settles
    {content : Content}
    (hwhole : frame.error = none)
    (h : Scan.approach v ⟨shallow, maxDepth, .bestEffort⟩ zone frame = .settles content) :
    content = .corrupt .boundaryUnresolvable ∧
      Scan.approach v ⟨shallow, maxDepth, .strict⟩ zone frame =
        .fails frame.heading.start .boundaryUnresolvable := by
  obtain ⟨hmaster, hunknown⟩ := unknown_of_approach h
  rw [approach_eq (Or.inl hwhole), hmaster, if_neg Bool.false_ne_true, if_pos hunknown,
    Scan.giveUp] at h ⊢
  split at h
  · simp at h
  · rename_i hdeclared
    rw [if_neg hdeclared]
    exact ⟨(Decision.settles.inj h).symm, rfl⟩

/-- A strict scan gives up no element. -/
theorem approach_strict_ne_settles
    {content : Content}
    (hwhole : frame.error = none) :
    Scan.approach v ⟨shallow, maxDepth, .strict⟩ zone frame ≠ .settles content := by
  intro h
  obtain ⟨hmaster, hunknown⟩ := unknown_of_approach h
  rw [approach_eq (Or.inl hwhole), hmaster, if_neg Bool.false_ne_true, if_pos hunknown,
    Scan.giveUp] at h
  split at h <;> simp [Scan.settle, Settings.isStrict] at h

/-- A container that a lenient full scan does not enter stands too deep, and fails a strict
one. -/
theorem entry_strict_of_settles
    {content : Content}
    (h : Scan.entry v ⟨false, maxDepth, .bestEffort⟩ zone frame seen = .settles content) :
    content = .corrupt (.tooDeep maxDepth) ∧
      Scan.entry v ⟨false, maxDepth, .strict⟩ zone frame seen =
        .fails frame.heading.start (.tooDeep maxDepth) := by
  simp only [Scan.entry, Scan.giveUp] at h ⊢
  split at h
  · rename_i hdepth
    rw [if_pos hdepth]
    split at h
    · rename_i hunknown
      rw [if_pos hunknown]
      split at h
      · simp at h
      · rename_i hdeclared
        exact ⟨(Decision.settles.inj h).symm, if_neg hdeclared⟩
    · rename_i hknown
      rw [if_neg hknown]
      exact ⟨(Decision.settles.inj h).symm, rfl⟩
  · simp at h

/-- A container that a strict scan does not enter is passed over, by a lenient one too. -/
theorem entry_lenient_of_settles
    {content : Content}
    (h : Scan.entry v ⟨shallow, maxDepth, .strict⟩ zone frame seen = .settles content) :
    content = .skipped ∧
      Scan.entry v ⟨shallow, maxDepth, .bestEffort⟩ zone frame seen = .settles .skipped := by
  simp only [Scan.entry, Scan.giveUp] at h ⊢
  split at h
  · split at h
    · split at h <;> simp [Scan.settle, Settings.isStrict] at h
    · simp [Scan.settle, Settings.isStrict] at h
  · rename_i hdepth
    rw [if_neg hdepth]
    split at h
    · rename_i hskip
      rw [if_pos hskip]
      split at h
      · simp at h
      · rename_i hknown
        exact ⟨(Decision.settles.inj h).symm, if_neg hknown⟩
    · simp at h

end Decisions

section Policies

variable {c : Contents} {v : Vocabulary} {shallow : Bool} {maxDepth : Nat} {zone : Zone}
  {pos : Nat} {frame : Frame} {seen : Bool} {element : Element} {r : Stretch}

/-- A leaf of a lenient scan is one of a strict scan, or fails it with its defect. -/
theorem Settles.strict
    (h : Settles c v ⟨false, maxDepth, .bestEffort⟩ zone frame seen element)
    (hinside : frame.data.stop ≤ c.length) :
    (element.defect? = none ∧
        Settles c v ⟨false, maxDepth, .strict⟩ zone frame seen element) ∨
      ∃ reason, element.defect? = some reason ∧
        Spoils c v ⟨false, maxDepth, .strict⟩ zone frame seen frame.heading.start reason := by
  cases herror : frame.error with
  | some reason =>
      refine Or.inr ⟨reason, ?_, .refused (approach_eq_fails rfl herror)⟩
      rcases h.shape with ⟨content, rfl, _⟩ | ⟨_, found, hfound, rfl⟩
      · simp [Element.defect?, herror]
      · rw [herror] at hfound
        simpa [Element.defect?, Content.reason?] using hfound.symm
  | none =>
      have hdefect : ∀ content : Content,
          (Element.leaf frame content).defect? = content.reason? := by
        intro content
        rw [Element.defect?, herror, Option.none_or]
      cases h with
      | givenUp happroach =>
          obtain ⟨rfl, hfails⟩ := approach_strict_of_settles herror happroach
          exact Or.inr ⟨_, hdefect _, .refused hfails⟩
      | leaf happroach hleaf =>
          have hstrict := approach_recovery herror happroach .strict
          rcases (leaf_eq_ok_iff herror hinside).mp hleaf with
            ⟨value, hvalue, rfl⟩ | ⟨_, reason, hreason, rfl⟩
          · refine Or.inl ⟨hdefect _, .leaf hstrict ?_⟩
            exact (leaf_eq_ok_iff herror hinside).mpr (Or.inl ⟨value, hvalue, rfl⟩)
          · refine Or.inr ⟨reason, hdefect _, .leaf hstrict ?_⟩
            rw [answer_leaf herror hinside, hreason]
            rfl
      | shut happroach hentry =>
          have hstrict := approach_recovery herror happroach .strict
          obtain ⟨rfl, hfails⟩ := entry_strict_of_settles hentry
          exact Or.inr ⟨_, hdefect _, .barred hstrict hfails⟩

/-- A leaf of a strict scan is one of a lenient scan, and has no defect. -/
theorem Settles.lenient
    (h : Settles c v ⟨shallow, maxDepth, .strict⟩ zone frame seen element)
    (hinside : frame.data.stop ≤ c.length) :
    element.defect? = none ∧
      Settles c v ⟨shallow, maxDepth, .bestEffort⟩ zone frame seen element := by
  have hwhole : frame.error = none := by
    refine @error_of_approach v ⟨shallow, maxDepth, .strict⟩ zone _ rfl ?_
    intro offset reason hfails
    cases h with
    | givenUp happroach => simp [hfails] at happroach
    | leaf happroach _ => simp [hfails] at happroach
    | shut happroach _ => simp [hfails] at happroach
  cases h with
  | givenUp happroach => exact absurd happroach (approach_strict_ne_settles hwhole)
  | leaf happroach hleaf =>
      have hlenient := approach_recovery hwhole happroach .bestEffort
      rcases (leaf_eq_ok_iff hwhole hinside).mp hleaf with
        ⟨value, hvalue, rfl⟩ | ⟨hstrict, _⟩
      · refine ⟨by simp [Element.defect?, Content.reason?, hwhole], .leaf hlenient ?_⟩
        exact (leaf_eq_ok_iff hwhole hinside).mpr (Or.inl ⟨value, hvalue, rfl⟩)
      · simp [Settings.isStrict] at hstrict
  | shut happroach hentry =>
      have hlenient := approach_recovery hwhole happroach .bestEffort
      obtain ⟨rfl, hpassed⟩ := entry_lenient_of_settles hentry
      exact ⟨by simp [Element.defect?, Content.reason?, hwhole], .shut hlenient hpassed⟩

/-- What a lenient scan reads in full, a strict one reads too when it has no fault.  When it
has, the strict scan fails with the first. -/
theorem Reads.strict
    (h : Reads c v ⟨false, maxDepth, .bestEffort⟩ zone pos seen r)
    (hlength : zone.stop ≤ c.length) :
    (r.elements.firstFault? = none →
        Reads c v ⟨false, maxDepth, .strict⟩ zone pos seen r) ∧
      ∀ offset reason, r.elements.firstFault? = some (offset, reason) →
        Fails c v ⟨false, maxDepth, .strict⟩ zone pos seen offset reason := by
  induction h with
  | ended hend => exact ⟨fun _ => .ended hend, by simp [Forest.firstFault?]⟩
  | closed hinside hreads hopen hcloses =>
      exact ⟨fun _ => .closed hinside hreads hopen hcloses, by simp [Forest.firstFault?]⟩
  | @unreadable zone pos seen reason hinside hreads hdeclared hlenient =>
      have hfault : (Forest.cons (.placeholder pos (zone.stop - pos) reason) .nil).firstFault? =
          some (pos, reason) := rfl
      constructor
      · intro hnone
        simp [hfault] at hnone
      · intro offset found hfound
        simp only [hfault, Option.some.injEq, Prod.mk.injEq] at hfound
        obtain ⟨rfl, rfl⟩ := hfound
        exact .unreadable hinside hreads hdeclared rfl
  | @leaf zone pos seen heading element rest hopens hsettles hrest ih =>
      obtain ⟨_, _, hstop⟩ := hopens.data_bounds
      have hleaf : element.children = .nil := by
        obtain ⟨frame, content, rfl⟩ := hsettles.exists_leaf
        rfl
      have hplace : element.frame.heading.start =
          (zone.frameAt pos heading).heading.start := by
        rw [hsettles.keeps.2.1]
      simp only [Forest.firstFault?_cons, hleaf, Forest.firstFault?, Option.none_or]
      rcases hsettles.strict (Nat.le_trans hstop hlength) with
        ⟨hnone, hstrict⟩ | ⟨reason, hreason, hspoils⟩
      · have hfirst := Yields.settled hopens hstrict
        simp only [Element.fault?, hnone, Option.map_none, Option.none_or]
        constructor
        · intro hclean
          exact .cons hfirst ((ih hlength).1 hclean)
        · intro offset reason hfault
          exact .behind hfirst ((ih hlength).2 offset reason hfault)
      · simp only [Element.fault?, hreason, Option.map_some, Option.some_or]
        constructor
        · simp
        · intro offset found hfound
          simp only [Option.some.injEq, Prod.mk.injEq] at hfound
          obtain ⟨rfl, rfl⟩ := hfound
          rw [hplace]
          exact .spoiled hopens hspoils
  | @entered zone pos seen kept heading frame contents rest hopens hframe happroach hentry
      hcontents hrest ihContents ihRest =>
      obtain ⟨rfl, _⟩ := entry_full hentry
      subst hframe
      obtain ⟨_, _, hstop⟩ := hopens.data_bounds
      have hinside : (zone.inside (zone.frameAt pos heading)).stop ≤ c.length :=
        Nat.le_trans hstop hlength
      have hentered := entry_recovery hentry .strict
      simp only [Frame.contained, if_true, Forest.firstFault?_cons, Element.children,
        Element.fault?, Element.defect?, Element.frame_master, Frame.closedAt_error,
        Frame.closedAt_heading]
      cases herror : (zone.frameAt pos heading).error with
      | some found =>
          simp only [Option.map_some, Option.some_or]
          constructor
          · simp
          · intro offset reason hfault
            simp only [Option.some.injEq, Prod.mk.injEq] at hfault
            obtain ⟨rfl, rfl⟩ := hfault
            exact .spoiled hopens (.refused (approach_eq_fails rfl herror))
      | none =>
          have hstrict := approach_recovery herror happroach .strict
          simp only [Option.map_none, Option.none_or]
          -- What is below the container is walked before what is behind it.
          cases hbelow : contents.elements.firstFault? with
          | some fault =>
              constructor
              · simp
              · intro offset reason hfault
                simp only [Option.some_or, Option.some.injEq] at hfault
                subst hfault
                exact .inside hopens rfl hstrict hentered ((ihContents hinside).2 _ _ hbelow)
          | none =>
              have hfirst := Yields.entered hopens rfl hstrict hentered
                ((ihContents hinside).1 hbelow)
              simp only [Option.none_or]
              constructor
              · intro hclean
                exact .cons hfirst ((ihRest hlength).1 hclean)
              · intro offset reason hfault
                exact .behind hfirst ((ihRest hlength).2 _ _ hfault)

/-- What a strict scan reads, shallow or not, a lenient one reads, and it has no fault. -/
theorem Reads.lenient
    (h : Reads c v ⟨shallow, maxDepth, .strict⟩ zone pos seen r)
    (hlength : zone.stop ≤ c.length) :
    Reads c v ⟨shallow, maxDepth, .bestEffort⟩ zone pos seen r ∧
      r.elements.firstFault? = none := by
  induction h with
  | ended hend => exact ⟨.ended hend, rfl⟩
  | closed hinside hreads hopen hcloses => exact ⟨.closed hinside hreads hopen hcloses, rfl⟩
  | unreadable hinside hreads hdeclared hlenient => simp [Settings.isStrict] at hlenient
  | @leaf zone pos seen heading element rest hopens hsettles hrest ih =>
      obtain ⟨_, _, hstop⟩ := hopens.data_bounds
      obtain ⟨hnone, hsettled⟩ := hsettles.lenient (Nat.le_trans hstop hlength)
      obtain ⟨hread, hclean⟩ := ih hlength
      refine ⟨.leaf hopens hsettled hread, ?_⟩
      obtain ⟨frame, content, rfl⟩ := hsettles.exists_leaf
      simp [Forest.firstFault?_cons, Element.fault?, hnone, Element.children,
        Forest.firstFault?, hclean]
  | @entered zone pos seen kept heading frame contents rest hopens hframe happroach hentry
      hcontents hrest ihContents ihRest =>
      subst hframe
      obtain ⟨_, _, hstop⟩ := hopens.data_bounds
      have hwhole : (zone.frameAt pos heading).error = none := by
        refine @error_of_approach v ⟨shallow, maxDepth, .strict⟩ zone _ rfl ?_
        simp [happroach]
      obtain ⟨hread, hclean⟩ := ihContents (Nat.le_trans hstop hlength)
      obtain ⟨hreadRest, hcleanRest⟩ := ihRest hlength
      refine ⟨.entered hopens rfl (approach_recovery hwhole happroach .bestEffort)
        (entry_recovery hentry .bestEffort) hread hreadRest, ?_⟩
      cases kept with
      | true =>
          simp [Frame.contained, Forest.firstFault?_cons, Element.fault?, Element.defect?,
            Element.children, hwhole, hclean, hcleanRest]
      | false =>
          simp [Frame.contained, Forest.firstFault?_cons, Element.fault?, Element.defect?,
            Element.children, Content.reason?, Forest.firstFault?, hwhole, hcleanRest]

end Policies

namespace Buffered

/-- A strict scan has the result of a lenient full scan without malformed elements, and
otherwise fails with the defect of the first one.  Where the lenient scan fails, so does the
strict one.  A strict scan, shallow or not, that has a result has the one of the lenient
scan, without malformed elements. -/
theorem scan_policies_agree
    {b : Buffered}
    {v : Vocabulary}
    {maxDepth : Nat}
    (hb : b.Faithful) :
    (∀ forest, (b.scan v ⟨false, maxDepth, .bestEffort⟩).1 = .ok forest →
      ((∀ x ∈ forest.preorder 0, x.2.isMalformed = false) →
        (b.scan v ⟨false, maxDepth, .strict⟩).1 = .ok forest) ∧
      ∀ x, (forest.preorder 0).find? (fun x => x.2.isMalformed) = some x →
        ∃ reason, x.2.defect? = some reason ∧
          (b.scan v ⟨false, maxDepth, .strict⟩).1 =
            .error (.format x.2.frame.heading.start reason)) ∧
      (∀ offset reason,
        (b.scan v ⟨false, maxDepth, .bestEffort⟩).1 = .error (.format offset reason) →
          ∃ offset' reason',
            (b.scan v ⟨false, maxDepth, .strict⟩).1 = .error (.format offset' reason')) ∧
      ∀ shallow forest, (b.scan v ⟨shallow, maxDepth, .strict⟩).1 = .ok forest →
        (b.scan v ⟨shallow, maxDepth, .bestEffort⟩).1 = .ok forest ∧
          ∀ x ∈ forest.preorder 0, x.2.isMalformed = false := by
  simp only [hb.scan_eq]
  have hlenient : ∀ shallow forest,
      b.device.toContents.scan v ⟨shallow, maxDepth, .strict⟩ = .ok forest →
        b.device.toContents.scan v ⟨shallow, maxDepth, .bestEffort⟩ = .ok forest ∧
          ∀ x ∈ forest.preorder 0, x.2.isMalformed = false := by
    intro shallow forest hscan
    obtain ⟨r, hreads, rfl⟩ := Contents.scan_eq_ok_iff.mp hscan
    obtain ⟨hread, hclean⟩ := hreads.lenient (Nat.le_refl _)
    exact ⟨Contents.scan_eq_ok_iff.mpr ⟨r, hread, rfl⟩,
      r.elements.firstFault?_eq_none_iff.mp hclean⟩
  refine ⟨?_, ?_, hlenient⟩
  · intro forest hscan
    obtain ⟨r, hreads, rfl⟩ := Contents.scan_eq_ok_iff.mp hscan
    obtain ⟨hread, hfails⟩ := hreads.strict (Nat.le_refl _)
    constructor
    · intro hclean
      exact Contents.scan_eq_ok_iff.mpr
        ⟨r, hread (r.elements.firstFault?_eq_none_iff.mpr hclean), rfl⟩
    · intro x hfirst
      obtain ⟨reason, hreason, hfault⟩ := Forest.firstFault?_of_find? hfirst
      exact ⟨reason, hreason,
        Contents.scan_eq_error_iff.mpr ⟨_, _, rfl, hfails _ _ hfault⟩⟩
  · intro offset reason hscan
    cases hstrict : b.device.toContents.scan v ⟨false, maxDepth, .strict⟩ with
    | ok forest =>
        obtain ⟨hsame, _⟩ := hlenient false forest hstrict
        simp [hsame] at hscan
    | error failure =>
        obtain ⟨offset', reason', rfl, _⟩ := Contents.scan_eq_error_iff.mp hstrict
        exact ⟨offset', reason', rfl⟩

/-- A segment that declares more than there is, with a title in it that is not UTF-8: a
strict scan fails at the segment, which a walk meets before the title. -/
theorem scan_policies_agree_clipped :
    let b := ofBytes
      [0x18, 0x53, 0x80, 0x67, 0x90, 0x15, 0x49, 0xA9, 0x66, 0x84, 0x7B, 0xA9, 0x81, 0xFF]
    let segment : Frame := ⟨0x18538067, ⟨0, 5⟩, .known 16, ⟨5, 9⟩, some (.overrunsParent 16 9)⟩
    let information : Forest :=
      .master ⟨0x1549A966, ⟨5, 5⟩, .known 4, ⟨10, 4⟩, none⟩
        (.leaf ⟨0x7BA9, ⟨10, 3⟩, .known 1, ⟨13, 1⟩, none⟩ (.corrupt .notUtf8) .nil) .nil
    b.Faithful ∧
      (b.scan Matroska.vocabulary ⟨false, 64, .bestEffort⟩).1 =
        .ok (.master segment information .nil) ∧
      (b.scan Matroska.vocabulary ⟨false, 64, .strict⟩).1 =
        .error (.format 0 (.overrunsParent 16 9)) := by
  intro b segment information
  have hfaithful : b.Faithful := ofBytes_faithful _
  have hscan : (b.scan Matroska.vocabulary ⟨false, 64, .bestEffort⟩).1 =
      .ok (.master segment information .nil) := by decide +kernel
  obtain ⟨reason, hreason, hstrict⟩ :=
    ((scan_policies_agree hfaithful).1 _ hscan).2 (0, .master segment information) rfl
  obtain rfl : reason = .overrunsParent 16 9 := (Option.some.inj hreason).symm
  exact ⟨hfaithful, hscan, hstrict⟩

end Buffered

end EbmlReport
