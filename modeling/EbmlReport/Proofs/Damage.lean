import EbmlReport.Matroska.Specification
import EbmlReport.Proofs.Locality
import EbmlReport.Proofs.Places
import EbmlReport.Proofs.Pruning

/-!
# Damage stays inside the damaged element

The size of an element tells where the next one starts, so bytes may be overwritten in the
payload of one and all others are still found.  When the element is a container, what was
written over its children may make it unreadable, which fails the scan.  But the defect is
found at an offset inside the payload.

The elements in front of the damaged one are read from the same bytes.  So are those
behind it, from the same position on.  The containers around it are read again step by
step, each with the same frame and up to the same end.

**Results.**
* `Forest.SameBut.here`, `Forest.SameBut.inside`, `Forest.SameBut.behind`: how two forests
  come to differ at one place only.
* `Reads.damage`: what becomes of a stretch when one of its elements is damaged.
* `Buffered.scan_damage`: the law for a scan.
-/

namespace EbmlReport

/-- An element without what is below it: its frame, and the content of a leaf. -/
def Element.bare : Element → Frame × Option Content
  | leaf frame content => (frame, some content)
  | master frame _ => (frame, none)

/-- The forests are the same, but for what is below `place` and the content there. -/
structure Forest.SameBut (place : List Nat) (forest forest' : Forest) : Prop where
  frame :
    ∃ e e', forest.at? place = some e ∧ forest'.at? place = some e' ∧ e'.frame = e.frame
  others :
    ∀ other, ¬ place <+: other →
      (forest'.at? other).map Element.bare = (forest.at? other).map Element.bare

namespace Forest.SameBut

variable {e e' : Element} {frame : Frame} {rest rest' children children' : Forest} {i : Nat}
  {below : List Nat}

theorem here (h : e'.frame = e.frame) : SameBut [0] (cons e rest) (cons e' rest) where
  frame := ⟨e, e', by simp, by simp, h⟩
  others := by
    intro other hother
    match other with
    | [] => rfl
    | 0 :: place => simp at hother
    | (i + 1) :: place => simp

theorem inside (h : SameBut (i :: below) children children') :
    SameBut (0 :: i :: below) (cons (.master frame children) rest)
      (cons (.master frame children') rest) where
  frame := by
    obtain ⟨e, e', hat, hat', hframe⟩ := h.frame
    exact ⟨e, e', by rw [at?_cons_zero]; exact hat, by rw [at?_cons_zero]; exact hat', hframe⟩
  others := by
    intro other hother
    match other with
    | [] => rfl
    | [0] => rfl
    | 0 :: j :: place =>
        rw [at?_cons_zero, at?_cons_zero]
        refine h.others (j :: place) ?_
        intro hprefix
        exact hother (List.cons_prefix_cons.mpr ⟨rfl, hprefix⟩)
    | (j + 1) :: place => simp

theorem behind (h : SameBut (i :: below) rest rest') :
    SameBut ((i + 1) :: below) (cons e rest) (cons e rest') where
  frame := by
    obtain ⟨found, found', hat, hat', hframe⟩ := h.frame
    exact ⟨found, found', by rw [at?_cons_succ]; exact hat, by rw [at?_cons_succ]; exact hat',
      hframe⟩
  others := by
    intro other hother
    match other with
    | [] => rfl
    | 0 :: place => simp
    | (j + 1) :: place =>
        rw [at?_cons_succ, at?_cons_succ]
        refine h.others (j :: place) ?_
        intro hprefix
        obtain ⟨rfl, hbelow⟩ := List.cons_prefix_cons.mp hprefix
        exact hother (List.cons_prefix_cons.mpr ⟨rfl, hbelow⟩)

end Forest.SameBut

/-- The damage to `e`, which is at `place` in the stretch, is confined to it: the zone is
read with all other elements the same, or else `e` is a container and the zone fails inside
its payload. -/
def Confined (c : Contents) (v : Vocabulary) (s : Settings) (zone : Zone) (pos : Nat)
    (seen : Bool) (r : Stretch) (place : List Nat) (e : Element) : Prop :=
  (∃ r', Reads c v s zone pos seen r' ∧ r'.stop = r.stop ∧
      r.elements.SameBut place r'.elements) ∨
    (v.isMaster e.id = true ∧ (∃ children, e = .master e.frame children) ∧
      ∃ offset reason, Fails c v s zone pos seen offset reason ∧
        e.frame.data.start ≤ offset ∧ offset < e.stop)

section Stretches

variable {c c' : Contents} {v : Vocabulary} {s : Settings} {maxDepth : Nat} {zone : Zone}
  {pos : Nat} {seen after : Bool} {place : List Nat} {element e : Element} {frame : Frame}
  {heading : Heading} {r rest contents : Stretch}

/-- A full scan passes over no container, so it need not tell whether one was opened. -/
theorem Reads.seen_full
    (h : Reads c v s zone pos seen r)
    (hfull : s.shallow = false)
    (hseen : seen = false) :
    r.seen = false := by
  induction h with
  | ended hend => exact hseen
  | closed hinside hreads hopen hcloses => exact hseen
  | unreadable hinside hreads hdeclared hlenient => exact hseen
  | leaf hopens hsettles hrest ih => exact ih (by simp [Zone.carries, hseen])
  | entered hopens hframe happroach hentry hcontents hrest ihContents ihRest =>
      exact ihRest (ihContents (by simp [Scan.seenInside, Zone.carries, hseen, hfull]))

/-- An element in front of the damaged one is read again. -/
theorem Yields.in_front
    (hfirst : Yields c v s zone pos seen element after)
    (hrest : Reads c v s zone element.stop after rest)
    (hat : rest.elements.at? place = some e)
    (hzone : zone.stop ≤ c.length)
    (hzone' : zone.stop ≤ c'.length)
    (hsame : c.SameOn c' pos e.frame.data.start) :
    Yields c' v s zone pos seen element after := by
  obtain ⟨hforward, hwithin⟩ := hfirst.bounds
  have hbounds := (hrest.tiles hwithin).bounds_at hat
  refine hfirst.transfer hzone (hsame.mono (Nat.le_refl _) hbounds.1) ?_ (Or.inl rfl) hzone'
  intro next hnext
  have hbefore := hrest.data_start_le hwithin hnext hat
  exact Contents.SameOn.headingAt (hsame.mono (by omega) hbefore) hnext
    (Contents.headingAt_bounds hnext).2

/-- A lenient scan makes a leaf of an element with a damaged payload as well. -/
theorem Settles.damage
    (h : Settles c v s zone frame seen element)
    (hlenient : s.isStrict = false)
    (hinside : frame.data.stop ≤ c'.length) :
    ∃ element', Settles c' v s zone frame seen element' ∧
      element'.frame = element.frame := by
  cases h with
  | givenUp happroach => exact ⟨_, .givenUp happroach, rfl⟩
  | shut happroach hentry => exact ⟨_, .shut happroach hentry, rfl⟩
  | leaf happroach hleaf =>
      cases hleaf' : (Scan.leaf v s frame .done).answer c' with
      | error failure =>
          obtain ⟨hstrict, _⟩ := leaf_fails hinside hleaf'
          simp [hlenient] at hstrict
      | ok element' =>
          refine ⟨element', .leaf happroach hleaf', ?_⟩
          rcases leaf_shape hleaf with ⟨_, herror, rfl⟩ | ⟨herror, _, rfl⟩
          · rcases leaf_shape hleaf' with ⟨_, _, rfl⟩ | ⟨hnone, _⟩
            · rfl
            · simp [hnone] at herror
          · rcases leaf_shape hleaf' with ⟨_, hsome, _⟩ | ⟨_, _, rfl⟩
            · simp [hsome] at herror
            · rfl

/-- Damage behind an element that is read all the same. -/
theorem Confined.behind
    {i : Nat}
    {below : List Nat}
    (hfirst : Yields c' v s zone pos seen element after)
    (h : Confined c' v s zone element.stop after rest (i :: below) e) :
    Confined c' v s zone pos seen { rest with elements := .cons element rest.elements }
      ((i + 1) :: below) e := by
  rcases h with ⟨rest', hread, hstop, hsame⟩ |
    ⟨hmaster, hcontainer, offset, reason, hfails, hinside⟩
  · exact Or.inl ⟨_, .cons hfirst hread, hstop, hsame.behind⟩
  · exact Or.inr ⟨hmaster, hcontainer, offset, reason, .behind hfirst hfails, hinside⟩

/-- Damage inside a container that is entered all the same, with the same elements behind
it. -/
theorem Confined.inside
    {i : Nat}
    {below : List Nat}
    (hfull : s.shallow = false)
    (hseen : seen = false)
    (hopens : Opens c' v zone pos heading)
    (happroach : Scan.approach v s zone (zone.frameAt pos heading) = .goesOn .asMaster)
    (hentry :
      Scan.entry v s zone (zone.frameAt pos heading) (zone.carries seen) = .goesOn true)
    (h :
      Confined c' v s (zone.inside (zone.frameAt pos heading))
        (zone.frameAt pos heading).data.start
        (Scan.seenInside v s (zone.frameAt pos heading) (zone.carries seen)) contents
        (i :: below) e)
    (hrest :
      Reads c' v s zone ((zone.frameAt pos heading).closedAt contents.stop).data.stop false
        rest) :
    Confined c' v s zone pos seen
      { rest with
        elements := .cons ((zone.frameAt pos heading).contained true contents) rest.elements }
      (0 :: i :: below) e := by
  rcases h with ⟨contents', hread, hstop, hsame⟩ |
    ⟨hmaster, hcontainer, offset, reason, hfails, hinside⟩
  · have hflag := hread.seen_full hfull (by simp [Scan.seenInside, Zone.carries, hseen, hfull])
    rw [← hstop, ← hflag] at hrest
    refine Or.inl ⟨_, .entered hopens rfl happroach hentry hread hrest, rfl, ?_⟩
    simp only [Frame.contained, if_true, hstop]
    exact hsame.inside
  · exact Or.inr ⟨hmaster, hcontainer, offset, reason,
      .inside hopens rfl happroach hentry hfails, hinside⟩

/-- Damage to a leaf. -/
theorem Confined.leaf
    (hlenient : s.isStrict = false)
    (hopens : Opens c' v zone pos heading)
    (hsettles :
      Settles c v s zone (zone.frameAt pos heading) (zone.carries seen) element)
    (hlength : zone.stop ≤ c'.length)
    (hrest : Reads c' v s zone element.stop (zone.carries seen) rest) :
    Confined c' v s zone pos seen { rest with elements := .cons element rest.elements } [0]
      element := by
  obtain ⟨_, _, hwithin⟩ := hopens.data_bounds
  obtain ⟨element', hsettles', hframe⟩ :=
    hsettles.damage hlenient (Nat.le_trans hwithin hlength)
  have hplace : element'.stop = element.stop := by rw [Element.stop, Element.stop, hframe]
  rw [← hplace] at hrest
  exact Or.inl ⟨_, .leaf hopens hsettles' hrest, rfl, .here hframe⟩

/-- Damage to the whole payload of a container, whose size is declared. -/
theorem Confined.container
    {length : Nat}
    (hfull : s.shallow = false)
    (hseen : seen = false)
    (hopens : Opens c' v zone pos heading)
    (happroach : Scan.approach v s zone (zone.frameAt pos heading) = .goesOn .asMaster)
    (hentry :
      Scan.entry v s zone (zone.frameAt pos heading) (zone.carries seen) = .goesOn true)
    (hdeclared : (zone.frameAt pos heading).declared = .known length)
    (hstop : contents.stop = (zone.frameAt pos heading).data.stop)
    (hlength : zone.stop ≤ c'.length)
    (hrest :
      Reads c' v s zone ((zone.frameAt pos heading).closedAt contents.stop).data.stop false
        rest) :
    Confined c' v s zone pos seen
      { rest with
        elements := .cons ((zone.frameAt pos heading).contained true contents) rest.elements }
      [0] ((zone.frameAt pos heading).contained true contents) := by
  obtain ⟨_, hforward, hwithin⟩ := hopens.data_bounds
  have hinner : (zone.inside (zone.frameAt pos heading)).stop ≤ c'.length :=
    Nat.le_trans hwithin hlength
  have hopen : (zone.inside (zone.frameAt pos heading)).isOpen = false := by
    rw [Zone.inside_isOpen, hdeclared]
    rfl
  rcases reads_or_fails v s hinner (zone.frameAt pos heading).data.start
      (Scan.seenInside v s (zone.frameAt pos heading) (zone.carries seen)) with
    ⟨contents', hread⟩ | ⟨offset, reason, hfails⟩
  · have hwhole : contents'.stop = contents.stop := by
      rw [hstop]
      exact hread.stop_of_declared hopen hforward
    have hflag := hread.seen_full hfull (by simp [Scan.seenInside, Zone.carries, hseen, hfull])
    rw [← hwhole, ← hflag] at hrest
    refine Or.inl ⟨_, .entered hopens rfl happroach hentry hread hrest, rfl, ?_⟩
    dsimp only
    refine .here ?_
    rw [Frame.contained_frame, Frame.contained_frame, hwhole]
  · have hbounds := hfails.bounds hinner
    have hclosed := Frame.closedAt_of_known contents.stop hdeclared
    refine Or.inr ⟨?_, ?_, offset, reason, .inside hopens rfl happroach hentry hfails, ?_, ?_⟩
    · rw [Element.id, Frame.contained_frame, Frame.closedAt_id]
      exact isMaster_of_approach happroach
    · exact ⟨contents.elements, by rw [Frame.contained_frame]; rfl⟩
    · rw [Frame.contained_frame, hclosed]
      exact hbounds.1
    · rw [Element.stop, Frame.contained_frame, hclosed]
      exact hbounds.2

/-- When one element of a stretch is damaged, the damage is confined to it. -/
theorem Reads.damage
    (h : Reads c v ⟨false, maxDepth, .bestEffort⟩ zone pos seen r)
    (hseen : seen = false)
    (hpos : pos ≤ zone.stop)
    (hzone : zone.stop ≤ c.length)
    (hlength : c'.length = c.length)
    (hat : r.elements.at? place = some e)
    (hwhole : e.IsWhole)
    (hfront : c.SameOn c' 0 e.frame.data.start)
    (hback : c.SameOn c' e.stop c.length) :
    Confined c' v ⟨false, maxDepth, .bestEffort⟩ zone pos seen r place e := by
  -- Each step goes below the first element or behind it, as the place tells.
  induction h generalizing place with
  | ended hend => simp at hat
  | closed hinside hreads hopen hcloses => simp at hat
  | @unreadable zone pos seen reason hinside hreads hdeclared hlenient =>
      dsimp only at hat
      rcases Forest.at?_cons_eq_some_iff.mp hat with ⟨below, rfl, hfirst⟩ | ⟨_, _, _, hbehind⟩
      · rcases Element.at?_eq_some_iff.mp hfirst with ⟨_, rfl⟩ | hbelow
        · exact absurd hwhole.heading (by simp [Element.placeholder])
        · simp [Element.placeholder, Element.children] at hbelow
      · simp at hbehind
  | @leaf zone pos seen heading element rest hopens hsettles hrest ih =>
      have hfirst : Yields c v ⟨false, maxDepth, .bestEffort⟩ zone pos seen element _ :=
        .settled hopens hsettles
      obtain ⟨hforward, hwithin⟩ := hfirst.bounds
      have hheading := (Reads.leaf hopens hsettles hrest).data_start_le hpos hopens.reads hat
      dsimp only at hat
      rcases Forest.at?_cons_eq_some_iff.mp hat with
        ⟨below, rfl, hhere⟩ | ⟨i, below, rfl, hbehind⟩
      · obtain ⟨rfl, rfl⟩ : below = [] ∧ e = element := by
          obtain ⟨leaf, content, rfl⟩ := hsettles.exists_leaf
          rcases Element.at?_eq_some_iff.mp hhere with hself | hbelow
          · exact hself
          · simp [Element.children] at hbelow
        have hopens' : Opens c' v zone pos heading :=
          hopens.transfer (hfront.mono (Nat.zero_le _) hheading) hopens.bounds.2
        have hrest' := hrest.of_sameOn hwithin hzone (by omega)
          (hback.mono (Nat.le_refl _) hzone)
        exact .leaf rfl hopens' hsettles (by omega) hrest'
      · have hagain := hfirst.in_front hrest hbehind hzone (by omega)
          (hfront.mono (Nat.zero_le _) (Nat.le_refl _))
        exact .behind hagain (ih (by simp [Zone.carries, hseen]) hwithin hzone hbehind)
  | @entered zone pos seen kept heading frame contents rest hopens hframe happroach hentry
      hcontents hrest ihContents ihRest =>
      subst hframe
      obtain ⟨rfl, _⟩ := entry_full hentry
      have hfirst : Yields c v ⟨false, maxDepth, .bestEffort⟩ zone pos seen _ _ :=
        .entered hopens rfl happroach hentry hcontents
      obtain ⟨hforward, hwithin⟩ := hfirst.bounds
      have hheading :=
        (Reads.entered hopens rfl happroach hentry hcontents hrest).data_start_le hpos
          hopens.reads hat
      obtain ⟨_, hdata, hinner⟩ := hopens.data_bounds
      have hclosed := hopens.closed_stop hcontents
      have hinside : Scan.seenInside v ⟨false, maxDepth, .bestEffort⟩ (zone.frameAt pos heading)
          (zone.carries seen) = false := by
        simp [Scan.seenInside, Zone.carries, hseen]
      have hflag := hcontents.seen_full rfl hinside
      have hopens' : Opens c' v zone pos heading :=
        hopens.transfer (hfront.mono (Nat.zero_le _) hheading) hopens.bounds.2
      rw [Element.stop, Frame.contained_frame] at hforward hwithin
      dsimp only at hat
      rcases Forest.at?_cons_eq_some_iff.mp hat with
        ⟨below, rfl, hhere⟩ | ⟨i, below, rfl, hbehind⟩
      · have hlast : e.stop ≤ contents.stop := by
          rcases Element.at?_eq_some_iff.mp hhere with ⟨_, rfl⟩ | hbelow
          · exact Nat.le_of_eq (by rw [Element.stop, Frame.contained_frame, hclosed])
          · exact ((hcontents.tiles hdata).bounds_at hbelow).2.2
        have hrest' := hrest.of_sameOn hwithin hzone (by omega)
          (hback.mono (by rw [hclosed]; exact hlast) hzone)
        rw [hflag] at hrest'
        cases below with
        | nil =>
            obtain rfl : _ = e := Option.some.inj hhere
            have hdeclared := hwhole.declared
            rw [Frame.contained_frame, Frame.closedAt_declared] at hdeclared
            rw [Frame.closedAt_of_known _ hdeclared] at hclosed
            exact .container rfl hseen hopens' happroach hentry hdeclared hclosed.symm
              (by omega) hrest'
        | cons j below =>
            exact .inside rfl hseen hopens' happroach hentry
              (ihContents hinside hdata (Nat.le_trans hinner hzone) hhere) hrest'
      · have hagain := hfirst.in_front hrest hbehind hzone (by omega)
          (hfront.mono (Nat.zero_le _) (Nat.le_refl _))
        exact .behind hagain (ihRest hflag hwithin hzone hbehind)

end Stretches

namespace Buffered

/-- Overwriting bytes in the payload of a whole element changes no other element of a full
lenient scan, and not the frame of that one.  Only a container can fail the scan for it, and
then at an offset inside the payload. -/
theorem scan_damage
    {b b' : Buffered}
    {v : Vocabulary}
    {maxDepth : Nat}
    {forest : Forest}
    {place : List Nat}
    {e : Element}
    (hb : b.Faithful)
    (hb' : b'.Faithful)
    (hlength : b'.length = b.length)
    (hscan : (b.scan v ⟨false, maxDepth, .bestEffort⟩).1 = .ok forest)
    (hat : forest.at? place = some e)
    (hwhole : e.IsWhole)
    (hsame : ∀ i, i < b.length → i < e.frame.data.start ∨ e.frame.data.stop ≤ i →
      b'.device.byteAt i = b.device.byteAt i) :
    (∃ forest', (b'.scan v ⟨false, maxDepth, .bestEffort⟩).1 = .ok forest' ∧
        forest.SameBut place forest') ∨
      (v.isMaster e.id = true ∧ (∃ children, e = .master e.frame children) ∧
        ∃ offset reason,
          (b'.scan v ⟨false, maxDepth, .bestEffort⟩).1 = .error (.format offset reason) ∧
            e.frame.data.start ≤ offset ∧ offset < e.frame.data.stop) := by
  rw [hb.scan_eq] at hscan
  rw [hb'.scan_eq]
  obtain ⟨r, hreads, rfl⟩ := Contents.scan_eq_ok_iff.mp hscan
  have hlength' : b'.device.toContents.length = b.device.toContents.length := hlength
  have hstop := hreads.stop_of_declared rfl (Nat.zero_le _)
  have hbounds := (hreads.tiles (Nat.zero_le _)).bounds_at hat
  rw [hstop] at hbounds
  have hspan : e.frame.data.start ≤ e.stop := Nat.le_add_right _ _
  have hconfined := hreads.damage rfl (Nat.zero_le _) (Nat.le_refl _)
    hlength' hat hwhole
    (by
      intro i _ hi
      exact hsame i (Nat.lt_of_lt_of_le hi (Nat.le_trans hspan hbounds.2.2)) (Or.inl hi))
    (by
      intro i hi hinside
      exact hsame i hinside (Or.inr hi))
  rcases hconfined with ⟨r', hread, _, hbut⟩ |
    ⟨hmaster, hcontainer, offset, reason, hfails, hinside⟩
  · refine Or.inl ⟨r'.elements, Contents.scan_eq_ok_iff.mpr ⟨r', ?_, rfl⟩, hbut⟩
    rw [hlength']
    exact hread
  · refine Or.inr ⟨hmaster, hcontainer, offset, reason,
      Contents.scan_eq_error_iff.mpr ⟨offset, reason, rfl, ?_⟩, hinside⟩
    rw [hlength']
    exact hfails

/-- A title that is overwritten with a byte that is no UTF-8, in the information of a segment,
with a void element behind it. -/
theorem scan_damage_title :
    let b := ofBytes
      [0x18, 0x53, 0x80, 0x67, 0x8B, 0x15, 0x49, 0xA9, 0x66, 0x84, 0x7B, 0xA9, 0x81, 0x41,
        0xEC, 0x80]
    let b' := ofBytes
      [0x18, 0x53, 0x80, 0x67, 0x8B, 0x15, 0x49, 0xA9, 0x66, 0x84, 0x7B, 0xA9, 0x81, 0xFF,
        0xEC, 0x80]
    let title : Element := .leaf ⟨0x7BA9, ⟨10, 3⟩, .known 1, ⟨13, 1⟩, none⟩ (.value (.text "A"))
    let information : Forest :=
      .master ⟨0x1549A966, ⟨5, 5⟩, .known 4, ⟨10, 4⟩, none⟩ (.cons title .nil)
        (.leaf ⟨0xEC, ⟨14, 2⟩, .known 0, ⟨16, 0⟩, none⟩ (.value (.binary 0 [])) .nil)
    let forest : Forest :=
      .master ⟨0x18538067, ⟨0, 5⟩, .known 11, ⟨5, 11⟩, none⟩ information .nil
    b.Faithful ∧ b'.Faithful ∧ b'.length = b.length ∧
      (b.scan Matroska.vocabulary ⟨false, 64, .bestEffort⟩).1 = .ok forest ∧
      forest.at? [0, 0, 0] = some title ∧ title.IsWhole ∧
      (∀ i, i < b.length → i < title.frame.data.start ∨ title.frame.data.stop ≤ i →
        b'.device.byteAt i = b.device.byteAt i) ∧
      ∃ forest', (b'.scan Matroska.vocabulary ⟨false, 64, .bestEffort⟩).1 = .ok forest' ∧
        forest.SameBut [0, 0, 0] forest' := by
  intro b b' title information forest
  have hb : b.Faithful := ofBytes_faithful _
  have hb' : b'.Faithful := ofBytes_faithful _
  have hlength : b'.length = b.length := by decide +kernel
  have hscan : (b.scan Matroska.vocabulary ⟨false, 64, .bestEffort⟩).1 = .ok forest := by
    decide +kernel
  have hat : forest.at? [0, 0, 0] = some title := rfl
  have hwhole : title.IsWhole := ⟨by decide, rfl⟩
  have hsame : ∀ i, i < b.length → i < title.frame.data.start ∨ title.frame.data.stop ≤ i →
      b'.device.byteAt i = b.device.byteAt i := by
    decide +kernel
  refine ⟨hb, hb', hlength, hscan, hat, hwhole, hsame, ?_⟩
  rcases scan_damage hb hb' hlength hscan hat hwhole hsame with hconfined | ⟨hmaster, _⟩
  · exact hconfined
  · exact absurd hmaster (by decide +kernel)

end Buffered

end EbmlReport
