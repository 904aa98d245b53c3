import EbmlReport.Proofs.Locality
import EbmlReport.Proofs.Places
import EbmlReport.Proofs.Strictness

/-!
# Truncation does not change what came before the cut

When the end of a file is missing, every zone that is open at the cut ends there instead.
The containers around it are clipped, or of unknown size and shorter than they were; a
heading that is cut in two becomes a stand-in.  But what ended before the cut is read as it
was, and at the same place.

The scan of the whole file and that of its beginning are followed side by side.  They agree
until one of them comes to an element that the cut goes through.  Behind it the second has
nothing left to read.

**Results.**
* `Forest.CutAt`: how the elements of a cut file are related to those of the whole.
* `Reads.cut`: a stretch and what is left of it are so related.
* `Buffered.scan_truncated`: the law for a scan.
-/

namespace EbmlReport

/-- The elements in `cut` are what is left of the forest when the file ends at `k`. -/
structure Forest.CutAt (forest cut : Forest) (k : Nat) : Prop where
  /-- What ends before the cut stays in its place. -/
  stays : ∀ place e, forest.at? place = some e → e.stop ≤ k → cut.at? place = some e
  /-- What does not reach the cut was there before. -/
  found : ∀ place e, cut.at? place = some e → e.stop < k → forest.at? place = some e
  /-- All else ends at the cut. -/
  ends : ∀ place e, cut.at? place = some e → ¬ e.stop < k → e.stop = k

namespace Forest

variable {forest rest rest' : Forest} {first first' e : Element} {place : List Nat}
  {start stop k : Nat}

namespace CutAt

/-- Before the cut nothing changes. -/
theorem of_stop_le
    (h : forest.Tiles start stop)
    (hstop : stop ≤ k) :
    forest.CutAt forest k where
  stays _ _ hat _ := hat
  found _ _ hat _ := hat
  ends place e hat hreach := by
    have hbounds := h.bounds_at hat
    omega

/-- Behind the cut nothing is left. -/
theorem late
    (h : forest.Tiles start stop)
    (hstart : k ≤ start) :
    forest.CutAt .nil k where
  stays place e hat hbefore := by
    have hbounds := h.bounds_at hat
    omega
  found place e hat := by simp at hat
  ends place e hat := by simp at hat

theorem nil : Forest.CutAt .nil .nil k :=
  late (show Forest.nil.Tiles k k from rfl) (Nat.le_refl k)

/-- The cut goes through a later element. -/
theorem cons
    (htiles : (Forest.cons first rest).Tiles start stop)
    (hfirst : first.stop ≤ k)
    (h : rest.CutAt rest' k) :
    (Forest.cons first rest).CutAt (Forest.cons first rest') k where
  stays place e hat hbefore := by
    rcases at?_cons_eq_some_iff.mp hat with ⟨below, rfl, hhere⟩ | ⟨i, below, rfl, hbehind⟩
    · rw [at?_cons_zero]
      exact hhere
    · rw [at?_cons_succ]
      exact h.stays _ e hbehind hbefore
  found place e hat hbefore := by
    rcases at?_cons_eq_some_iff.mp hat with ⟨below, rfl, hhere⟩ | ⟨i, below, rfl, hbehind⟩
    · rw [at?_cons_zero]
      exact hhere
    · rw [at?_cons_succ]
      exact h.found _ e hbehind hbefore
  ends place e hat hreach := by
    rcases at?_cons_eq_some_iff.mp hat with ⟨below, rfl, hhere⟩ | ⟨i, below, rfl, hbehind⟩
    · have hbounds := htiles.bounds_below hhere
      omega
    · exact h.ends _ e hbehind hreach

/-- The cut goes through the first element. -/
theorem clipped
    (htiles : (Forest.cons first rest).Tiles start stop)
    (hfirst : k < first.stop)
    (hstop : first'.stop = k)
    (h : first.children.CutAt first'.children k) :
    (Forest.cons first rest).CutAt (Forest.cons first' .nil) k where
  stays place e hat hbefore := by
    rcases at?_cons_eq_some_iff.mp hat with ⟨below, rfl, hhere⟩ | ⟨i, below, rfl, hbehind⟩
    · rw [at?_cons_zero]
      rcases Element.at?_eq_some_iff.mp hhere with ⟨_, rfl⟩ | hbelow
      · omega
      · exact Element.at?_eq_some_iff.mpr (Or.inr (h.stays _ e hbelow hbefore))
    · have hbounds := htiles.behind.bounds_at hbehind
      omega
  found place e hat hbefore := by
    rcases at?_cons_eq_some_iff.mp hat with ⟨below, rfl, hhere⟩ | ⟨i, below, rfl, hbehind⟩
    · rw [at?_cons_zero]
      rcases Element.at?_eq_some_iff.mp hhere with ⟨_, rfl⟩ | hbelow
      · omega
      · exact Element.at?_eq_some_iff.mpr (Or.inr (h.found _ e hbelow hbefore))
    · simp at hbehind
  ends place e hat hreach := by
    rcases at?_cons_eq_some_iff.mp hat with ⟨below, rfl, hhere⟩ | ⟨i, below, rfl, hbehind⟩
    · rcases Element.at?_eq_some_iff.mp hhere with ⟨_, rfl⟩ | hbelow
      · exact hstop
      · exact h.ends _ e hbelow hreach
    · simp at hbehind

end CutAt

end Forest

section Decisions

variable {c : Contents} {v : Vocabulary} {s : Settings} {zone zone' : Zone}
  {frame frame' : Frame} {seen : Bool} {element element' : Element}

/-- How a lenient scan approaches an element does not depend on where its payload ends. -/
theorem approach_congr
    (hlenient : s.isStrict = false)
    (hopen : zone'.isOpen = zone.isOpen)
    (hid : frame'.id = frame.id)
    (hheading : frame'.heading = frame.heading)
    (hdeclared : frame'.declared = frame.declared) :
    Scan.approach v s zone' frame' = Scan.approach v s zone frame := by
  rw [approach_eq (Or.inr hlenient), approach_eq (Or.inr hlenient), hid, hheading, hdeclared,
    Scan.giveUp, Scan.giveUp, hopen]

/-- Nor does it matter for entering a container. -/
theorem entry_congr
    (hopen : zone'.isOpen = zone.isOpen)
    (hpath : zone'.path = zone.path)
    (hid : frame'.id = frame.id)
    (hheading : frame'.heading = frame.heading)
    (hdeclared : frame'.declared = frame.declared) :
    Scan.entry v s zone' frame' seen = Scan.entry v s zone frame seen := by
  rw [Scan.entry, Scan.entry, Scan.giveUp, Scan.giveUp, Zone.depth, Zone.depth, hopen, hpath,
    hid, hheading, hdeclared]

/-- A leaf can be read in one way only. -/
theorem Settles.unique
    (h : Settles c v s zone frame seen element)
    (h' : Settles c v s zone frame seen element') :
    element' = element := by
  cases h with
  | givenUp happroach =>
      cases h' with
      | givenUp happroach' => simp_all
      | leaf happroach' _ => simp [happroach] at happroach'
      | shut happroach' _ => simp [happroach] at happroach'
  | leaf happroach hleaf =>
      cases h' with
      | givenUp happroach' => simp [happroach] at happroach'
      | leaf _ hleaf' => simpa [hleaf] using hleaf'.symm
      | shut happroach' _ => simp [happroach] at happroach'
  | shut happroach hentry =>
      cases h' with
      | givenUp happroach' => simp [happroach] at happroach'
      | leaf happroach' _ => simp [happroach] at happroach'
      | shut _ hentry' => simp_all

/-- A container that is entered is no leaf. -/
theorem Settles.not_entered
    {kept : Bool}
    (h : Settles c v s zone frame seen element)
    (happroach : Scan.approach v s zone frame = .goesOn .asMaster) :
    Scan.entry v s zone frame seen ≠ .goesOn kept := by
  cases h with
  | givenUp happroach' => simp [happroach] at happroach'
  | leaf happroach' _ => simp [happroach] at happroach'
  | shut _ hentry => simp [hentry]

end Decisions

/-- What is left of a zone when the file ends at `k`. -/
def Zone.cutAt (zone : Zone) (k : Nat) : Zone :=
  zone.upTo (min zone.stop k)

namespace Zone

variable {zone : Zone} {k pos : Nat} {heading : Heading}

@[simp] theorem cutAt_path : (zone.cutAt k).path = zone.path := rfl

@[simp] theorem cutAt_isOpen : (zone.cutAt k).isOpen = zone.isOpen := rfl

@[simp] theorem cutAt_stop : (zone.cutAt k).stop = min zone.stop k := rfl

@[simp] theorem cutAt_carries (seen : Bool) : (zone.cutAt k).carries seen = zone.carries seen :=
  rfl

theorem cutAt_of_stop_le (h : zone.stop ≤ k) : zone.cutAt k = zone := by
  unfold cutAt
  rw [Nat.min_eq_left h, upTo_self]

/-- A payload ends where it did, or at the cut. -/
theorem frameAt_cutAt_stop (hinside : pos + heading.length ≤ min zone.stop k) :
    ((zone.cutAt k).frameAt pos heading).data.stop =
      min (zone.frameAt pos heading).data.stop k := by
  cases hsize : heading.size with
  | unknown =>
      simp only [frameAt_eq_of_unknown hsize, Span.stop, cutAt_stop]
      omega
  | known length =>
      simp only [frameAt, hsize, cutAt_stop, Span.stop]
      split <;> split <;> dsimp only <;> omega

/-- An element that ends before the cut has its frame. -/
theorem frameAt_cutAt_of_stop_le
    (hinside : pos + heading.length ≤ zone.stop)
    (h : (zone.frameAt pos heading).data.stop ≤ k) :
    (zone.cutAt k).frameAt pos heading = zone.frameAt pos heading := by
  by_cases hzone : zone.stop ≤ k
  · rw [cutAt_of_stop_le hzone]
  · rw [Span.stop, frameAt_data_start] at h
    cases hsize : heading.size with
    | unknown =>
        rw [(frameAt_of_unknown hsize).1] at h
        omega
    | known length =>
        rcases @frameAt_of_known zone pos heading length hsize with
          ⟨hfits, hlength, _⟩ | ⟨_, hlength, _⟩
        · exact frameAt_upTo_of_known hsize (by omega) (by omega)
        · omega

/-- What is left of the zone inside a container is the zone inside what is left of it. -/
theorem inside_cutAt (hinside : pos + heading.length ≤ min zone.stop k) :
    (zone.cutAt k).inside ((zone.cutAt k).frameAt pos heading) =
      (zone.inside (zone.frameAt pos heading)).cutAt k := by
  have hstop := frameAt_cutAt_stop hinside
  simp only [inside, cutAt, upTo, frameAt_id, frameAt_declared] at hstop ⊢
  rw [hstop]

variable {v : Vocabulary} {s : Settings}

/-- A lenient scan makes the same decisions about an element that the cut goes through. -/
theorem approach_cutAt (hlenient : s.isStrict = false) :
    Scan.approach v s (zone.cutAt k) ((zone.cutAt k).frameAt pos heading) =
      Scan.approach v s zone (zone.frameAt pos heading) :=
  approach_congr hlenient rfl (by simp) (by simp) (by simp)

theorem entry_cutAt (seen : Bool) :
    Scan.entry v s (zone.cutAt k) ((zone.cutAt k).frameAt pos heading) seen =
      Scan.entry v s zone (zone.frameAt pos heading) seen :=
  entry_congr rfl rfl (by simp) (by simp) (by simp)

theorem seenInside_cutAt (seen : Bool) :
    Scan.seenInside v s ((zone.cutAt k).frameAt pos heading) seen =
      Scan.seenInside v s (zone.frameAt pos heading) seen := by
  simp [Scan.seenInside]

end Zone

/-- What is left of an element and of what is behind it: the same when it ends before the
cut, and otherwise an element that ends there. -/
structure Element.CutAt (e cut : Element) (after afterCut : Bool) (k : Nat) : Prop where
  before : e.stop ≤ k → cut = e ∧ afterCut = after
  through : k < e.stop → cut.stop = k ∧ e.children.CutAt cut.children k

/-- What is left of a stretch. -/
structure Stretch.CutAt (r cut : Stretch) (k : Nat) : Prop where
  before : r.stop ≤ k → cut = r
  through : k < r.stop → cut.stop = k ∧ r.elements.CutAt cut.elements k

section Stretches

variable {c c' : Contents} {v : Vocabulary} {s : Settings} {zone : Zone} {pos k : Nat}
  {seen after after' kept : Bool} {e e' : Element} {heading : Heading}
  {r r' rest rest' contents contents' : Stretch}

/-- A heading that is found before the cut was there before. -/
theorem Contents.SameOn.headingAt_cut
    {stop : Nat}
    (hsame : c.SameOn c' 0 k)
    (hreads : c'.headingAt (min stop k) pos = .ok heading) :
    c.headingAt stop pos = .ok heading ∧ pos + heading.length ≤ k := by
  obtain ⟨_, hbefore⟩ := Contents.headingAt_bounds hreads
  have hback : c'.SameOn c pos (pos + heading.length) := by
    intro i _ hi
    exact (hsame i (Nat.zero_le _) (by omega)).symm
  exact ⟨hback.headingAt hreads (by omega), by omega⟩

/-- What is left of a stretch begins with what is left of its first element, unless the cut
comes before the end of the heading. -/
theorem Reads.cut_of_opens
    (hfirst : Yields c v s zone pos seen e after)
    (hrest : Reads c v s zone e.stop after rest)
    (hopens : Opens c v zone pos heading)
    (h : Reads c' v s (zone.cutAt k) pos seen r')
    (hsame : c.SameOn c' 0 k)
    (hpos : pos ≤ k) :
    Stretch.CutAt { rest with elements := .cons e rest.elements } r' k ∨
      (Opens c' v (zone.cutAt k) pos heading ∧
        ∃ e' after' rest', Yields c' v s (zone.cutAt k) pos seen e' after' ∧
          Reads c' v s (zone.cutAt k) e'.stop after' rest' ∧
          r' = { rest' with elements := .cons e' rest'.elements }) := by
  have hinside := hopens.inside
  obtain ⟨hforward, hwithin⟩ := hfirst.bounds
  obtain ⟨hbehind, _⟩ := hrest.bounds
  obtain ⟨htwo, hheading⟩ := hopens.bounds
  have htiles := (Reads.cons hfirst hrest).tiles (Nat.le_of_lt hinside)
  have hat : (Forest.cons e rest.elements).at? [0] = some e := by
    rw [Forest.at?_cons_zero, Element.at?_nil]
  have hstart : pos + heading.length ≤ e.frame.data.start :=
    (Reads.cons hfirst hrest).data_start_le (Nat.le_of_lt hinside) hopens.reads hat
  have hspan : e.frame.data.start ≤ e.stop := Nat.le_add_right _ _
  -- The cut is in front of the heading, behind it, or in the middle.
  by_cases hlate : pos = k
  · obtain rfl := h.eq_of_end (by rw [Zone.cutAt_stop]; omega)
    refine Or.inl ⟨?_, ?_⟩
    · intro hbefore
      dsimp only at hbefore
      omega
    · intro _
      exact ⟨hlate, .late htiles (Nat.le_of_eq hlate.symm)⟩
  · have hbefore : pos < (zone.cutAt k).stop := by
      rw [Zone.cutAt_stop]
      omega
    cases hfound : c'.headingAt (zone.cutAt k).stop pos with
    | ok found =>
        obtain ⟨hreads, _⟩ := hsame.headingAt_cut hfound
        obtain rfl := hopens.eq_of_reads hreads
        have hopens' : Opens c' v (zone.cutAt k) pos heading :=
          ⟨hbefore, hfound, hopens.stays⟩
        exact Or.inr ⟨hopens', h.of_opens hopens'⟩
    | error reason =>
        obtain ⟨_, _, rfl⟩ := h.of_unreadable hbefore hfound
        have hcut : k < pos + heading.length := by
          refine Nat.lt_of_not_le ?_
          intro hwhole
          have hreads : c'.headingAt (zone.cutAt k).stop pos = .ok heading :=
            Contents.SameOn.headingAt (hsame.mono (Nat.zero_le _) hwhole) hopens.reads
              (Nat.le_min.mpr ⟨hheading, hwhole⟩)
          rw [hfound] at hreads
          simp at hreads
        have hstop : (zone.cutAt k).stop = k := by
          rw [Zone.cutAt_stop]
          omega
        obtain ⟨low, hlow, hchildren⟩ := htiles.below
        refine Or.inl ⟨?_, ?_⟩
        · intro hbefore
          dsimp only at hbefore
          omega
        · intro _
          refine ⟨hstop, ?_⟩
          dsimp only
          refine .clipped htiles ?_ ?_ ?_
          · omega
          · rw [hstop]
            show pos + (k - pos) = k
            omega
          · exact .late hchildren (by omega)

/-- What is left of a stretch is what is left of its first element, with what is left of the
others. -/
theorem Stretch.CutAt.cons
    (htiles : (Forest.cons e rest.elements).Tiles pos rest.stop)
    (hfirst : e.CutAt e' after after' k)
    (hread : Reads c' v s (zone.cutAt k) e'.stop after' rest')
    (hrest : e.stop ≤ k → ∀ rest', Reads c' v s (zone.cutAt k) e.stop after rest' →
      rest.CutAt rest' k) :
    Stretch.CutAt { rest with elements := .cons e rest.elements }
      { rest' with elements := .cons e' rest'.elements } k := by
  have hbehind := htiles.behind.le
  by_cases hbefore : e.stop ≤ k
  · obtain ⟨rfl, rfl⟩ := hfirst.before hbefore
    have hcut := hrest hbefore rest' hread
    constructor
    · intro hstop
      rw [hcut.before hstop]
    · intro hstop
      obtain ⟨hend, hforest⟩ := hcut.through hstop
      exact ⟨hend, .cons htiles hbefore hforest⟩
  · have hthrough : k < e.stop := Nat.lt_of_not_le hbefore
    obtain ⟨hend, hforest⟩ := hfirst.through hthrough
    obtain rfl := hread.eq_of_end (by rw [Zone.cutAt_stop, hend]; omega)
    constructor
    · intro hstop
      dsimp only at hstop
      omega
    · intro _
      exact ⟨hend, .clipped htiles hthrough hend hforest⟩

/-- What is left of a stretch, when it is told for its first element and for those behind. -/
theorem Yields.cut_cons
    (hfirst : Yields c v s zone pos seen e after)
    (hrest : Reads c v s zone e.stop after rest)
    (hopens : Opens c v zone pos heading)
    (h : Reads c' v s (zone.cutAt k) pos seen r')
    (hsame : c.SameOn c' 0 k)
    (hpos : pos ≤ k)
    (hcut : ∀ e' after', Opens c' v (zone.cutAt k) pos heading →
      Yields c' v s (zone.cutAt k) pos seen e' after' → e.CutAt e' after after' k)
    (hbehind : e.stop ≤ k → ∀ rest', Reads c' v s (zone.cutAt k) e.stop after rest' →
      rest.CutAt rest' k) :
    Stretch.CutAt { rest with elements := .cons e rest.elements } r' k := by
  rcases Reads.cut_of_opens hfirst hrest hopens h hsame hpos with
    hwithout | ⟨hopens', e', after', rest', hfirst', hrest', rfl⟩
  · exact hwithout
  · have htiles := (Reads.cons hfirst hrest).tiles (Nat.le_of_lt hopens.inside)
    exact .cons htiles (hcut e' after' hopens' hfirst') hrest' hbehind

/-- What is left of a leaf. -/
theorem Settles.cut
    (h : Settles c v s zone (zone.frameAt pos heading) seen e)
    (h' : Settles c' v s (zone.cutAt k) ((zone.cutAt k).frameAt pos heading) seen e')
    (hwithin : (zone.frameAt pos heading).data.stop ≤ zone.stop)
    (hzone : zone.stop ≤ c.length)
    (hlength : c'.length = k)
    (hsame : c.SameOn c' 0 k)
    (hinside : pos + heading.length ≤ min zone.stop k) :
    e.CutAt e' after after k := by
  obtain ⟨_, _, _, hdata⟩ := h.keeps
  obtain ⟨_, _, _, hdata'⟩ := h'.keeps
  have hstop := Zone.frameAt_cutAt_stop hinside
  constructor
  · intro hbefore
    rw [Element.stop, hdata] at hbefore
    have hframe := Zone.frameAt_cutAt_of_stop_le (by omega) hbefore
    rw [hframe] at h'
    have hagain : Settles c' v s (zone.cutAt k) (zone.frameAt pos heading) seen e :=
      h.transfer (hsame.mono (Nat.zero_le _) hbefore)
        (Nat.le_trans hwithin hzone) (by omega) _
    exact ⟨hagain.unique h', rfl⟩
  · intro hthrough
    rw [Element.stop, hdata] at hthrough
    obtain ⟨_, _, rfl⟩ := h.exists_leaf
    obtain ⟨_, _, rfl⟩ := h'.exists_leaf
    refine ⟨?_, .nil⟩
    rw [Element.stop, hdata', hstop]
    omega

/-- What is left of a container. -/
theorem Opens.cut_contained
    (hopens : Opens c v zone pos heading)
    (hopens' : Opens c' v (zone.cutAt k) pos heading)
    (hcontents :
      Reads c v s (zone.inside (zone.frameAt pos heading)) (zone.frameAt pos heading).data.start
        seen contents)
    (hcontents' :
      Reads c' v s ((zone.cutAt k).inside ((zone.cutAt k).frameAt pos heading))
        ((zone.cutAt k).frameAt pos heading).data.start seen contents')
    (hcut : contents.CutAt contents' k) :
    Element.CutAt ((zone.frameAt pos heading).contained kept contents)
      (((zone.cutAt k).frameAt pos heading).contained kept contents') contents.seen
      contents'.seen k := by
  obtain ⟨_, hinside⟩ := hopens.bounds
  have hclosed := hopens.closed_stop hcontents
  have hclosed' := hopens'.closed_stop hcontents'
  constructor
  · intro hbefore
    rw [Element.stop, Frame.contained_frame, hclosed] at hbefore
    obtain rfl := hcut.before hbefore
    have hframe : ((zone.cutAt k).frameAt pos heading).closedAt contents'.stop =
        (zone.frameAt pos heading).closedAt contents'.stop := by
      cases hsize : heading.size with
      | unknown => exact Zone.closedAt_upTo_of_unknown hsize _
      | known length =>
          have hdeclared : (zone.frameAt pos heading).declared = .known length := by
            rw [Zone.frameAt_declared, hsize]
          rw [Frame.closedAt_of_known _ hdeclared] at hclosed
          rw [Zone.frameAt_cutAt_of_stop_le hinside (by omega)]
    unfold Frame.contained
    rw [hframe]
    exact ⟨rfl, rfl⟩
  · intro hthrough
    rw [Element.stop, Frame.contained_frame, hclosed] at hthrough
    obtain ⟨hend, hforest⟩ := hcut.through hthrough
    constructor
    · rw [Element.stop, Frame.contained_frame, hclosed', hend]
    · cases kept with
      | true => exact hforest
      | false => exact .nil

/-- What is left of a leaf is a leaf. -/
theorem Settles.cut_of_yields
    (h : Settles c v s zone (zone.frameAt pos heading) (zone.carries seen) e)
    (hopens : Opens c v zone pos heading)
    (hopens' : Opens c' v (zone.cutAt k) pos heading)
    (h' : Yields c' v s (zone.cutAt k) pos seen e' after')
    (hlenient : s.isStrict = false)
    (hzone : zone.stop ≤ c.length)
    (hlength : c'.length = k)
    (hsame : c.SameOn c' 0 k) :
    e.CutAt e' (zone.carries seen) after' k := by
  obtain ⟨_, _, hdata⟩ := hopens.data_bounds
  cases h' with
  | @settled found _ hfound hsettles =>
      obtain rfl := hopens'.eq_of_reads hfound.reads
      exact h.cut hsettles hdata hzone hlength hsame hopens'.bounds.2
  | entered hfound hframe happroach hentry _ =>
      subst hframe
      obtain rfl := hopens'.eq_of_reads hfound.reads
      rw [Zone.approach_cutAt hlenient] at happroach
      rw [Zone.entry_cutAt] at hentry
      exact absurd hentry (h.not_entered happroach)

/-- What is left of a container is a container, with what is left of its contents. -/
theorem Reads.cut_of_yields
    (h :
      Reads c v s (zone.inside (zone.frameAt pos heading)) (zone.frameAt pos heading).data.start
        (Scan.seenInside v s (zone.frameAt pos heading) (zone.carries seen)) contents)
    (hopens : Opens c v zone pos heading)
    (hopens' : Opens c' v (zone.cutAt k) pos heading)
    (happroach : Scan.approach v s zone (zone.frameAt pos heading) = .goesOn .asMaster)
    (hentry :
      Scan.entry v s zone (zone.frameAt pos heading) (zone.carries seen) = .goesOn kept)
    (h' : Yields c' v s (zone.cutAt k) pos seen e' after')
    (hlenient : s.isStrict = false)
    (hcut : ∀ contents',
      Reads c' v s ((zone.inside (zone.frameAt pos heading)).cutAt k)
        (zone.frameAt pos heading).data.start
        (Scan.seenInside v s (zone.frameAt pos heading) (zone.carries seen)) contents' →
      (zone.frameAt pos heading).data.start ≤
        min (zone.inside (zone.frameAt pos heading)).stop k →
      contents.CutAt contents' k) :
    Element.CutAt ((zone.frameAt pos heading).contained kept contents) e' contents.seen
      after' k := by
  cases h' with
  | @settled found _ hfound hsettles =>
      obtain rfl := hopens'.eq_of_reads hfound.reads
      rw [← Zone.approach_cutAt (k := k) hlenient] at happroach
      rw [← Zone.entry_cutAt (k := k)] at hentry
      exact absurd hentry (hsettles.not_entered happroach)
  | @entered kept' found _ contents' hfound hframe _ hentry' hcontents =>
      subst hframe
      obtain rfl := hopens'.eq_of_reads hfound.reads
      rw [Zone.entry_cutAt, Zone.cutAt_carries, hentry, Decision.goesOn.injEq] at hentry'
      rw [Zone.seenInside_cutAt, Zone.cutAt_carries] at hcontents
      have hread := hcontents
      rw [Zone.inside_cutAt hopens'.bounds.2, Zone.frameAt_data_start,
        ← Zone.frameAt_data_start zone] at hread
      obtain ⟨_, hdata, _⟩ := hopens'.data_bounds
      have hinside : (zone.frameAt pos heading).data.start ≤
          min (zone.inside (zone.frameAt pos heading)).stop k := by
        rw [Zone.inside_stop, ← Zone.frameAt_cutAt_stop hopens'.bounds.2]
        simpa only [Zone.frameAt_data_start] using hdata
      rw [← hentry']
      exact hopens.cut_contained hopens' h hcontents (hcut contents' hread hinside)

/-- Before a heading that closes the zone there is nothing, with or without a cut. -/
theorem Reads.cut_of_closes
    (h : Reads c' v s (zone.cutAt k) pos seen r')
    (hreads : c.headingAt zone.stop pos = .ok heading)
    (hopen : zone.isOpen = true)
    (hcloses : v.closes zone.path heading.id = true)
    (hsame : c.SameOn c' 0 k) :
    r' = ⟨.nil, pos, seen⟩ := by
  by_cases hbefore : pos < (zone.cutAt k).stop
  · cases hfound : c'.headingAt (zone.cutAt k).stop pos with
    | ok found =>
        obtain rfl : heading = found :=
          Except.ok.inj (hreads.symm.trans (hsame.headingAt_cut hfound).1)
        exact h.of_closes hfound hopen hcloses
    | error reason =>
        obtain ⟨hdeclared, _, _⟩ := h.of_unreadable hbefore hfound
        rw [Zone.cutAt_isOpen, hopen] at hdeclared
        simp at hdeclared
  · exact h.eq_of_end (Nat.le_of_not_lt hbefore)

/-- What is left of a stand-in for the rest of a zone. -/
theorem Reads.cut_of_unreadable
    {reason : Defect}
    (h : Reads c v s zone pos seen r)
    (hinside : pos < zone.stop)
    (hreads : c.headingAt zone.stop pos = .error reason)
    (h' : Reads c' v s (zone.cutAt k) pos seen r')
    (hsame : c.SameOn c' 0 k)
    (hpos : pos ≤ k) :
    r.CutAt r' k := by
  have htiles := h.tiles (Nat.le_of_lt hinside)
  obtain ⟨_, _, rfl⟩ := h.of_unreadable hinside hreads
  constructor
  · intro hbefore
    dsimp only at hbefore
    rw [Zone.cutAt_of_stop_le hbefore] at h'
    have hreads' : c'.headingAt zone.stop pos = .error reason := by
      rw [← hreads]
      exact (hsame.mono (Nat.zero_le _) hbefore).headingAt_eq
    exact (h'.of_unreadable hinside hreads').2.2
  · intro hthrough
    dsimp only at hthrough htiles ⊢
    have hstop : (zone.cutAt k).stop = k := Nat.min_eq_right (Nat.le_of_lt hthrough)
    by_cases hlate : pos = k
    · obtain rfl := h'.eq_of_end (by omega)
      exact ⟨hlate, .late htiles (Nat.le_of_eq hlate.symm)⟩
    · cases hfound : c'.headingAt (zone.cutAt k).stop pos with
      | ok found =>
          obtain ⟨hwhole, _⟩ := hsame.headingAt_cut hfound
          simp [hreads] at hwhole
      | error found =>
          obtain ⟨_, _, rfl⟩ := h'.of_unreadable (by omega) hfound
          refine ⟨hstop, ?_⟩
          dsimp only
          refine .clipped htiles ?_ ?_ .nil
          · show k < pos + (zone.stop - pos)
            omega
          · rw [hstop]
            show pos + (k - pos) = k
            omega

/-- What is left of a stretch when the file ends at `k`. -/
theorem Reads.cut
    (h : Reads c v s zone pos seen r)
    (h' : Reads c' v s (zone.cutAt k) pos seen r')
    (hlenient : s.isStrict = false)
    (hpos : pos ≤ min zone.stop k)
    (hzone : zone.stop ≤ c.length)
    (hlength : c'.length = k)
    (hsame : c.SameOn c' 0 k) :
    r.CutAt r' k := by
  -- What is left of a zone is itself a zone that is cut, so the cut stays where it is.
  induction h generalizing r' with
  | @ended zone pos seen hend =>
      obtain rfl := h'.eq_of_end (by rw [Zone.cutAt_stop]; omega)
      refine ⟨fun _ => rfl, ?_⟩
      intro hthrough
      dsimp only at hthrough
      omega
  | @closed zone pos seen heading hinside hreads hopen hcloses =>
      obtain rfl := h'.cut_of_closes hreads hopen hcloses hsame
      refine ⟨fun _ => rfl, ?_⟩
      intro hthrough
      dsimp only at hthrough
      omega
  | @unreadable zone pos seen reason hinside hreads hdeclared hrecover =>
      exact Reads.cut_of_unreadable (.unreadable hinside hreads hdeclared hrecover) hinside hreads
        h' hsame (by omega)
  | @leaf zone pos seen heading element rest hopens hsettles hrest ih =>
      have hfirst : Yields c v s zone pos seen element _ := .settled hopens hsettles
      obtain ⟨_, hwithin⟩ := hfirst.bounds
      refine hfirst.cut_cons hrest hopens h' hsame (by omega) ?_ ?_
      · intro e' after' hopens' hfirst'
        exact hsettles.cut_of_yields hopens hopens' hfirst' hlenient hzone hlength hsame
      · intro hbefore rest' hread
        exact ih hread (by omega) hzone
  | @entered zone pos seen kept heading frame contents rest hopens hframe happroach hentry
      hcontents hrest ihContents ihRest =>
      subst hframe
      have hfirst : Yields c v s zone pos seen _ _ :=
        .entered hopens rfl happroach hentry hcontents
      obtain ⟨_, hwithin⟩ := hfirst.bounds
      obtain ⟨_, hdata, hinner⟩ := hopens.data_bounds
      have hplace : ((zone.frameAt pos heading).contained kept contents).stop =
          ((zone.frameAt pos heading).closedAt contents.stop).data.stop := by
        rw [Element.stop, Frame.contained_frame]
      rw [← hplace] at hrest
      refine hfirst.cut_cons hrest hopens h' hsame (by omega) ?_ ?_
      · intro e' after' hopens' hfirst'
        exact hcontents.cut_of_yields hopens hopens' happroach hentry hfirst' hlenient
          (fun _ hread hinside => ihContents hread hinside (Nat.le_trans hinner hzone))
      · intro hbefore rest' hread
        rw [hplace] at hread hbefore
        exact ihRest hread (by omega) hzone

end Stretches

namespace Buffered

/-- When the beginning of a stream is scanned instead of all of it, and both scans are lenient
and have a result, what ended before the cut is the same and in the same place, and what is
there beyond it ends at the cut. -/
theorem scan_truncated
    {b b' : Buffered}
    {v : Vocabulary}
    {shallow : Bool}
    {maxDepth : Nat}
    {forest cut : Forest}
    (hb : b.Faithful)
    (hb' : b'.Faithful)
    (hlength : b'.length ≤ b.length)
    (hsame : ∀ i, i < b'.length → b'.device.byteAt i = b.device.byteAt i)
    (hscan : (b.scan v ⟨shallow, maxDepth, .bestEffort⟩).1 = .ok forest)
    (hscan' : (b'.scan v ⟨shallow, maxDepth, .bestEffort⟩).1 = .ok cut) :
    forest.CutAt cut b'.length := by
  rw [hb.scan_eq] at hscan
  rw [hb'.scan_eq] at hscan'
  obtain ⟨r, hreads, rfl⟩ := Contents.scan_eq_ok_iff.mp hscan
  obtain ⟨r', hreads', rfl⟩ := Contents.scan_eq_ok_iff.mp hscan'
  have hstop : r.stop = b.length := hreads.stop_of_declared rfl (Nat.zero_le _)
  have hzone :
      (⟨[], false, b'.length⟩ : Zone) = (⟨[], false, b.length⟩ : Zone).cutAt b'.length := by
    simp only [Zone.cutAt, Zone.upTo, Nat.min_eq_right hlength]
  have hread : Reads b'.device.toContents v ⟨shallow, maxDepth, .bestEffort⟩
      ((⟨[], false, b.length⟩ : Zone).cutAt b'.length) 0 false r' := by
    rw [← hzone]
    exact hreads'
  have hcut := Reads.cut (k := b'.length) hreads hread rfl (Nat.zero_le _) (Nat.le_refl _) rfl
    (fun i _ hi => hsame i hi)
  by_cases hwhole : b.length ≤ b'.length
  · rw [← hstop] at hwhole
    rw [hcut.before hwhole]
    exact .of_stop_le (hreads.tiles (Nat.zero_le _)) hwhole
  · exact (hcut.through (by omega)).2

/-- A segment that is cut in the heading of its last element. -/
theorem scan_truncated_heading :
    let b := ofBytes
      [0x18, 0x53, 0x80, 0x67, 0x8B, 0x15, 0x49, 0xA9, 0x66, 0x84, 0x7B, 0xA9, 0x81, 0x41,
        0xEC, 0x80]
    let b' := ofBytes
      [0x18, 0x53, 0x80, 0x67, 0x8B, 0x15, 0x49, 0xA9, 0x66, 0x84, 0x7B, 0xA9, 0x81, 0x41, 0xEC]
    let title : Forest :=
      .leaf ⟨0x7BA9, ⟨10, 3⟩, .known 1, ⟨13, 1⟩, none⟩ (.value (.text "A")) .nil
    let forest : Forest :=
      .master ⟨0x18538067, ⟨0, 5⟩, .known 11, ⟨5, 11⟩, none⟩
        (.master ⟨0x1549A966, ⟨5, 5⟩, .known 4, ⟨10, 4⟩, none⟩ title
          (.leaf ⟨0xEC, ⟨14, 2⟩, .known 0, ⟨16, 0⟩, none⟩ (.value (.binary 0 [])) .nil))
        .nil
    let cut : Forest :=
      .master ⟨0x18538067, ⟨0, 5⟩, .known 11, ⟨5, 10⟩, some (.overrunsParent 11 10)⟩
        (.master ⟨0x1549A966, ⟨5, 5⟩, .known 4, ⟨10, 4⟩, none⟩ title
          (.leaf ⟨0, ⟨14, 0⟩, .known 1, ⟨14, 1⟩, none⟩ (.corrupt .cutShort) .nil))
        .nil
    b.Faithful ∧ b'.Faithful ∧ b'.length ≤ b.length ∧
      (∀ i, i < b'.length → b'.device.byteAt i = b.device.byteAt i) ∧
      (b.scan Matroska.vocabulary ⟨false, 64, .bestEffort⟩).1 = .ok forest ∧
      (b'.scan Matroska.vocabulary ⟨false, 64, .bestEffort⟩).1 = .ok cut ∧
      forest.CutAt cut b'.length := by
  intro b b' title forest cut
  have hb : b.Faithful := ofBytes_faithful _
  have hb' : b'.Faithful := ofBytes_faithful _
  have hlength : b'.length ≤ b.length := by decide +kernel
  have hsame : ∀ i, i < b'.length → b'.device.byteAt i = b.device.byteAt i := by
    decide +kernel
  have hscan : (b.scan Matroska.vocabulary ⟨false, 64, .bestEffort⟩).1 = .ok forest := by
    decide +kernel
  have hscan' : (b'.scan Matroska.vocabulary ⟨false, 64, .bestEffort⟩).1 = .ok cut := by
    decide +kernel
  exact ⟨hb, hb', hlength, hsame, hscan, hscan',
    scan_truncated hb hb' hlength hsame hscan hscan'⟩

end Buffered

end EbmlReport
