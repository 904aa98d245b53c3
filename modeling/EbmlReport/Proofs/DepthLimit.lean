import EbmlReport.Proofs.Damage
import EbmlReport.Proofs.Transcript

/-!
# The depth limit is a pure cut

A container at the depth limit of a full scan is not entered: it becomes a leaf, with the
limit as its defect.  A lenient scan then goes on behind it by its declared size.  So the
scan of a lower limit can be told from that of a higher one: shut every container at the
lower limit, and forget what is below.  This fails only for a container of unknown size,
since its end shows in what the lower limit does not let the scan read.

**Results.**
* `Reads.ranks`: what an element of a full scan is, according to its depth.
* `Reads.shut`: what is read with one limit is read with a lower one, with the containers
  there shut.
* `Buffered.scan_depth_limit`: both laws for a scan.
-/

namespace EbmlReport

/-- The element has the defect, beside its content or in place of it. -/
def Element.Records (e : Element) (reason : Defect) : Prop :=
  e.frame.error = some reason ∨ e = .leaf e.frame (.corrupt reason)

/-- The forest with the containers that stand `levels` below its top shut, as too deep. -/
def Forest.shutAt (limit : Nat) : Forest → (levels : Nat) → Forest
  | nil, _ => nil
  | leaf frame content rest, levels => leaf frame content (rest.shutAt limit levels)
  | master frame _ rest, 0 => leaf frame (.corrupt (.tooDeep limit)) (rest.shutAt limit 0)
  | master frame children rest, levels + 1 =>
      master frame (children.shutAt limit levels) (rest.shutAt limit (levels + 1))

/-- What an element of a full scan is, according to its depth.  A heading that was read is
not empty, and no other defect than that of being shut tells of depth. -/
inductive Element.Ranks (v : Vocabulary) (limit depth : Nat) : Element → Prop
  /-- A stand-in for bytes in which no heading could be read. -/
  | standsIn
      {start length : Nat} {reason : Defect}
      (hdepth : depth ≤ limit)
      (hreason : ∀ n, reason ≠ .tooDeep n) :
      Ranks v limit depth (.placeholder start length reason)
  | leaf
      {frame : Frame} {content : Content}
      (hdepth : depth ≤ limit)
      (hkind : v.isMaster frame.id = false)
      (herror : ∀ n, frame.error ≠ some (.tooDeep n))
      (hcontent : ∀ n, content ≠ .corrupt (.tooDeep n)) :
      Ranks v limit depth (.leaf frame content)
  | entered
      {frame : Frame} {children : Forest}
      (hdepth : depth < limit)
      (hkind : v.isMaster frame.id = true)
      (herror : ∀ n, frame.error ≠ some (.tooDeep n)) :
      Ranks v limit depth (.master frame children)
  | shut
      {frame : Frame}
      (hdepth : depth = limit)
      (hkind : v.isMaster frame.id = true)
      (hheading : 0 < frame.heading.length)
      (herror : ∀ n, frame.error ≠ some (.tooDeep n)) :
      Ranks v limit depth (.leaf frame (.corrupt (.tooDeep limit)))

section Defects

variable {reason : Defect}

theorem Heading.ne_tooDeep_of_decode
    {bytes : Bytes}
    (h : decode bytes = .error reason)
    (n : Nat) :
    reason ≠ .tooDeep n := by
  unfold decode decodeId decodeSize at h
  grind

theorem Scan.ne_tooDeep_of_lengthDefect
    {kind : Kind}
    {length : Nat}
    (h : lengthDefect? kind length = some reason)
    (n : Nat) :
    reason ≠ .tooDeep n := by
  unfold lengthDefect? at h
  grind

theorem Value.ne_tooDeep_of_decode
    {kind : Kind}
    {bytes : Bytes}
    (h : decode kind bytes = .error reason)
    (n : Nat) :
    reason ≠ .tooDeep n := by
  cases kind <;>
    simp only [decode, decodeUnsigned, decodeSigned, decodeFloat, decodeDate, decodeText,
      Except.map] at h <;>
    grind

/-- No payload has a defect that tells of depth. -/
theorem Contents.ne_tooDeep_of_payload
    {c : Contents}
    {v : Vocabulary}
    {frame : Frame}
    (h : c.payload v frame = .error reason)
    (n : Nat) :
    reason ≠ .tooDeep n := by
  unfold payload at h
  split at h
  · rename_i found _ hdefect
    rw [← Except.error.inj h]
    exact Scan.ne_tooDeep_of_lengthDefect hdefect n
  · simp at h
  · exact Value.ne_tooDeep_of_decode h n

theorem Zone.frameAt_error_ne_tooDeep
    (zone : Zone)
    (pos : Nat)
    (heading : Heading)
    (n : Nat) :
    (zone.frameAt pos heading).error ≠ some (.tooDeep n) := by
  unfold frameAt
  grind

end Defects

theorem Element.Ranks.depth_le
    {v : Vocabulary}
    {limit depth : Nat}
    {e : Element}
    (h : e.Ranks v limit depth) :
    depth ≤ limit := by
  cases h with
  | standsIn hdepth _ => exact hdepth
  | leaf hdepth _ _ _ => exact hdepth
  | entered hdepth _ _ => exact Nat.le_of_lt hdepth
  | shut hdepth _ _ _ => exact Nat.le_of_eq hdepth

/-- The only limit that is told of is that of the scan, and it is told in the containers that
stand there and in no other element. -/
theorem Element.Ranks.records_iff
    {v : Vocabulary}
    {limit depth n : Nat}
    {e : Element}
    (h : e.Ranks v limit depth) :
    e.Records (.tooDeep n) ↔
      n = limit ∧ depth = limit ∧ v.isMaster e.id = true ∧ 0 < e.frame.heading.length := by
  cases h with
  | standsIn hdepth hreason =>
      simp [Records, Element.placeholder, hreason]
  | leaf hdepth hkind herror hcontent =>
      simp [Records, Element.id, hkind, herror, hcontent]
  | entered hdepth hkind herror =>
      simp [Records, herror, Nat.ne_of_lt hdepth]
  | shut hdepth hkind hheading herror =>
      simp [Records, Element.id, herror, hkind, hheading, hdepth, eq_comm]

section Ranks

variable {c : Contents} {v : Vocabulary} {s : Settings} {zone : Zone} {pos : Nat}
  {heading : Heading} {seen : Bool} {element : Element} {r : Stretch}

/-- A container that a full scan does not enter stands at its limit. -/
theorem shut_of_entry
    {frame : Frame}
    {content : Content}
    (hfull : s.shallow = false)
    (h : Scan.entry v s zone frame seen = .settles content) :
    s.maxDepth ≤ zone.depth ∧ content = .corrupt (.tooDeep s.maxDepth) := by
  rcases content_of_entry h with ⟨hshallow, _⟩ | hdeep
  · simp [hfull] at hshallow
  · exact hdeep

theorem Settles.ranks
    (h : Settles c v s zone (zone.frameAt pos heading) seen element)
    (hopens : Opens c v zone pos heading)
    (hlength : zone.stop ≤ c.length)
    (hfull : s.shallow = false)
    (hdepth : zone.depth ≤ s.maxDepth) :
    element.Ranks v s.maxDepth zone.depth := by
  have herror := zone.frameAt_error_ne_tooDeep pos heading
  obtain ⟨_, _, hstop⟩ := hopens.data_bounds
  cases h with
  | givenUp happroach =>
      refine .leaf hdepth (unknown_of_approach happroach).1 herror ?_
      simp [content_of_approach happroach]
  | shut happroach hentry =>
      obtain ⟨hdeep, rfl⟩ := shut_of_entry hfull hentry
      refine .shut (Nat.le_antisymm hdepth hdeep) (isMaster_of_approach happroach) ?_ herror
      have htwo := hopens.bounds.1
      rw [Zone.frameAt_heading]
      exact Nat.lt_of_lt_of_le Nat.two_pos htwo
  | leaf happroach hleaf =>
      have hkind := not_isMaster_of_approach happroach
      cases hclipped : (zone.frameAt pos heading).error with
      | some reason =>
          rcases leaf_shape hleaf with ⟨found, hfound, rfl⟩ | ⟨hwhole, _⟩
          · refine .leaf hdepth hkind (by simp) ?_
            intro n hcontent
            exact herror n (hfound.trans (by rw [Content.corrupt.inj hcontent]))
          · simp [hclipped] at hwhole
      | none =>
          rcases (leaf_eq_ok_iff hclipped (Nat.le_trans hstop hlength)).mp hleaf with
            ⟨value, _, rfl⟩ | ⟨_, reason, hpayload, rfl⟩
          · exact .leaf hdepth hkind herror (by simp)
          · refine .leaf hdepth hkind herror ?_
            intro n hcontent
            exact Contents.ne_tooDeep_of_payload hpayload n (Content.corrupt.inj hcontent)

/-- Every element of a full scan is what its depth makes of it. -/
theorem Reads.ranks
    (h : Reads c v s zone pos seen r)
    (hlength : zone.stop ≤ c.length)
    (hfull : s.shallow = false)
    (hdepth : zone.depth ≤ s.maxDepth) :
    ∀ x ∈ r.elements.preorder zone.depth, x.2.Ranks v s.maxDepth x.1 := by
  induction h with
  | ended hend => simp [Forest.preorder]
  | closed hinside hreads hopen hcloses => simp [Forest.preorder]
  | @unreadable zone pos seen reason hinside hreads hdeclared hlenient =>
      intro x hmem
      obtain rfl : x = (zone.depth, .placeholder pos (zone.stop - pos) reason) := by
        simpa [Element.placeholder, Forest.cons, Forest.preorder] using hmem
      refine .standsIn hdepth ?_
      exact Heading.ne_tooDeep_of_decode (Contents.decode_of_headingAt_error hinside hreads)
  | @leaf zone pos seen heading element rest hopens hsettles hrest ih =>
      intro x hmem
      have hself := hsettles.ranks hopens hlength hfull hdepth
      obtain ⟨frame, content, rfl⟩ := hsettles.exists_leaf
      rw [Forest.preorder_cons, List.mem_cons] at hmem
      rcases hmem with rfl | hmem
      · exact hself
      · exact ih hlength hdepth x hmem
  | @entered zone pos seen kept heading frame contents rest hopens hframe happroach hentry
      hcontents hrest ihContents ihRest =>
      subst hframe
      obtain ⟨_, _, hstop⟩ := hopens.data_bounds
      obtain ⟨rfl, habove⟩ : kept = true ∧ zone.depth < s.maxDepth := by
        obtain ⟨shallow, maxDepth, recovery⟩ := s
        obtain rfl : shallow = false := hfull
        exact entry_full hentry
      intro x hmem
      rw [Forest.preorder_cons, List.mem_cons, List.mem_append] at hmem
      rcases hmem with rfl | hmem | hmem
      · refine .entered habove ?_ ?_
        · rw [Frame.closedAt_id]
          exact isMaster_of_approach happroach
        · rw [Frame.closedAt_error]
          exact zone.frameAt_error_ne_tooDeep pos heading
      · exact ihContents (Nat.le_trans hstop hlength) habove x hmem
      · exact ihRest hlength hdepth x hmem

end Ranks

section Shut

variable {c : Contents} {v : Vocabulary} {low high : Nat} {zone : Zone} {pos : Nat}
  {frame : Frame} {seen : Bool} {element : Element} {r : Stretch}

/-- What becomes a leaf with one limit becomes one with a lower limit. -/
theorem Settles.lower
    (h : Settles c v ⟨false, high, .bestEffort⟩ zone frame seen element)
    (hle : low ≤ high)
    (hdepth : zone.depth ≤ low)
    (seen' : Bool) :
    Settles c v ⟨false, low, .bestEffort⟩ zone frame seen' element := by
  cases h with
  | givenUp happroach => exact .givenUp happroach
  | leaf happroach hleaf => exact .leaf happroach hleaf
  | shut happroach hentry =>
      -- The container stands at the higher limit, so both are the same.
      have hdeep : high ≤ zone.depth := (shut_of_entry rfl hentry).1
      obtain rfl : low = high := by omega
      exact .shut happroach hentry

/-- A container of known size at the limit is shut. -/
theorem entry_at_limit
    (hdepth : zone.depth = low)
    (hknown : frame.declared ≠ .unknown) :
    Scan.entry v ⟨false, low, .bestEffort⟩ zone frame seen =
      .settles (.corrupt (.tooDeep low)) := by
  rw [Scan.entry, if_pos (Nat.le_of_eq hdepth.symm), if_neg hknown]
  rfl

theorem entry_above_limit (hdepth : zone.depth < low) :
    Scan.entry v ⟨false, low, .bestEffort⟩ zone frame seen = .goesOn true := by
  rw [Scan.entry, if_neg (Nat.not_le.mpr hdepth)]
  rfl

/-- What is read with one limit is read with a lower one, up to the same place, with the
containers at that limit shut.  None of those that were entered may be of unknown size. -/
theorem Reads.shut
    (h : Reads c v ⟨false, high, .bestEffort⟩ zone pos seen r)
    (hle : low ≤ high)
    (hdepth : zone.depth ≤ low)
    (hknown : ∀ frame children,
      (low, Element.master frame children) ∈ r.elements.preorder zone.depth →
        frame.declared ≠ .unknown)
    (seen' : Bool) :
    ∃ seen'', Reads c v ⟨false, low, .bestEffort⟩ zone pos seen'
      ⟨r.elements.shutAt low (low - zone.depth), r.stop, seen''⟩ := by
  induction h generalizing seen' with
  | ended hend => exact ⟨seen', .ended hend⟩
  | closed hinside hreads hopen hcloses => exact ⟨seen', .closed hinside hreads hopen hcloses⟩
  | unreadable hinside hreads hdeclared hlenient =>
      exact ⟨seen', .unreadable hinside hreads hdeclared rfl⟩
  | @leaf zone pos seen heading element rest hopens hsettles hrest ih =>
      have hleaf := hsettles.lower hle hdepth (zone.carries seen')
      obtain ⟨frame, content, rfl⟩ := hsettles.exists_leaf
      obtain ⟨seen'', hbehind⟩ := ih hdepth
        (fun frame children hmem => hknown frame children (List.mem_cons_of_mem _ hmem))
        (zone.carries seen')
      exact ⟨seen'', .leaf hopens hleaf hbehind⟩
  | @entered zone pos seen kept heading frame contents rest hopens hframe happroach hentry
      hcontents hrest ihContents ihRest =>
      obtain ⟨rfl, _⟩ := entry_full hentry
      have happroachLow :
          Scan.approach v ⟨false, low, .bestEffort⟩ zone frame = .goesOn .asMaster := happroach
      simp only [Frame.contained, if_true, Forest.cons, Forest.preorder, List.mem_cons,
        List.mem_append] at hknown ⊢
      have hbehind := ihRest hdepth
        (fun frame children hmem => hknown frame children (Or.inr (Or.inr hmem)))
      rcases Nat.lt_or_eq_of_le hdepth with habove | hlimit
      · have hlevels : low - zone.depth = low - (zone.inside frame).depth + 1 := by
          have hinside : (zone.inside frame).depth = zone.depth + 1 := rfl
          omega
        obtain ⟨seenInside, hinside⟩ := ihContents habove
          (fun frame children hmem => hknown frame children (Or.inr (Or.inl hmem)))
          (Scan.seenInside v ⟨false, low, .bestEffort⟩ frame (zone.carries seen'))
        obtain ⟨seen'', hafter⟩ := hbehind seenInside
        rw [hlevels] at hafter ⊢
        exact ⟨seen'', .entered hopens hframe happroachLow (entry_above_limit habove) hinside
          hafter⟩
      · -- The container is passed over by its size, so its frame stays as it was.
        obtain ⟨seen'', hafter⟩ := hbehind (zone.carries seen')
        have hsize : frame.declared ≠ .unknown := by
          have hclosed := hknown _ _ (Or.inl (Prod.ext hlimit.symm rfl))
          rwa [Frame.closedAt_declared] at hclosed
        obtain ⟨length, hdeclared⟩ : ∃ length, frame.declared = .known length := by
          cases hdeclared : frame.declared with
          | known length => exact ⟨length, rfl⟩
          | unknown => exact absurd hdeclared hsize
        have hlevels : low - zone.depth = 0 := by omega
        rw [Frame.closedAt_of_known _ hdeclared] at hafter ⊢
        rw [hlevels] at hafter ⊢
        subst hframe
        exact ⟨seen'', .leaf hopens (.shut happroachLow (entry_at_limit hlimit hsize)) hafter⟩

end Shut

namespace Buffered

variable {b : Buffered} {v : Vocabulary}

/-- In a lenient full scan no element stands deeper than the limit, which is the defect of the
containers at that depth and of no other element.  A scan of a lower limit, at which the one
of a higher limit has entered no container of unknown size, differs from that in nothing but
that the containers at the lower limit are shut. -/
theorem scan_depth_limit (hb : b.Faithful) :
    (∀ limit forest,
      (b.scan v ⟨false, limit, .bestEffort⟩).1 = .ok forest →
        ∀ depth e, (depth, e) ∈ forest.preorder 0 →
          depth ≤ limit ∧
            ∀ n, e.Records (.tooDeep n) ↔
              n = limit ∧ depth = limit ∧ v.isMaster e.id = true ∧
                0 < e.frame.heading.length) ∧
      ∀ low high forest,
        low ≤ high →
        (b.scan v ⟨false, high, .bestEffort⟩).1 = .ok forest →
        (∀ frame children, (low, Element.master frame children) ∈ forest.preorder 0 →
          frame.declared ≠ .unknown) →
        (b.scan v ⟨false, low, .bestEffort⟩).1 = .ok (forest.shutAt low low) := by
  simp only [hb.scan_eq, Contents.scan_eq_ok_iff]
  constructor
  · rintro limit _ ⟨r, hreads, rfl⟩ depth e hmem
    have hranks := hreads.ranks (Nat.le_refl _) rfl (Nat.zero_le _) (depth, e) hmem
    exact ⟨hranks.depth_le, fun n => hranks.records_iff⟩
  · rintro low high _ hle ⟨r, hreads, rfl⟩ hknown
    obtain ⟨seen, hshut⟩ := hreads.shut hle (Nat.zero_le _) hknown false
    exact ⟨_, hshut, rfl⟩

/-- A clipped tag at the limit is shut with its defect, and what it holds, a simple tag of
unknown size among it, is forgotten.  What comes behind its parent stays. -/
theorem scan_depth_limit_clipped_tag :
    let b := ofBytes
      [0x18, 0x53, 0x80, 0x67, 0x90, 0x12, 0x54, 0xC3, 0x67, 0x89, 0x73, 0x73, 0x87,
        0x67, 0xC8, 0xFF, 0x45, 0xA3, 0x80, 0xEC, 0x80]
    let deep : Forest :=
      .master ⟨0x18538067, ⟨0, 5⟩, .known 16, ⟨5, 16⟩, none⟩
        (.master ⟨0x1254C367, ⟨5, 5⟩, .known 9, ⟨10, 9⟩, none⟩
          (.master ⟨0x7373, ⟨10, 3⟩, .known 7, ⟨13, 6⟩, some (.overrunsParent 7 6)⟩
            (.master ⟨0x67C8, ⟨13, 3⟩, .unknown, ⟨16, 3⟩, none⟩
              (.leaf ⟨0x45A3, ⟨16, 3⟩, .known 0, ⟨19, 0⟩, none⟩ (.value (.text "")) .nil) .nil)
            .nil)
          (.leaf ⟨0xEC, ⟨19, 2⟩, .known 0, ⟨21, 0⟩, none⟩ (.value (.binary 0 [])) .nil))
        .nil
    let cut : Forest :=
      .master ⟨0x18538067, ⟨0, 5⟩, .known 16, ⟨5, 16⟩, none⟩
        (.master ⟨0x1254C367, ⟨5, 5⟩, .known 9, ⟨10, 9⟩, none⟩
          (.leaf ⟨0x7373, ⟨10, 3⟩, .known 7, ⟨13, 6⟩, some (.overrunsParent 7 6)⟩
            (.corrupt (.tooDeep 2)) .nil)
          (.leaf ⟨0xEC, ⟨19, 2⟩, .known 0, ⟨21, 0⟩, none⟩ (.value (.binary 0 [])) .nil))
        .nil
    b.Faithful ∧ (b.scan Matroska.vocabulary ⟨false, 64, .bestEffort⟩).1 = .ok deep ∧
      deep.shutAt 2 2 = cut ∧
      (b.scan Matroska.vocabulary ⟨false, 2, .bestEffort⟩).1 = .ok cut := by
  intro b deep cut
  have hfaithful : b.Faithful := ofBytes_faithful _
  have hscan : (b.scan Matroska.vocabulary ⟨false, 64, .bestEffort⟩).1 = .ok deep := by
    decide +kernel
  have hcut : deep.shutAt 2 2 = cut := by decide +kernel
  have hknown : ∀ frame children,
      (2, Element.master frame children) ∈ deep.preorder 0 → frame.declared ≠ .unknown := by
    simp [deep, Forest.preorder]
  refine ⟨hfaithful, hscan, hcut, ?_⟩
  rw [← hcut]
  exact (scan_depth_limit hfaithful).2 2 64 deep (by decide) hscan hknown

end Buffered

end EbmlReport
