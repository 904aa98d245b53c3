import EbmlReport.Proofs.ElementTree
import EbmlReport.Proofs.Extraction
import EbmlReport.Proofs.Preview
import EbmlReport.Proofs.QuickCatalogue
import Mathlib.Data.List.Nodup

/-!
# Groups without a block

A cluster notes the offset of each group in which no block was found, and a catalogue warns
of it.  A group that was not read has no children either, and is noted as well.  That happens
to the groups of a cluster all together or not at all, since a container is left unread only
at the depth limit: the clusters of a segment stand at depth one and their groups at depth
two.

**Results.**
* `Reads.containers`: what becomes of the containers of a scan, whatever its settings.
* `Cluster.mem_emptyGroups_iff`: the groups that a cluster notes.
* `Warning.message_eq_emptyGroup_iff`: the warning about a group is known by its text.
* `Catalogue.emptyGroups_of_read`: the law for a catalogue.
* `Catalogue.emptyGroups_at_limit`: a group with a block that is reported to have none.
-/

namespace EbmlReport

/-- What has become of a container in a scan, according to its depth. -/
inductive Element.Handled (v : Vocabulary) (s : Settings) (depth : Nat) : Element → Prop
  | entered
      {frame : Frame} {children : Forest}
      (hdepth : depth < s.maxDepth) :
      Handled v s depth (.master frame children)
  | shut
      {frame : Frame}
      (hdepth : depth = s.maxDepth) :
      Handled v s depth (.leaf frame (.corrupt (.tooDeep s.maxDepth)))
  | passedOver
      {frame : Frame}
      (hskips : v.isSkippable frame.id = true) :
      Handled v s depth (.leaf frame .skipped)

section Containers

variable {c : Contents} {v : Vocabulary} {s : Settings} {zone : Zone} {frame : Frame}
  {seen : Bool}

/-- A container that is not entered stands at the depth limit or can be passed over. -/
theorem handled_of_entry
    {content : Content}
    (h : Scan.entry v s zone frame seen = .settles content)
    (hdepth : zone.depth ≤ s.maxDepth) :
    (Element.leaf frame content).Handled v s zone.depth := by
  rcases content_of_entry h with ⟨_, hskips, rfl⟩ | ⟨hdeep, rfl⟩
  · exact .passedOver hskips
  · exact .shut (Nat.le_antisymm hdepth hdeep)

/-- Every container is entered, shut at the depth limit, or passed over.  Stand-ins, of which the
ID is zero, are none. -/
theorem Reads.containers
    {pos : Nat}
    {r : Stretch}
    (h : Reads c v s zone pos seen r)
    (hdepth : zone.depth ≤ s.maxDepth) :
    ∀ x ∈ r.elements.preorder zone.depth,
      v.isMaster x.2.id = true → x.2.id ≠ 0 → x.2.Handled v s x.1 := by
  induction h with
  | ended hend => simp [Forest.preorder]
  | closed hinside hreads hopen hcloses => simp [Forest.preorder]
  | @unreadable zone pos seen reason hinside hreads hdeclared hlenient =>
      simp [Element.placeholder, Element.id, Forest.cons, Forest.preorder]
  | @leaf zone pos seen heading element rest hopens hsettles hrest ih =>
      intro x hmem hmaster hknown
      have hchildless : element.children = .nil := by
        obtain ⟨frame, content, rfl⟩ := hsettles.exists_leaf
        rfl
      rw [Forest.preorder_cons, hchildless, List.mem_cons] at hmem
      rcases hmem with rfl | hmem
      · obtain ⟨hid, _⟩ := hsettles.keeps
        cases hsettles with
        | givenUp happroach =>
            replace hmaster : v.isMaster (zone.frameAt pos heading).id = true := hmaster
            rw [(unknown_of_approach happroach).1] at hmaster
            simp at hmaster
        | shut happroach hentry => exact handled_of_entry hentry hdepth
        | leaf happroach hleaf =>
            have hkind := not_isMaster_of_approach happroach
            rw [Element.id, hid, hkind] at hmaster
            simp at hmaster
      · exact ih hdepth x hmem hmaster hknown
  | @entered zone pos seen kept heading frame contents rest hopens hframe happroach hentry
      hcontents hrest ihContents ihRest =>
      obtain ⟨habove, hdropped⟩ := bounds_of_entry hentry
      intro x hmem hmaster hknown
      rw [Forest.preorder_cons, List.mem_cons, List.mem_append] at hmem
      rcases hmem with rfl | hbelow | hbehind
      · cases kept with
        | true => exact .entered habove
        | false =>
            refine .passedOver ?_
            rw [Frame.closedAt_id]
            exact (hdropped rfl).2
      · cases kept with
        | true => exact ihContents habove x hbelow hmaster hknown
        | false => simp [Frame.contained, Element.children, Forest.preorder] at hbelow
      · exact ihRest hdepth x hbehind hmaster hknown

end Containers

namespace Matroska

/-- The group was read, and there is no block in it. -/
def IsReadEmpty (group : Element) : Prop :=
  (∃ frame children, group = .master frame children) ∧ ¬ HasBlock group

/-- What a cluster notes of its groups: those that were read and have no block, and besides,
though nothing is known of them, those that were not read; these are all of them if the limit of
the scan is two, and otherwise none. -/
structure Cluster.NotesEmpty (s : Settings) (e : Element) (c : Cluster) : Prop where
  isGroup : ∀ offset ∈ c.emptyGroups,
    ∃ group ∈ e.children.withId Code.blockGroup, group.frame.heading.start = offset
  noted_iff : ∀ group ∈ e.children.withId Code.blockGroup,
    group.frame.heading.start ∈ c.emptyGroups ↔ IsReadEmpty group ∨ group.isCorrupt = true
  corrupt_iff : ∀ group ∈ e.children.withId Code.blockGroup,
    group.isCorrupt = true ↔ s.maxDepth = 2

section Groups

variable {e group : Element} {s : Settings} {offset : Nat}

/-- A cluster notes the offsets of the groups in which no block is found. -/
theorem Cluster.mem_emptyGroups_iff :
    offset ∈ (Cluster.ofElement e).emptyGroups ↔
      ∃ group ∈ e.children.withId Code.blockGroup,
        ¬ HasBlock group ∧ group.frame.heading.start = offset := by
  simp only [Cluster.ofElement, Cluster.entries, List.filterMap_filterMap, List.mem_filterMap,
    BlockEntry.emptyGroup?_ofElement?, Forest.mem_withId]
  constructor
  · rintro ⟨group, hmem, ⟨hid, hnone⟩, hoffset⟩
    exact ⟨group, ⟨hmem, hid⟩, hnone, hoffset.symm⟩
  · rintro ⟨group, ⟨hmem, hid⟩, hnone, hoffset⟩
    exact ⟨group, hmem, ⟨hid, hnone⟩, hoffset.symm⟩

/-- A group at depth two was read, unless that is the limit of the scan. -/
theorem group_cases
    (h : group.Handled vocabulary s 2)
    (hid : group.id = Code.blockGroup) :
    (2 < s.maxDepth ∧ ∃ frame children, group = .master frame children) ∨
      (s.maxDepth = 2 ∧ ∃ frame reason, group = .leaf frame (.corrupt reason)) := by
  cases h with
  | entered hdepth => exact Or.inl ⟨hdepth, _, _, rfl⟩
  | shut hdepth => exact Or.inr ⟨hdepth.symm, _, _, rfl⟩
  | @passedOver frame hskips =>
      replace hid : frame.id = Code.blockGroup := hid
      rw [isSkippable_eq, hid] at hskips
      exact absurd hskips (by decide)

/-- What a cluster notes, when its children start at different offsets and the groups among them
stand at depth two. -/
theorem Cluster.notesEmpty
    (hstarts : ∀ group ∈ e.children.toList, ∀ other ∈ e.children.toList,
      other.frame.heading.start = group.frame.heading.start → other = group)
    (hgroups : ∀ group ∈ e.children.withId Code.blockGroup, group.Handled vocabulary s 2) :
    (Cluster.ofElement e).NotesEmpty s e where
  isGroup offset hnoted := by
    obtain ⟨group, hgroup, _, hoffset⟩ := mem_emptyGroups_iff.mp hnoted
    exact ⟨group, hgroup, hoffset⟩
  noted_iff group hgroup := by
    have hid := (Forest.mem_withId.mp hgroup).2
    have hnoted : group.frame.heading.start ∈ (Cluster.ofElement e).emptyGroups ↔
        ¬ HasBlock group := by
      rw [mem_emptyGroups_iff]
      constructor
      · rintro ⟨other, hother, hnone, hsame⟩
        obtain rfl := hstarts group (Forest.mem_withId.mp hgroup).1 other
          (Forest.mem_withId.mp hother).1 hsame
        exact hnone
      · exact fun hnone => ⟨group, hgroup, hnone, rfl⟩
    rw [hnoted]
    rcases group_cases (hgroups group hgroup) hid with
      ⟨_, frame, children, rfl⟩ | ⟨_, frame, reason, rfl⟩
    · simp [IsReadEmpty, Element.isCorrupt]
    · simp [HasBlock, Element.children, Forest.toList, Element.isCorrupt]
  corrupt_iff group hgroup := by
    have hid := (Forest.mem_withId.mp hgroup).2
    rcases group_cases (hgroups group hgroup) hid with
      ⟨habove, frame, children, rfl⟩ | ⟨hlimit, frame, reason, rfl⟩
    · simp only [Element.isCorrupt, Bool.false_eq_true, false_iff]
      omega
    · simp [Element.isCorrupt, hlimit]

end Groups

namespace Warning

/-- The warning about a group without a block is known by its text. -/
theorem message_eq_emptyGroup_iff {warning : Warning} {offset : Nat} :
    warning.message = "BlockGroup at byte " ++ toString offset ++ " has no Block" ↔
      warning = .emptyGroup offset := by
  constructor
  · intro hmessage
    have hfirst : warning.message.toList.head? = some 'B' := by
      rw [hmessage]
      simp [String.toList_append]
    cases warning with
    | emptyGroup found =>
        rw [message_emptyGroup, String.append_left_inj, String.append_right_inj] at hmessage
        rw [eq_of_toString_eq hmessage]
    | recovered count =>
        obtain ⟨digit, hdigit, hfront⟩ :=
          exists_digit_of_number count " malformed element(s) recovered, see element tree"
        rw [message_recovered, hfront] at hfirst
        obtain rfl := Option.some.inj hfirst
        exact absurd hdigit (by decide)
    | headerNotFirst found => simp [message_headerNotFirst, String.toList_append] at hfirst
    | unexpectedDocType docType => simp [message_unexpectedDocType, String.toList_append] at hfirst
    | headerMissing => exact absurd hfirst (by decide)
    | docTypeMissing => exact absurd hfirst (by decide)
    | segmentMissing => exact absurd hfirst (by decide)
  · rintro rfl
    exact message_emptyGroup offset

end Warning

namespace Catalogue

variable {b : Buffered} {s : Settings} {d : Catalogue} {forest : Forest} {offset : Nat}

/-- A catalogue warns of every group that a cluster of it notes. -/
theorem emptyGroup_mem_warnings_iff :
    Warning.emptyGroup offset ∈ (ofForest forest).warnings ↔
      ∃ segment ∈ (ofForest forest).segments, ∃ cluster ∈ segment.clusters,
        offset ∈ cluster.emptyGroups := by
  simp only [ofForest, List.mem_append, mem_headerWarnings_iff, mem_docTypeWarnings_iff,
    mem_segmentWarnings_iff, mem_recoveryWarnings_iff, reduceCtorEq, and_false, or_false,
    exists_false, false_or, Warning.emptyGroup.injEq, exists_eq_right']

/-- The clusters of a catalogue were made from clusters of its forest that were read. -/
theorem exists_of_mem_clusters
    {segment : Segment}
    {cluster : Cluster}
    (hsegment : segment ∈ (ofForest forest).segments)
    (hcluster : cluster ∈ segment.clusters) :
    ∃ root ∈ forest.withId Code.segment, ∃ e ∈ root.children.withId Code.cluster,
      segment = .ofElement root ∧ cluster = .ofElement e := by
  obtain ⟨root, hroot, rfl⟩ := List.mem_map.mp hsegment
  obtain ⟨state, hstate, hread⟩ := List.mem_filterMap.mp hcluster
  obtain ⟨e, he, rfl⟩ := List.mem_map.mp hstate
  exact ⟨root, hroot, e, he, rfl, ((ClusterState.cluster?_ofElement e cluster).mp hread).2⟩

/-- The children of an element two levels below the top have a place in the walk. -/
theorem mem_preorder_of_grandchild
    {root e child : Element}
    (hroot : root ∈ forest.toList)
    (he : e ∈ root.children.toList)
    (hchild : child ∈ e.children.toList) :
    (2, child) ∈ forest.preorder 0 := by
  obtain ⟨i, hi⟩ := List.mem_iff_getElem?.mp hroot
  obtain ⟨j, hj⟩ := List.mem_iff_getElem?.mp he
  obtain ⟨k, hk⟩ := List.mem_iff_getElem?.mp hchild
  exact Forest.mem_preorder_iff.mpr ⟨[i, j, k], rfl, by simp [Forest.at?, Element.at?, hi, hj, hk]⟩

/-- Two elements of a scan with the same start are one. -/
theorem eq_of_start_eq
    {x y : Nat × Element}
    (hstarts : forest.starts.Pairwise (· < ·))
    (hx : x ∈ forest.preorder 0)
    (hy : y ∈ forest.preorder 0)
    (hsame : x.2.frame.heading.start = y.2.frame.heading.start) :
    x = y :=
  List.inj_on_of_nodup_map (hstarts.imp Nat.ne_of_lt) hx hy hsame

/-- The groups that a catalogue reports to have no block.  In each cluster they are the groups that
were read and in which there is none; but when the limit of the scan is two, the groups of a
cluster are not read, and they are all reported.  A warning is given for each of them. -/
theorem emptyGroups_of_read
    (hb : b.Faithful)
    (h : readBuffered b s = .ok d) :
    (∀ segment ∈ d.segments, ∀ cluster ∈ segment.clusters,
      ∃ root ∈ d.elements.withId Code.segment, ∃ e ∈ root.children.withId Code.cluster,
        segment = .ofElement root ∧ cluster = .ofElement e ∧ cluster.NotesEmpty s e) ∧
      ∀ offset : Nat,
        (∃ warning ∈ d.warnings,
          warning.message = "BlockGroup at byte " ++ toString offset ++ " has no Block") ↔
            ∃ segment ∈ d.segments, ∃ cluster ∈ segment.clusters,
              offset ∈ cluster.emptyGroups := by
  obtain ⟨forest, hscan, rfl⟩ := readBuffered_eq_ok_iff.mp h
  refine ⟨?_, fun offset => ?_⟩
  · intro segment hsegment cluster hcluster
    obtain ⟨root, hroot, e, he, rfl, rfl⟩ := exists_of_mem_clusters hsegment hcluster
    refine ⟨root, hroot, e, he, rfl, rfl, ?_⟩
    have hplace : ∀ child ∈ e.children.toList, (2, child) ∈ forest.preorder 0 := fun child =>
      mem_preorder_of_grandchild (Forest.mem_withId.mp hroot).1 (Forest.mem_withId.mp he).1
    have hstarts := (Buffered.scan_tiles_stream hb.exact hscan).2.2.2
    rw [hb.scan_eq, Contents.scan_eq_ok_iff] at hscan
    obtain ⟨r, hreads, rfl⟩ := hscan
    refine Cluster.notesEmpty ?_ ?_
    · intro group hgroup other hother hsame
      exact congrArg Prod.snd
        (eq_of_start_eq hstarts (hplace other hother) (hplace group hgroup) hsame)
    · intro group hgroup
      obtain ⟨hmem, hid⟩ := Forest.mem_withId.mp hgroup
      refine hreads.containers (Nat.zero_le _) (2, group) (hplace group hmem) ?_ ?_ <;>
        simp only [hid] <;> decide
  · rw [← emptyGroup_mem_warnings_iff]
    constructor
    · rintro ⟨warning, hwarning, hmessage⟩
      exact Warning.message_eq_emptyGroup_iff.mp hmessage ▸ hwarning
    · exact fun hwarning => ⟨_, hwarning, Warning.message_emptyGroup offset⟩

/-- A group with a block and one with a duration only: both are read, and the second one is
reported. -/
theorem emptyGroups_of_read_two_groups :
    let b := Buffered.ofBytes
      [0x18, 0x53, 0x80, 0x67, 0x92, 0x1F, 0x43, 0xB6, 0x75, 0x8D,
        0xA0, 0x86, 0xA1, 0x84, 0x81, 0x00, 0x00, 0x80, 0xA0, 0x83, 0x9B, 0x81, 0x28]
    let e : Element :=
      .master ⟨0x1F43B675, ⟨5, 5⟩, .known 13, ⟨10, 13⟩, none⟩
        (.master ⟨0xA0, ⟨10, 2⟩, .known 6, ⟨12, 6⟩, none⟩
          (.leaf ⟨0xA1, ⟨12, 2⟩, .known 4, ⟨14, 4⟩, none⟩
            (.value (.binary 4 [0x81, 0x00, 0x00, 0x80])) .nil)
          (.master ⟨0xA0, ⟨18, 2⟩, .known 3, ⟨20, 3⟩, none⟩
            (.leaf ⟨0x9B, ⟨20, 2⟩, .known 1, ⟨22, 1⟩, none⟩ (.value (.unsigned 40)) .nil) .nil))
    let root : Element := .master ⟨0x18538067, ⟨0, 5⟩, .known 18, ⟨5, 18⟩, none⟩ (.cons e .nil)
    b.Faithful ∧
      readBuffered b ⟨false, 64, .bestEffort⟩ = .ok (ofForest (.cons root .nil)) ∧
      (Cluster.ofElement e).NotesEmpty ⟨false, 64, .bestEffort⟩ e ∧
      (Cluster.ofElement e).emptyGroups = [18] ∧
      ∃ warning ∈ (ofForest (.cons root .nil)).warnings,
        warning.message = "BlockGroup at byte 18 has no Block" := by
  intro b e root
  have hfaithful : b.Faithful := Buffered.ofBytes_faithful _
  have hscan : (b.scan vocabulary ⟨false, 64, .bestEffort⟩).1 = .ok (.cons root .nil) := by
    decide +kernel
  have hread := readBuffered_eq_ok_iff.mpr ⟨_, hscan, rfl⟩
  have hsegment : Segment.ofElement root ∈ (ofForest (.cons root .nil)).segments :=
    List.mem_singleton_self _
  have hcluster : Cluster.ofElement e ∈ (Segment.ofElement root).clusters :=
    List.mem_singleton_self _
  have hnoted : (Cluster.ofElement e).emptyGroups = [18] := by decide
  obtain ⟨hnotes, hwarnings⟩ := emptyGroups_of_read hfaithful hread
  obtain ⟨other, hother, e', he', _, hsame, hnotes⟩ := hnotes _ hsegment _ hcluster
  obtain rfl : other = root := List.mem_singleton.mp hother
  obtain rfl : e' = e := List.mem_singleton.mp he'
  exact ⟨hfaithful, hread, hnotes, hnoted,
    (hwarnings 18).mpr ⟨_, hsegment, _, hcluster, by simp [hnoted]⟩⟩

/-- A group with a block that stands at the depth limit: it was not read, and still it is reported
to have no block. -/
theorem emptyGroups_at_limit :
    let b := Buffered.ofBytes
      [0x18, 0x53, 0x80, 0x67, 0x8D, 0x1F, 0x43, 0xB6, 0x75, 0x88,
        0xA0, 0x86, 0xA1, 0x84, 0x81, 0x00, 0x00, 0x80]
    let group : Element :=
      .leaf ⟨0xA0, ⟨10, 2⟩, .known 6, ⟨12, 6⟩, none⟩ (.corrupt (.tooDeep 2))
    let e : Element := .master ⟨0x1F43B675, ⟨5, 5⟩, .known 8, ⟨10, 8⟩, none⟩ (.cons group .nil)
    let root : Element := .master ⟨0x18538067, ⟨0, 5⟩, .known 13, ⟨5, 13⟩, none⟩ (.cons e .nil)
    b.Faithful ∧
      readBuffered b ⟨false, 2, .bestEffort⟩ = .ok (ofForest (.cons root .nil)) ∧
      Cluster.ofElement e ∈ (Segment.ofElement root).clusters ∧
      e.children.withId Code.blockGroup = [group] ∧ ¬ IsReadEmpty group ∧
      (Cluster.ofElement e).emptyGroups = [group.frame.heading.start] ∧
      Warning.emptyGroup group.frame.heading.start ∈ (ofForest (.cons root .nil)).warnings := by
  intro b group e root
  have hscan : (b.scan vocabulary ⟨false, 2, .bestEffort⟩).1 = .ok (.cons root .nil) := by
    decide +kernel
  refine ⟨Buffered.ofBytes_faithful _, readBuffered_eq_ok_iff.mpr ⟨_, hscan, rfl⟩,
    List.mem_singleton_self _, rfl, ?_, by decide, by decide⟩
  rintro ⟨⟨frame, children, hread⟩, _⟩
  simp [group] at hread

end Catalogue

end Matroska

end EbmlReport
