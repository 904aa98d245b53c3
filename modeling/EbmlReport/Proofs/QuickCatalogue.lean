import EbmlReport.Proofs.DepthLimit
import EbmlReport.Proofs.Records

/-!
# The catalogue of a shallow scan

A shallow scan gives the pruned forest of the full one, so its catalogue is made of elements
that differ in the clusters below them.  Records do not look at clusters, except that a
segment lists its own.  Of these the first is read and the others are passed over; none is
read when the first cluster of the segment stands elsewhere in it.

**Results.**
* `prunesTo_agreement`: an element that was pruned agrees in what records read of it.
* `passes_prune`: what becomes of the clusters of a segment, one after the other.
* `Segment.abridges_prune`: what becomes of a segment.
* `Catalogue.readBuffered_shallow`: the catalogues of both scans.
-/

namespace EbmlReport

/-- What the element may become in a forest that is pruned. -/
def Element.PrunesTo (v : Vocabulary) (e e' : Element) : Prop :=
  ∃ seen, e' = (e.prune v seen).1

section Pruning

variable {v : Vocabulary} {e : Element} {seen : Bool}

@[simp] theorem Element.frame_prune : (e.prune v seen).1.frame = e.frame := by
  cases e with
  | leaf frame content => rfl
  | master frame children =>
      simp only [prune]
      split <;> rfl

@[simp] theorem Element.id_prune : (e.prune v seen).1.id = e.id := by
  rw [id, frame_prune, id]

theorem Element.value?_prune : (e.prune v seen).1.value? = e.value? := by
  cases e with
  | leaf frame content => rfl
  | master frame children =>
      simp only [prune]
      split <;> rfl

/-- Below an element that is never passed over, its children are pruned. -/
theorem Element.children_prune (hkept : v.isSkippable e.id = false) :
    (e.prune v seen).1.children = (e.children.prune v seen).1 := by
  cases e with
  | leaf frame content => rfl
  | master frame children =>
      replace hkept : v.isSkippable frame.id = false := hkept
      simp only [prune, hkept, Bool.false_and, Bool.false_eq_true, if_false, Bool.or_false]
      rfl

namespace Forest

theorem prunesTo_prune (v : Vocabulary) (forest : Forest) (seen : Bool) :
    List.Forall₂ (Element.PrunesTo v) forest.toList (forest.prune v seen).1.toList := by
  induction forest using cons_induction generalizing seen with
  | nil => exact .nil
  | cons first rest _ ih =>
      rw [prune_cons, toList_cons, toList_cons]
      exact .cons ⟨seen, rfl⟩ (ih _)

theorem prunesTo_pruneRoots (v : Vocabulary) (forest : Forest) :
    List.Forall₂ (Element.PrunesTo v) forest.toList (forest.pruneRoots v).toList := by
  rw [pruneRoots, toList_ofList]
  exact List.forall₂_map_right_iff.mpr (List.forall₂_same.mpr fun root _ => ⟨false, rfl⟩)

theorem withId_pruneRoots (v : Vocabulary) (forest : Forest) (id : Nat) :
    (forest.pruneRoots v).withId id =
      (forest.withId id).map fun root => (root.prune v false).1 := by
  rw [withId, withId, pruneRoots, toList_ofList, List.filter_map]
  simp only [Function.comp_def, Element.id_prune]

/-- Where nothing can be passed over, nothing is met. -/
theorem prune_snd_of_none
    {forest : Forest}
    {depth : Nat}
    (h : ∀ x ∈ forest.preorder depth, v.isSkippable x.2.id = false) :
    (forest.prune v seen).2 = seen := by
  induction forest generalizing depth seen with
  | nil => rfl
  | leaf frame content rest ih => exact ih fun x hmem => h x (List.mem_cons_of_mem _ hmem)
  | master frame children rest ihChildren ihRest =>
      have hself : v.isSkippable frame.id = false := h _ List.mem_cons_self
      simp only [preorder, List.mem_cons, List.mem_append] at h
      simp only [prune, hself, Bool.false_and, Bool.false_eq_true, if_false, Bool.or_false]
      rw [ihChildren fun x hmem => h x (Or.inr (Or.inl hmem)),
        ihRest fun x hmem => h x (Or.inr (Or.inr hmem))]

end Forest

theorem Element.prune_snd_of_none (h : ∀ x ∈ e.preorder, v.isSkippable x.2.id = false) :
    (e.prune v seen).2 = seen := by
  have hforest := @Forest.prune_snd_of_none v seen _ _ h
  rwa [Forest.prune_cons] at hforest

end Pruning

namespace Matroska

/-- Only clusters are passed over. -/
theorem isSkippable_eq (id : Nat) :
    vocabulary.isSkippable id = decide (id = Code.cluster) := by
  simp [vocabulary, Vocabulary.ofTable]

/-- An element that was pruned agrees in all that records read of it. -/
theorem prunesTo_agreement : Agreement (Element.PrunesTo vocabulary) where
  frame := by
    rintro e _ ⟨seen, rfl⟩
    exact Element.frame_prune
  value := by
    rintro e _ ⟨seen, rfl⟩
    exact Element.value?_prune
  children := by
    rintro e _ ⟨seen, rfl⟩ hid
    have hkept : vocabulary.isSkippable e.id = false := by simpa [isSkippable_eq] using hid
    rw [Element.children_prune hkept]
    refine Like.of_toList ?_ (e.children.prunesTo_prune vocabulary seen)
    rintro e _ ⟨seen, rfl⟩
    exact Element.id_prune

theorem like_of_prunesTo
    {forest forest' : Forest}
    (h : List.Forall₂ (Element.PrunesTo vocabulary) forest.toList forest'.toList) :
    Like (Element.PrunesTo vocabulary) forest forest' :=
  Like.of_toList prunesTo_agreement.id_eq h

/-- A cluster that is read is not changed by what is pruned below it. -/
theorem Cluster.ofElement_prune
    (frame : Frame)
    (children : Forest)
    (seen : Bool) :
    Cluster.ofElement (.master frame (children.prune vocabulary seen).1) =
      Cluster.ofElement (.master frame children) := by
  have hpruned := children.prunesTo_prune vocabulary seen
  exact prunesTo_agreement.cluster rfl (like_of_prunesTo hpruned)
    (prunesTo_agreement.entries hpruned)

/-- What a shallow scan makes of the clusters of a segment that were read or are corrupt.
The flag tells whether a cluster has been opened. -/
inductive Passes : (seen : Bool) → List ClusterState → List ClusterState → Prop
  | nil {seen : Bool} : Passes seen [] []
  /-- A corrupt one stays. -/
  | corrupt
      {seen : Bool} {states states' : List ClusterState}
      (hrest : Passes seen states states') :
      Passes seen (.corrupt :: states) (.corrupt :: states')
  /-- The first one is read. -/
  | read
      {cluster : Cluster} {states states' : List ClusterState}
      (hrest : Passes true states states') :
      Passes false (.read cluster :: states) (.read cluster :: states')
  /-- Later ones are passed over. -/
  | skipped
      {cluster : Cluster} {states states' : List ClusterState}
      (hrest : Passes true states states') :
      Passes true (.read cluster :: states) (.skipped :: states')
  /-- A cluster is opened elsewhere in the segment. -/
  | elsewhere
      {states states' : List ClusterState}
      (hrest : Passes true states states') :
      Passes false states states'

namespace Passes

variable {seen : Bool} {states states' : List ClusterState}

theorem countP_isCorrupt (h : Passes seen states states') :
    states'.countP ClusterState.isCorrupt = states.countP ClusterState.isCorrupt := by
  induction h with
  | nil => rfl
  | corrupt _ ih => simp [List.countP_cons, ClusterState.isCorrupt, ih]
  | read _ ih => simp [ClusterState.isCorrupt, ih]
  | skipped _ ih => simp [ClusterState.isCorrupt, ih]
  | elsewhere _ ih => exact ih

/-- Every cluster that was read is read again or passed over. -/
theorem length_read_add_countP_isSkipped (h : Passes seen states states') :
    (states'.filterMap ClusterState.cluster?).length +
        states'.countP ClusterState.isSkipped =
      (states.filterMap ClusterState.cluster?).length := by
  induction h with
  | nil => rfl
  | corrupt _ ih =>
      simpa [List.filterMap_cons, List.countP_cons, ClusterState.cluster?,
        ClusterState.isSkipped] using ih
  | read _ ih =>
      simp only [List.filterMap_cons, List.countP_cons, List.length_cons, ClusterState.cluster?,
        ClusterState.isSkipped, Bool.false_eq_true, if_false]
      omega
  | skipped _ ih =>
      simp only [List.filterMap_cons, List.countP_cons, List.length_cons, ClusterState.cluster?,
        ClusterState.isSkipped, if_true]
      omega
  | elsewhere _ ih => exact ih

/-- Once a cluster has been opened, none is read. -/
theorem read_eq_nil
    (h : Passes seen states states')
    (hseen : seen = true) :
    states'.filterMap ClusterState.cluster? = [] := by
  induction h with
  | nil => rfl
  | corrupt _ ih => simpa [List.filterMap_cons, ClusterState.cluster?] using ih hseen
  | read _ _ => simp at hseen
  | skipped _ ih => simpa [List.filterMap_cons, ClusterState.cluster?] using ih rfl
  | elsewhere _ _ => simp at hseen

/-- Only the first cluster is read, if any is. -/
theorem read_prefix (h : Passes seen states states') :
    states'.filterMap ClusterState.cluster? <+: states.filterMap ClusterState.cluster? ∧
      (states'.filterMap ClusterState.cluster?).length ≤ 1 := by
  induction h with
  | nil => exact ⟨List.prefix_refl _, Nat.zero_le _⟩
  | corrupt _ ih => simpa [List.filterMap_cons, ClusterState.cluster?] using ih
  | read hrest ih => simp [ClusterState.cluster?, hrest.read_eq_nil rfl]
  | skipped hrest ih =>
      simp [List.filterMap_cons, ClusterState.cluster?, hrest.read_eq_nil rfl]
  | elsewhere _ ih => exact ih

end Passes

section Segments

variable {forest : Forest} {e : Element}

/-- The element was read as a container, or is corrupt. -/
def ReadOrCorrupt (e : Element) : Prop :=
  (∃ frame children, e = .master frame children) ∨ ∃ frame reason, e = .leaf frame (.corrupt reason)

theorem clusterStates_cons (first : Element) (rest : Forest) :
    Segment.clusterStates (.cons first rest) =
      if first.id = Code.cluster then .ofElement first :: Segment.clusterStates rest
      else Segment.clusterStates rest := by
  by_cases hcode : first.id = Code.cluster
  · simp [Segment.clusterStates, Forest.withId, hcode]
  · simp [Segment.clusterStates, Forest.withId, hcode]

/-- Pruning passes over all clusters but the first. -/
theorem passes_prune
    (h : ∀ e ∈ forest.toList, e.id = Code.cluster → ReadOrCorrupt e)
    (seen : Bool) :
    Passes seen (Segment.clusterStates forest)
      (Segment.clusterStates (forest.prune vocabulary seen).1) := by
  induction forest using Forest.cons_induction generalizing seen with
  | nil => exact .nil
  | cons first rest _ ih =>
      rw [Forest.toList_cons] at h
      replace ih := ih fun e hmem => h e (List.mem_cons_of_mem _ hmem)
      rw [Forest.prune_cons, clusterStates_cons, clusterStates_cons, Element.id_prune]
      by_cases hcode : first.id = Code.cluster
      · rw [if_pos hcode, if_pos hcode]
        have hskippable : vocabulary.isSkippable first.id = true := by simp [isSkippable_eq, hcode]
        rcases h first List.mem_cons_self hcode with
          ⟨frame, children, rfl⟩ | ⟨frame, reason, rfl⟩
        · replace hskippable : vocabulary.isSkippable frame.id = true := hskippable
          cases seen with
          | true =>
              simp only [Element.prune, hskippable, Bool.and_self, if_true]
              exact .skipped (ih true)
          | false =>
              simp only [Element.prune, hskippable, Bool.and_false, Bool.false_eq_true, if_false,
                Bool.or_true, Forest.prune_true_snd]
              have hkept := Cluster.ofElement_prune frame children true
              simp only [ClusterState.ofElement, hkept]
              exact .read (ih true)
        · exact .corrupt (ih seen)
      · rw [if_neg hcode, if_neg hcode]
        -- The flag can only rise, in a cluster below the first element.
        cases seen with
        | true =>
            have hstays : (first.prune vocabulary true).2 = true := by
              have hforest := (Forest.cons first .nil).prune_true_snd vocabulary
              rwa [Forest.prune_cons] at hforest
            rw [hstays]
            exact ih true
        | false =>
            cases hafter : (first.prune vocabulary false).2 with
            | true => exact .elsewhere (ih true)
            | false => exact ih false

/-- In file order, the first cluster among the children comes before all others below them. -/
def LeadsClusters (children : Forest) : Prop :=
  ∀ child ∈ children.toList.takeWhile (·.id != Code.cluster),
    ∀ x ∈ child.preorder, x.2.id ≠ Code.cluster

theorem leadsClusters_cons
    {first : Element}
    {rest : Forest}
    (hid : first.id ≠ Code.cluster) :
    LeadsClusters (.cons first rest) ↔
      (∀ x ∈ first.preorder, x.2.id ≠ Code.cluster) ∧ LeadsClusters rest := by
  simp [LeadsClusters, hid]

/-- When the first cluster of a segment is one of its children, that is read. -/
theorem length_read_prune
    (h : ∀ e ∈ forest.toList, e.id = Code.cluster → ∃ frame children, e = .master frame children)
    (hleads : LeadsClusters forest) :
    ((Segment.clusterStates (forest.prune vocabulary false).1).filterMap
        ClusterState.cluster?).length =
      min 1 ((Segment.clusterStates forest).filterMap ClusterState.cluster?).length := by
  induction forest using Forest.cons_induction with
  | nil => rfl
  | cons first rest _ ih =>
      rw [Forest.toList_cons] at h
      have hrest := fun e hmem => h e (List.mem_cons_of_mem _ hmem)
      rw [Forest.prune_cons, clusterStates_cons, clusterStates_cons, Element.id_prune]
      by_cases hcode : first.id = Code.cluster
      · rw [if_pos hcode, if_pos hcode]
        obtain ⟨frame, children, rfl⟩ := h first List.mem_cons_self hcode
        replace hcode : frame.id = Code.cluster := hcode
        have hskippable : vocabulary.isSkippable frame.id = true := by
          simp [isSkippable_eq, hcode]
        have hpassed := passes_prune (fun e hmem hid => Or.inl (hrest e hmem hid)) true
        simp only [Element.prune, hskippable, Bool.and_false, Bool.false_eq_true, if_false,
          Bool.or_true, Forest.prune_true_snd, ClusterState.ofElement, ClusterState.cluster?,
          List.filterMap_cons, hpassed.read_eq_nil rfl, List.length_cons, List.length_nil]
        omega
      · rw [if_neg hcode, if_neg hcode]
        obtain ⟨hfirst, hbehind⟩ := (leadsClusters_cons hcode).mp hleads
        have hnone : (first.prune vocabulary false).2 = false :=
          Element.prune_snd_of_none fun x hmem => by simpa [isSkippable_eq] using hfirst x hmem
        rw [hnone]
        exact ih hrest hbehind

/-- A cluster of a full scan was read, or is corrupt since it stands at the depth limit. -/
theorem cluster_of_ranks
    {limit depth : Nat}
    (h : e.Ranks vocabulary limit depth)
    (hid : e.id = Code.cluster) :
    (depth < limit ∧ ∃ frame children, e = .master frame children) ∨
      (depth = limit ∧ ∃ frame reason, e = .leaf frame (.corrupt reason)) := by
  have hmaster : vocabulary.isMaster e.id = true := by
    rw [hid]
    decide
  cases h with
  | standsIn hdepth hreason => simp [Element.id, Element.placeholder, Code.cluster] at hid
  | leaf hdepth hkind herror hcontent =>
      rw [Element.id, Element.frame_leaf, hkind] at hmaster
      simp at hmaster
  | entered hdepth hkind herror => exact Or.inl ⟨hdepth, _, _, rfl⟩
  | shut hdepth hkind hheading herror => exact Or.inr ⟨hdepth, _, _, rfl⟩

theorem readOrCorrupt_of_ranks
    {limit depth : Nat}
    (h : e.Ranks vocabulary limit depth)
    (hid : e.id = Code.cluster) :
    ReadOrCorrupt e :=
  (cluster_of_ranks h hid).imp And.right And.right

/-- The segment of a shallow scan has all that the full one has, but for the clusters.  Of
these it has at most the first, and counts the others as passed over. -/
structure Segment.Abridges (quick full : Segment) : Prop where
  offset : quick.offset = full.offset
  info : quick.info = full.info
  seekEntries : quick.seekEntries = full.seekEntries
  tracks : quick.tracks = full.tracks
  cuePoints : quick.cuePoints = full.cuePoints
  attachments : quick.attachments = full.attachments
  editions : quick.editions = full.editions
  tags : quick.tags = full.tags
  corruptClusters : quick.corruptClusters = full.corruptClusters
  clusters : quick.clusters <+: full.clusters
  length_clusters : quick.clusters.length ≤ 1
  skippedClusters : quick.clusters.length + quick.skippedClusters = full.clusters.length

/-- What becomes of a segment of a full scan when it is pruned. -/
theorem Segment.abridges_prune
    {limit depth : Nat}
    (hid : e.id ≠ Code.cluster)
    (h : ∀ child ∈ e.children.toList, child.Ranks vocabulary limit depth) :
    (Segment.ofElement (e.prune vocabulary false).1).Abridges (Segment.ofElement e) := by
  have hrelated : Element.PrunesTo vocabulary e (e.prune vocabulary false).1 := ⟨false, rfl⟩
  have hsame := prunesTo_agreement.segment (prunesTo_agreement.frame hrelated)
    (prunesTo_agreement.children hrelated hid)
  have hpasses := passes_prune (fun child hmem => readOrCorrupt_of_ranks (h child hmem)) false
  have hkept : vocabulary.isSkippable e.id = false := by simpa [isSkippable_eq] using hid
  rw [← Element.children_prune hkept] at hpasses
  obtain ⟨hfront, hlength⟩ := hpasses.read_prefix
  exact
    { offset := by rw [hsame]
      info := by rw [hsame]
      seekEntries := by rw [hsame]
      tracks := by rw [hsame]
      cuePoints := by rw [hsame]
      attachments := by rw [hsame]
      editions := by rw [hsame]
      tags := by rw [hsame]
      corruptClusters := hpasses.countP_isCorrupt
      clusters := hfront
      length_clusters := hlength
      skippedClusters := hpasses.length_read_add_countP_isSkipped }

/-- Clusters that are corrupt leave nothing behind. -/
theorem read_eq_nil_of_corrupt
    (h : ∀ child ∈ forest.toList, child.id = Code.cluster →
      ∃ frame reason, child = .leaf frame (.corrupt reason)) :
    (Segment.clusterStates forest).filterMap ClusterState.cluster? = [] := by
  refine List.filterMap_eq_nil_iff.mpr fun state hstate => ?_
  obtain ⟨child, hchild, rfl⟩ := List.mem_map.mp hstate
  obtain ⟨hmem, hid⟩ := List.mem_filter.mp hchild
  obtain ⟨frame, reason, rfl⟩ := h child hmem (by simpa using hid)
  rfl

/-- A segment of a full scan keeps its first cluster, if that is one of its children. -/
theorem Segment.length_clusters_prune
    {limit depth : Nat}
    (hid : e.id ≠ Code.cluster)
    (h : ∀ child ∈ e.children.toList, child.Ranks vocabulary limit depth)
    (hleads : LeadsClusters e.children) :
    (Segment.ofElement (e.prune vocabulary false).1).clusters.length =
      min 1 (Segment.ofElement e).clusters.length := by
  have hkept : vocabulary.isSkippable e.id = false := by simpa [isSkippable_eq] using hid
  by_cases habove : depth < limit
  · simp only [Segment.ofElement, Element.children_prune hkept]
    refine length_read_prune (fun child hmem hcode => ?_) hleads
    rcases cluster_of_ranks (h child hmem) hcode with ⟨_, hread⟩ | ⟨hlimit, _⟩
    · exact hread
    · omega
  · -- At the depth limit no cluster is read.
    have hnone : (Segment.ofElement e).clusters = [] := by
      refine read_eq_nil_of_corrupt fun child hmem hcode => ?_
      rcases cluster_of_ranks (h child hmem) hcode with ⟨hless, _⟩ | ⟨_, hcorrupt⟩
      · omega
      · exact hcorrupt
    have hfront := (Segment.abridges_prune hid h).clusters
    rw [hnone, List.prefix_nil] at hfront
    rw [hnone, hfront]
    rfl

end Segments

namespace Catalogue

variable {b : Buffered} {maxDepth : Nat} {recovery : Recovery} {full : Catalogue}

/-- Every child of a top-level element of a full scan is what its depth makes of it. -/
theorem ranks_of_scan
    {forest : Forest}
    {root : Element}
    (hb : b.Faithful)
    (h : (b.scan vocabulary ⟨false, maxDepth, recovery⟩).1 = .ok forest)
    (hroot : root ∈ forest.toList) :
    ∀ child ∈ root.children.toList, child.Ranks vocabulary maxDepth 1 := by
  intro child hchild
  rw [hb.scan_eq, Contents.scan_eq_ok_iff] at h
  obtain ⟨r, hreads, rfl⟩ := h
  refine hreads.ranks (Nat.le_refl _) rfl (Nat.zero_le _) (1, child) ?_
  obtain ⟨i, hi⟩ := List.mem_iff_getElem?.mp hroot
  obtain ⟨j, hj⟩ := List.mem_iff_getElem?.mp hchild
  exact Forest.mem_preorder_iff.mpr ⟨[i, j], rfl, by simp [Forest.at?, Element.at?, hi, hj]⟩

theorem readBuffered_eq_ok_iff {s : Settings} :
    readBuffered b s = .ok full ↔
      ∃ forest, (b.scan vocabulary s).1 = .ok forest ∧ ofForest forest = full := by
  unfold readBuffered
  cases (b.scan vocabulary s).1 <;> simp [Except.map]

theorem scan_shallow
    {forest : Forest}
    (hb : b.Faithful)
    (h : (b.scan vocabulary ⟨false, maxDepth, recovery⟩).1 = .ok forest) :
    (b.scan vocabulary ⟨true, maxDepth, recovery⟩).1 = .ok (forest.pruneRoots vocabulary) := by
  rw [hb.scan_eq, Contents.scan_eq_ok_iff] at h ⊢
  obtain ⟨r, hreads, rfl⟩ := h
  obtain ⟨seen, hshallow⟩ := (hreads.shallow false).2 rfl
  exact ⟨_, hshallow, rfl⟩

/-- When a file can be catalogued in full, it can be catalogued by a shallow scan.  Both
catalogues have the same header and as many segments, which differ in the clusters alone.  Of
these the shallow one has at most the first, and has it if no cluster stands before it in
the segment. -/
theorem readBuffered_shallow
    (hb : b.Faithful)
    (h : readBuffered b ⟨false, maxDepth, recovery⟩ = .ok full) :
    ∃ quick,
      readBuffered b ⟨true, maxDepth, recovery⟩ = .ok quick ∧
      quick.header = full.header ∧
      quick.segments.length = full.segments.length ∧
      ∀ (i : Nat) (e : Element) (whole part : Segment),
        (full.elements.withId Code.segment)[i]? = some e →
        full.segments[i]? = some whole →
        quick.segments[i]? = some part →
          part.Abridges whole ∧
            (LeadsClusters e.children →
              part.clusters.length = min 1 whole.clusters.length) := by
  obtain ⟨forest, hscan, rfl⟩ := readBuffered_eq_ok_iff.mp h
  have hquick := scan_shallow hb hscan
  have hlike := like_of_prunesTo (forest.prunesTo_pruneRoots vocabulary)
  refine ⟨ofForest (forest.pruneRoots vocabulary), readBuffered_eq_ok_iff.mpr ⟨_, hquick, rfl⟩,
    ?_, ?_, ?_⟩
  · exact prunesTo_agreement.firstRecord hlike Code.ebml prunesTo_agreement.header
  · simp [ofForest, Forest.withId_pruneRoots]
  · intro i e whole part he hwhole hpart
    obtain ⟨hroot, hid⟩ := List.mem_filter.mp (List.mem_of_getElem? he)
    replace hid : e.id ≠ Code.cluster := by
      rw [beq_iff_eq.mp hid]
      decide
    have hranks := ranks_of_scan hb hscan hroot
    replace he : (forest.withId Code.segment)[i]? = some e := he
    obtain rfl : Segment.ofElement e = whole := by simpa [ofForest, he] using hwhole
    obtain rfl : Segment.ofElement (e.prune vocabulary false).1 = part := by
      simpa [ofForest, Forest.withId_pruneRoots, he] using hpart
    exact ⟨Segment.abridges_prune hid hranks, Segment.length_clusters_prune hid hranks⟩

/-- Two clusters, the second of unknown size, and behind them a tag: the shallow scan has the
first cluster, counts the second, and has the tag. -/
theorem readBuffered_shallow_two_clusters :
    let b := Buffered.ofBytes
      [0x18, 0x53, 0x80, 0x67, 0xFF, 0x1F, 0x43, 0xB6, 0x75, 0x83, 0xE7, 0x81, 0x05,
        0x1F, 0x43, 0xB6, 0x75, 0xFF, 0xE7, 0x81, 0x07,
        0x12, 0x54, 0xC3, 0x67, 0x83, 0x73, 0x73, 0x80]
    let segment : Element :=
      .master ⟨0x18538067, ⟨0, 5⟩, .unknown, ⟨5, 24⟩, none⟩
        (.master ⟨0x1F43B675, ⟨5, 5⟩, .known 3, ⟨10, 3⟩, none⟩
          (.leaf ⟨0xE7, ⟨10, 2⟩, .known 1, ⟨12, 1⟩, none⟩ (.value (.unsigned 5)) .nil)
          (.master ⟨0x1F43B675, ⟨13, 5⟩, .unknown, ⟨18, 3⟩, none⟩
            (.leaf ⟨0xE7, ⟨18, 2⟩, .known 1, ⟨20, 1⟩, none⟩ (.value (.unsigned 7)) .nil)
            (.master ⟨0x1254C367, ⟨21, 5⟩, .known 3, ⟨26, 3⟩, none⟩
              (.master ⟨0x7373, ⟨26, 3⟩, .known 0, ⟨29, 0⟩, none⟩ .nil .nil) .nil)))
    b.Faithful ∧
      readBuffered b ⟨false, 64, .strict⟩ = .ok (ofForest (.cons segment .nil)) ∧
      LeadsClusters segment.children ∧
      ∃ quick part,
        readBuffered b ⟨true, 64, .strict⟩ = .ok quick ∧ quick.segments = [part] ∧
        part.Abridges (Segment.ofElement segment) ∧ part.clusters.length = 1 ∧
        part.skippedClusters = 1 ∧ part.tags.length = 1 := by
  intro b segment
  have hfaithful : b.Faithful := Buffered.ofBytes_faithful _
  have hscan : (b.scan vocabulary ⟨false, 64, .strict⟩).1 = .ok (.cons segment .nil) := by
    decide +kernel
  have hfull := readBuffered_eq_ok_iff.mpr ⟨_, hscan, rfl⟩
  have hleads : LeadsClusters segment.children := by
    intro child hmem
    simp [segment, Element.children, Forest.toList, Element.id, Code.cluster] at hmem
  obtain ⟨quick, hquick, _, hlength, hsegments⟩ := readBuffered_shallow hfaithful hfull
  obtain ⟨part, hpart⟩ := List.length_eq_one_iff.mp hlength
  obtain ⟨habridges, hfirst⟩ := hsegments 0 segment (Segment.ofElement segment) part rfl rfl
    (by rw [hpart]; rfl)
  have hclusters : (Segment.ofElement segment).clusters.length = 2 := by decide +kernel
  have htags : (Segment.ofElement segment).tags.length = 1 := by decide +kernel
  have hread : part.clusters.length = 1 := by
    rw [hfirst hleads, hclusters]
    rfl
  have hskipped := habridges.skippedClusters
  rw [hread, hclusters] at hskipped
  refine ⟨hfaithful, hfull, hleads, quick, part, hquick, hpart, habridges, hread, by omega, ?_⟩
  rw [habridges.tags, htags]

end Catalogue

end Matroska

end EbmlReport
