import EbmlReport.Matroska.Catalogue
import EbmlReport.Proofs.Places
import Mathlib.Data.List.Forall2

/-!
# What records depend on

A record is made of the children of an element, which it looks up by their IDs.  Of a child
it reads the frame and the value, or it makes a record of that child's children in turn.  So
two forests make up the same record when, for each ID by itself, they have the same elements
with it, in the same order, up to whatever the records below do not look at.

Clusters are left out here: of these a record reads the blocks too, which it looks up by two
IDs at once.

**Results.**
* `Like.map_eq`: whatever is made of the elements with an ID is the same for alike forests.
* `Agreement.outline`: so is a tree of records.
* `Agreement.header` to `Agreement.tag`: so is every record of a header and of a segment.
* `Agreement.cluster`: and a cluster, when its blocks are the same.
* `Agreement.segment`: a segment is the same but for its clusters.
-/

namespace EbmlReport

namespace Matroska

/-- For each ID, the forests have the same elements with it in the same order, up to `R`. -/
def Like (R : Element → Element → Prop) (forest forest' : Forest) : Prop :=
  ∀ id, List.Forall₂ R (forest.withId id) (forest'.withId id)

/-- Related elements agree in all that records read of them. -/
structure Agreement (R : Element → Element → Prop) : Prop where
  frame : ∀ {e e' : Element}, R e e' → e'.frame = e.frame
  value : ∀ {e e' : Element}, R e e' → e'.value? = e.value?
  children : ∀ {e e' : Element}, R e e' → e.id ≠ Code.cluster → Like R e.children e'.children

/-- The record is the same for alike forests. -/
def Stable {α : Type} (R : Element → Element → Prop) (record : Forest → α) : Prop :=
  ∀ {forest forest' : Forest}, Like R forest forest' → record forest' = record forest

/-- What is read of an element is read of its value. -/
def OfValue {α : Type} (read : Element → α) : Prop :=
  ∀ {e e' : Element}, e'.value? = e.value? → read e' = read e

section Reading

theorem ofValue_unsigned? : OfValue Element.unsigned? := by
  intro e e' h
  rw [Element.unsigned?, Element.unsigned?, h]

theorem ofValue_float? : OfValue Element.float? := by
  intro e e' h
  rw [Element.float?, Element.float?, h]

theorem ofValue_text? : OfValue Element.text? := by
  intro e e' h
  rw [Element.text?, Element.text?, h]

theorem ofValue_date? : OfValue Element.date? := by
  intro e e' h
  rw [Element.date?, Element.date?, h]

theorem ofValue_binary? : OfValue Element.binary? := by
  intro e e' h
  rw [Element.binary?, Element.binary?, h]

theorem ofValue_binaryLength? : OfValue Element.binaryLength? := by
  intro e e' h
  rw [Element.binaryLength?, Element.binaryLength?, ofValue_binary? h]

theorem ofValue_preview : OfValue fun e => e.binary?.map Prod.snd :=
  fun h => congrArg (Option.map Prod.snd) (ofValue_binary? h)

theorem ofValue_idOf? : OfValue SeekEntry.idOf? := by
  intro e e' h
  rw [SeekEntry.idOf?, SeekEntry.idOf?, ofValue_binary? h]

end Reading

section Lookups

variable {α : Type} {R : Element → Element → Prop} {forest forest' : Forest} {id : Nat}

/-- Forests whose elements are related one by one are alike. -/
theorem Like.of_toList
    (hid : ∀ {e e' : Element}, R e e' → e'.id = e.id)
    (h : List.Forall₂ R forest.toList forest'.toList) :
    Like R forest forest' := by
  intro id
  refine List.rel_filter ?_ h
  intro e e' hrelated
  simp [hid hrelated]

theorem map_eq_of_forall₂
    {elements elements' : List Element}
    {read : Element → α}
    (h : List.Forall₂ R elements elements')
    (hread : ∀ e ∈ elements, ∀ e', R e e' → read e' = read e) :
    elements'.map read = elements.map read := by
  induction h with
  | nil => rfl
  | @cons e e' rest rest' hfirst _ ih =>
      rw [List.map_cons, List.map_cons, hread e List.mem_cons_self e' hfirst,
        ih fun e hmem => hread e (List.mem_cons_of_mem _ hmem)]

/-- Whatever is made of the elements with an ID is the same for alike forests. -/
theorem Like.map_eq
    {read : Element → α}
    (h : Like R forest forest')
    (hread : ∀ e e', e.id = id → R e e' → read e' = read e) :
    (forest'.withId id).map read = (forest.withId id).map read := by
  refine map_eq_of_forall₂ (h id) ?_
  intro e hmem e' hrelated
  refine hread e e' ?_ hrelated
  simpa [Forest.withId] using (List.mem_filter.mp hmem).2

theorem first?_map
    (forest : Forest)
    (id : Nat)
    (read : Element → α) :
    (forest.first? id).map read = ((forest.withId id).map read).head? := by
  rw [Forest.first?, Forest.withId, List.head?_map, List.head?_filter]

theorem last?_map
    (forest : Forest)
    (id : Nat)
    (read : Element → α) :
    (forest.last? id).map read = ((forest.withId id).map read).getLast? := by
  rw [Forest.last?, List.getLast?_map]

theorem firstAs_eq
    (forest : Forest)
    (read : Element → Option α)
    (id : Nat) :
    forest.firstAs read id = ((forest.withId id).map read).head?.join := by
  rw [Forest.firstAs, ← first?_map]
  cases forest.first? id <;> rfl

theorem lastAs_eq
    (forest : Forest)
    (read : Element → Option α)
    (id : Nat) :
    forest.lastAs read id = ((forest.withId id).map read).getLast?.join := by
  rw [Forest.lastAs, ← last?_map]
  cases forest.last? id <;> rfl

theorem allAs_eq
    (forest : Forest)
    (read : Element → Option α)
    (id : Nat) :
    forest.allAs read id = ((forest.withId id).map read).filterMap fun value => value := by
  rw [Forest.allAs, List.filterMap_map]
  rfl

/-- The items of the given elements, each with what `below` makes of its children. -/
def itemsOf (record : Forest → α) (below : Forest → Outline α) : List Element → Outline α
  | [] => .nil
  | e :: rest => .node (record e.children) (below e.children) (itemsOf record below rest)

/-- A tree of records is made of the elements with one ID alone. -/
theorem outline_eq_itemsOf
    {record : Forest → α}
    {outline : Forest → Outline α}
    (hnil : outline .nil = .nil)
    (hcons : ∀ first rest, outline (.cons first rest) =
      if first.id = id then
        .node (record first.children) (outline first.children) (outline rest)
      else outline rest)
    (forest : Forest) :
    outline forest = itemsOf record outline (forest.withId id) := by
  induction forest using Forest.cons_induction with
  | nil => exact hnil
  | cons first rest _ ih =>
      rw [hcons]
      split
      · rename_i hcode
        simp [Forest.withId, hcode, ih, itemsOf]
      · rename_i hcode
        simp [Forest.withId, hcode, ih]

end Lookups

namespace Agreement

variable {α : Type} {R : Element → Element → Prop} {forest forest' : Forest} {e e' : Element}

theorem id_eq (hR : Agreement R) (h : R e e') : e'.id = e.id := by
  rw [Element.id, Element.id, hR.frame h]

section Fields

variable {read : Element → Option α} {record : Forest → α}

theorem lastAs
    (hR : Agreement R)
    (h : Like R forest forest')
    (hread : OfValue read)
    (id : Nat) :
    forest'.lastAs read id = forest.lastAs read id := by
  rw [lastAs_eq, lastAs_eq, h.map_eq fun e e' _ hrelated => hread (hR.value hrelated)]

theorem firstAs
    (hR : Agreement R)
    (h : Like R forest forest')
    (hread : OfValue read)
    (id : Nat) :
    forest'.firstAs read id = forest.firstAs read id := by
  rw [firstAs_eq, firstAs_eq, h.map_eq fun e e' _ hrelated => hread (hR.value hrelated)]

theorem allAs
    (hR : Agreement R)
    (h : Like R forest forest')
    (hread : OfValue read)
    (id : Nat) :
    forest'.allAs read id = forest.allAs read id := by
  rw [allAs_eq, allAs_eq, h.map_eq fun e e' _ hrelated => hread (hR.value hrelated)]

/-- The records of the elements with an ID are the same for alike forests. -/
theorem records
    (hR : Agreement R)
    (h : Like R forest forest')
    (id : Nat)
    (hrecord : Stable R record)
    (hid : id ≠ Code.cluster := by decide) :
    ((forest'.withId id).map fun e => record e.children) =
      (forest.withId id).map fun e => record e.children := by
  refine h.map_eq ?_
  intro e e' hcode hrelated
  exact hrecord (hR.children hrelated (hcode ▸ hid))

theorem firstRecord
    (hR : Agreement R)
    (h : Like R forest forest')
    (id : Nat)
    (hrecord : Stable R record)
    (hid : id ≠ Code.cluster := by decide) :
    ((forest'.first? id).map fun e => record e.children) =
      (forest.first? id).map fun e => record e.children := by
  rw [first?_map, first?_map, hR.records h id hrecord hid]

theorem lastRecord
    (hR : Agreement R)
    (h : Like R forest forest')
    (id : Nat)
    (hrecord : Stable R record)
    (hid : id ≠ Code.cluster := by decide) :
    ((forest'.last? id).map fun e => record e.children) =
      (forest.last? id).map fun e => record e.children := by
  rw [last?_map, last?_map, hR.records h id hrecord hid]

/-- So are the records that are found group by group. -/
theorem groups
    {record : Forest → List α}
    (hR : Agreement R)
    (h : Like R forest forest')
    (id : Nat)
    (hrecord : Stable R record)
    (hid : id ≠ Code.cluster := by decide) :
    ((forest'.withId id).flatMap fun e => record e.children) =
      (forest.withId id).flatMap fun e => record e.children := by
  rw [List.flatMap_def, List.flatMap_def, hR.records h id hrecord hid]

/-- A tree of records is the same for alike forests, when each item in it is. -/
theorem outline
    {outline : Forest → Outline α}
    (hR : Agreement R)
    (id : Nat)
    (hrecord : Stable R record)
    (hnil : outline .nil = .nil)
    (hcons : ∀ first rest, outline (.cons first rest) =
      if first.id = id then
        .node (record first.children) (outline first.children) (outline rest)
      else outline rest)
    (hid : id ≠ Code.cluster := by decide) :
    Stable R outline := by
  suffices hsame : ∀ forest elements, List.Forall₂ R (forest.withId id) elements →
      itemsOf record outline elements = outline forest by
    intro forest forest' h
    rw [outline_eq_itemsOf hnil hcons forest']
    exact hsame forest _ (h id)
  intro forest
  induction forest using Forest.cons_induction with
  | nil =>
      intro elements h
      obtain rfl : elements = [] := List.forall₂_nil_left_iff.mp h
      exact hnil.symm
  | cons first rest ihChildren ihRest =>
      intro elements h
      rw [hcons]
      by_cases hcode : first.id = id
      · simp only [Forest.withId, Forest.toList_cons, hcode, beq_self_eq_true,
          List.filter_cons_of_pos] at h
        obtain ⟨first', rest', hfirst, hrest, rfl⟩ := List.forall₂_cons_left_iff.mp h
        have hbelow := hR.children hfirst (hcode ▸ hid)
        rw [if_pos hcode, ← ihRest rest' hrest, ← ihChildren _ (hbelow id),
          ← outline_eq_itemsOf hnil hcons, ← hrecord hbelow]
        rfl
      · have hskipped : (first.id == id) = false := by simpa using hcode
        simp only [Forest.withId, Forest.toList_cons, hskipped, Bool.false_eq_true,
          not_false_eq_true, List.filter_cons_of_neg] at h
        rw [if_neg hcode]
        exact ihRest elements h

end Fields

section Records

theorem header (hR : Agreement R) : Stable R Header.ofChildren := by
  intro forest forest' h
  simp only [Header.ofChildren, hR.lastAs h ofValue_unsigned?, hR.lastAs h ofValue_text?]

theorem info (hR : Agreement R) : Stable R Info.ofChildren := by
  intro forest forest' h
  simp only [Info.ofChildren, hR.lastAs h ofValue_preview, hR.lastAs h ofValue_text?,
    hR.lastAs h ofValue_unsigned?, hR.lastAs h ofValue_float?, hR.lastAs h ofValue_date?]

theorem seekEntry (hR : Agreement R) : Stable R SeekEntry.ofChildren := by
  intro forest forest' h
  simp only [SeekEntry.ofChildren, hR.lastAs h ofValue_idOf?, hR.lastAs h ofValue_unsigned?]

theorem cuePosition (hR : Agreement R) : Stable R CuePosition.ofChildren := by
  intro forest forest' h
  simp only [CuePosition.ofChildren, hR.lastAs h ofValue_unsigned?]

theorem cuePoint (hR : Agreement R) : Stable R CuePoint.ofChildren := by
  intro forest forest' h
  have hpositions := hR.records h Code.cueTrackPositions hR.cuePosition
  simp only [CuePoint.ofChildren, hR.firstAs h ofValue_unsigned?, hpositions]

theorem attachment (hR : Agreement R) : Stable R Attachment.ofChildren := by
  intro forest forest' h
  simp only [Attachment.ofChildren, hR.lastAs h ofValue_text?,
    hR.lastAs h ofValue_unsigned?, hR.lastAs h ofValue_binaryLength?]

theorem video (hR : Agreement R) : Stable R Video.ofChildren := by
  intro forest forest' h
  simp only [Video.ofChildren, hR.lastAs h ofValue_unsigned?]

theorem audio (hR : Agreement R) : Stable R Audio.ofChildren := by
  intro forest forest' h
  simp only [Audio.ofChildren, hR.lastAs h ofValue_unsigned?, hR.lastAs h ofValue_float?]

theorem trackPlane (hR : Agreement R) : Stable R TrackPlane.ofChildren := by
  intro forest forest' h
  simp only [TrackPlane.ofChildren, hR.firstAs h ofValue_unsigned?]

theorem trackOperation (hR : Agreement R) : Stable R TrackOperation.ofChildren := by
  intro forest forest' h
  have hplanes := hR.groups h Code.trackCombinePlanes
    (fun hbelow => hR.records hbelow Code.trackPlane hR.trackPlane)
  have hjoined := hR.groups h Code.trackJoinBlocks
    (fun hbelow => hR.allAs hbelow ofValue_unsigned? Code.trackJoinUid)
  simp only [TrackOperation.ofChildren, hplanes, hjoined]

theorem track (hR : Agreement R) : Stable R Track.ofChildren := by
  intro forest forest' h
  have hvideo := hR.lastRecord h Code.video hR.video
  have haudio := hR.lastRecord h Code.audio hR.audio
  have hoperation := hR.lastRecord h Code.trackOperation hR.trackOperation
  simp only [Track.ofChildren, hR.lastAs h ofValue_unsigned?, hR.lastAs h ofValue_text?,
    hR.lastAs h ofValue_binaryLength?, hR.allAs h ofValue_unsigned?, hvideo, haudio, hoperation]

theorem chapterDisplay (hR : Agreement R) : Stable R ChapterDisplay.ofChildren := by
  intro forest forest' h
  simp only [ChapterDisplay.ofChildren, hR.firstAs h ofValue_text?]

theorem chapter (hR : Agreement R) : Stable R Chapter.ofChildren := by
  intro forest forest' h
  have hdisplays := hR.records h Code.chapterDisplay hR.chapterDisplay
  simp only [Chapter.ofChildren, hR.firstAs h ofValue_unsigned?, hdisplays]

theorem edition (hR : Agreement R) : Stable R Edition.ofChildren := by
  intro forest forest' h
  have hchapters : Stable R Chapter.outline :=
    hR.outline Code.chapterAtom hR.chapter rfl
      fun first rest => by cases first <;> rfl
  simp only [Edition.ofChildren, hR.firstAs h ofValue_unsigned?, hchapters h]

theorem targets (hR : Agreement R) : Stable R Targets.ofChildren := by
  intro forest forest' h
  simp only [Targets.ofChildren, hR.lastAs h ofValue_unsigned?, hR.lastAs h ofValue_text?,
    hR.allAs h ofValue_unsigned?]

theorem simpleTag (hR : Agreement R) : Stable R SimpleTag.ofChildren := by
  intro forest forest' h
  simp only [SimpleTag.ofChildren, hR.lastAs h ofValue_text?,
    hR.lastAs h ofValue_unsigned?, hR.lastAs h ofValue_binaryLength?]

theorem tag (hR : Agreement R) : Stable R Tag.ofChildren := by
  intro forest forest' h
  have htargets := hR.firstRecord h Code.targets hR.targets
  have htexts : Stable R SimpleTag.outline :=
    hR.outline Code.simpleTag hR.simpleTag rfl
      fun first rest => by cases first <;> rfl
  simp only [Tag.ofChildren, htargets, htexts h]

end Records

section Clusters

theorem headerOf (hR : Agreement R) (h : R e e') : Block.headerOf e' = Block.headerOf e := by
  rw [Block.headerOf, Block.headerOf, ofValue_binary? (hR.value h), hR.frame h]

/-- A group has the same block, when the elements in it agree. -/
theorem group
    (hR : Agreement R)
    (hframe : e'.frame = e.frame)
    (h : Like R e.children e'.children) :
    Block.ofGroup? e' = Block.ofGroup? e := by
  have hcount : (e'.children.withId Code.referenceBlock).length =
      (e.children.withId Code.referenceBlock).length :=
    (h Code.referenceBlock).length_eq.symm
  unfold Block.ofGroup?
  rw [hframe, hR.firstAs h ofValue_unsigned?, hcount, first?_map, first?_map]
  refine congrArg List.head? (h.map_eq ?_)
  intro block block' _ hblock
  rw [hR.frame hblock, hR.headerOf hblock]

/-- Related elements contribute the same block. -/
theorem blockEntry
    (hR : Agreement R)
    (h : R e e') :
    BlockEntry.ofElement? e' = BlockEntry.ofElement? e := by
  unfold BlockEntry.ofElement?
  rw [hR.id_eq h]
  split
  · simp only [Block.ofSimple, hR.frame h, hR.headerOf h]
  · split
    · rename_i hgroup
      have hbelow := hR.children h (by rw [hgroup]; decide)
      rw [hR.group (hR.frame h) hbelow, hR.frame h]
    · rfl

/-- Clusters with related children have the same blocks. -/
theorem entries
    (hR : Agreement R)
    (h : List.Forall₂ R forest.toList forest'.toList) :
    Cluster.entries forest' = Cluster.entries forest := by
  have hentries : ∀ forest : Forest, Cluster.entries forest =
      (forest.toList.map BlockEntry.ofElement?).filterMap fun entry => entry := by
    intro forest
    rw [Cluster.entries, List.filterMap_map]
    rfl
  rw [hentries, hentries, map_eq_of_forall₂ h fun e _ e' hrelated => hR.blockEntry hrelated]

/-- A cluster is the same, when its blocks are and its fields agree. -/
theorem cluster
    (hR : Agreement R)
    (hframe : e'.frame = e.frame)
    (h : Like R e.children e'.children)
    (hentries : Cluster.entries e'.children = Cluster.entries e.children) :
    Cluster.ofElement e' = Cluster.ofElement e := by
  simp only [Cluster.ofElement, hframe, hR.lastAs h ofValue_unsigned?, hentries]

end Clusters

/-- The lists that a segment joins are the same. -/
theorem collect
    {record : Forest → α}
    (hR : Agreement R)
    (h : Like R forest forest')
    (container item : Nat)
    (hrecord : Stable R record)
    (hcontainer : container ≠ Code.cluster := by decide)
    (hitem : item ≠ Code.cluster := by decide) :
    Segment.collect forest' container item record =
      Segment.collect forest container item record :=
  hR.groups h container (fun hbelow => hR.records hbelow item hrecord hitem) hcontainer

/-- A segment is the same but for its clusters. -/
theorem segment
    (hR : Agreement R)
    (hframe : e'.frame = e.frame)
    (h : Like R e.children e'.children) :
    Segment.ofElement e' =
      { Segment.ofElement e with
        clusters := (Segment.ofElement e').clusters
        skippedClusters := (Segment.ofElement e').skippedClusters
        corruptClusters := (Segment.ofElement e').corruptClusters } := by
  have hinfo := hR.firstRecord h Code.info hR.info
  have hseeks := hR.collect h Code.seekHead Code.seek hR.seekEntry
  have htracks := hR.collect h Code.tracks Code.trackEntry hR.track
  have hcues := hR.collect h Code.cues Code.cuePoint hR.cuePoint
  have hfiles := hR.collect h Code.attachments Code.attachedFile hR.attachment
  have heditions := hR.collect h Code.chapters Code.editionEntry hR.edition
  have htags := hR.collect h Code.tags Code.tag hR.tag
  simp only [Segment.ofElement, hframe, hinfo, hseeks, htracks, hcues, hfiles, heditions, htags]

end Agreement

end Matroska

end EbmlReport
