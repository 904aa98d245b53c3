import EbmlReport.Proofs.Extraction
import EbmlReport.Proofs.Records
import Mathlib.Data.List.Nodup

/-!
# Records depend on the order within one ID only

A writer may put the children of a container in another order.  A record looks its fields up
by one ID each, so that order shows only where it is between elements with the same ID.  The
blocks of a cluster are the one list that is joined from two IDs, and there the order between
simple blocks and groups shows too.

Containers may be rearranged at all levels at once, so the relation between two trees goes
down to the leaves: each child is rearranged by itself, and then the children change places.

**Results.**
* `Reordered.of_nodup`: children of which no two have the same ID may stand in any order.
* `Rearranged.like`, `Rearranged.entries`: what records look up, and the blocks of a cluster.
* `rearranged_agreement`: a rearranged element agrees in what records read of it.
* `Segment.ofElement_rearranged`: the law for a segment.
-/

namespace EbmlReport

namespace Matroska

/-- The element is one that should hold a block. -/
def holdsBlock (e : Element) : Bool :=
  e.id == Code.simpleBlock || e.id == Code.blockGroup

/-- The children of a container in another order, which is the same between those with one ID
and, in a cluster, between those that should hold blocks. -/
structure Reordered (container : Nat) (elements elements' : List Element) : Prop where
  sameId : ∀ id : Nat,
    elements'.filter (fun e => e.id == id) = elements.filter fun e => e.id == id
  blocks : container = Code.cluster → elements'.filter holdsBlock = elements.filter holdsBlock

/-- One tree is the other with the children of any containers in another order. -/
inductive Rearranged : Element → Element → Prop
  | leaf (frame : Frame) (content : Content) :
      Rearranged (.leaf frame content) (.leaf frame content)
  | master
      {frame : Frame} {children children' : Forest} {between : List Element}
      (hbelow : List.Forall₂ Rearranged children.toList between)
      (horder : Reordered frame.id between children'.toList) :
      Rearranged (.master frame children) (.master frame children')

namespace Reordered

variable {container : Nat} {elements elements' : List Element}

theorem refl (container : Nat) (elements : List Element) :
    Reordered container elements elements :=
  ⟨fun _ => rfl, fun _ => rfl⟩

/-- Children of which no two have the same ID may stand in any order. -/
theorem of_nodup
    (hperm : elements'.Perm elements)
    (hids : (elements.map Element.id).Nodup)
    (hblocks : container = Code.cluster →
      elements'.filter holdsBlock = elements.filter holdsBlock) :
    Reordered container elements elements' := by
  refine ⟨fun id => ?_, hblocks⟩
  have hfound : (elements'.filter fun e => e.id == id).Perm (elements.filter fun e => e.id == id) :=
    hperm.filter _
  have hone : (elements.filter fun e => e.id == id).length ≤ 1 := by
    rw [← List.countP_eq_length_filter]
    have hcount := List.nodup_iff_count_le_one.mp hids id
    rwa [List.count, List.countP_map] at hcount
  cases hfilter : elements.filter fun e => e.id == id with
  | nil =>
      rw [hfilter] at hfound
      exact hfound.eq_nil
  | cons e rest =>
      obtain rfl : rest = [] := by
        rw [hfilter] at hone
        exact List.length_eq_zero_iff.mp (Nat.le_zero.mp (Nat.le_of_succ_le_succ hone))
      rw [hfilter] at hfound
      exact hfound.eq_singleton

end Reordered

namespace Rearranged

variable {e e' : Element}

theorem frame_eq (h : Rearranged e e') : e'.frame = e.frame := by
  cases h with
  | leaf frame content => rfl
  | master hbelow horder => rfl

theorem id_eq (h : Rearranged e e') : e'.id = e.id := by
  rw [Element.id, h.frame_eq, Element.id]

theorem value_eq (h : Rearranged e e') : e'.value? = e.value? := by
  cases h with
  | leaf frame content => rfl
  | master hbelow horder => rfl

/-- What a class of elements is told by the ID, so a tree stays in its class. -/
theorem filter
    {elements elements' : List Element}
    {p : Element → Bool}
    (h : List.Forall₂ Rearranged elements elements')
    (hp : ∀ {e e' : Element}, e'.id = e.id → p e' = p e) :
    List.Forall₂ Rearranged (elements.filter p) (elements'.filter p) := by
  refine List.rel_filter ?_ h
  intro e e' hrelated
  simp [hp hrelated.id_eq]

/-- With each ID there are the same children, rearranged by themselves. -/
theorem like (h : Rearranged e e') : Like Rearranged e.children e'.children := by
  cases h with
  | leaf frame content => exact fun id => .nil
  | @master frame children children' between hbelow horder =>
      intro id
      have hsame : children'.withId id = between.filter fun e => e.id == id := horder.sameId id
      simp only [Element.children]
      rw [hsame]
      exact filter hbelow fun hid => by rw [hid]

end Rearranged

/-- A rearranged element agrees in all that records read of it. -/
theorem rearranged_agreement : Agreement Rearranged where
  frame := Rearranged.frame_eq
  value := Rearranged.value_eq
  children h _ := h.like

namespace Rearranged

variable {e e' : Element}

/-- The blocks of a cluster come from the elements that should hold them. -/
theorem entries_eq_filterMap (children : Forest) :
    Cluster.entries children =
      ((children.toList.filter holdsBlock).map BlockEntry.ofElement?).filterMap fun x => x := by
  rw [Cluster.entries, List.filterMap_map, List.filterMap_filter]
  refine List.filterMap_congr fun child _ => ?_
  have hholds := BlockEntry.ofElement?_isSome child
  by_cases hblock : holdsBlock child
  · simp [hblock]
  · have hnone : BlockEntry.ofElement? child = none := by
      rw [← Option.not_isSome_iff_eq_none, hholds]
      simpa [holdsBlock] using hblock
    simp [hblock, hnone]

/-- A rearranged cluster has the same blocks. -/
theorem entries (h : Rearranged e e') (hid : e.id = Code.cluster) :
    Cluster.entries e'.children = Cluster.entries e.children := by
  cases h with
  | leaf frame content => rfl
  | @master frame children children' between hbelow horder =>
      have hblocks : children'.toList.filter holdsBlock = between.filter holdsBlock :=
        horder.blocks hid
      have hrelated : List.Forall₂ Rearranged (children.toList.filter holdsBlock)
          (between.filter holdsBlock) :=
        filter hbelow fun hid => by rw [holdsBlock, hid, holdsBlock]
      simp only [Element.children]
      rw [entries_eq_filterMap, entries_eq_filterMap, hblocks,
        map_eq_of_forall₂ hrelated fun e _ e' hchild => rearranged_agreement.blockEntry hchild]

/-- A rearranged cluster is in the same state. -/
theorem clusterState (h : Rearranged e e') (hid : e.id = Code.cluster) :
    ClusterState.ofElement e' = ClusterState.ofElement e := by
  have hcluster : Cluster.ofElement e' = Cluster.ofElement e :=
    rearranged_agreement.cluster h.frame_eq h.like (h.entries hid)
  cases h with
  | leaf frame content => rfl
  | master hbelow horder => simp only [ClusterState.ofElement, hcluster]

end Rearranged

namespace Segment

/-- **Records depend only on the order within one ID.**  When the children of any containers in
the tree of a segment change places, at whatever levels, so that those with the same ID stay in
their order, and the simple blocks and groups of a cluster in that between them, then the
segment that is made of it is the same. -/
theorem ofElement_rearranged {e e' : Element} (h : Rearranged e e') :
    ofElement e' = ofElement e := by
  have hstates : clusterStates e'.children = clusterStates e.children :=
    h.like.map_eq fun child child' hid hchild => hchild.clusterState hid
  rw [rearranged_agreement.segment h.frame_eq h.like]
  simp only [ofElement, hstates]

/-- Three levels of a segment change: the cluster goes behind the tags, its timestamp goes behind
the blocks, and in the group the duration comes first. -/
theorem ofElement_rearranged_three_levels :
    let timestamp : Element :=
      .leaf ⟨0xE7, ⟨10, 2⟩, .known 1, ⟨12, 1⟩, none⟩ (.value (.unsigned 5))
    let simple : Element :=
      .leaf ⟨0xA3, ⟨13, 2⟩, .known 5, ⟨15, 5⟩, none⟩ (.value (.binary 5 [0x81, 0, 0, 0x80, 7]))
    let block : Element :=
      .leaf ⟨0xA1, ⟨22, 2⟩, .known 4, ⟨24, 4⟩, none⟩ (.value (.binary 4 [0x82, 0, 1, 0]))
    let duration : Element :=
      .leaf ⟨0x9B, ⟨28, 2⟩, .known 1, ⟨30, 1⟩, none⟩ (.value (.unsigned 40))
    let group (children : List Element) : Element :=
      .master ⟨0xA0, ⟨20, 2⟩, .known 9, ⟨22, 9⟩, none⟩ (.ofList children)
    let cluster (children : List Element) : Element :=
      .master ⟨0x1F43B675, ⟨5, 5⟩, .known 21, ⟨10, 21⟩, none⟩ (.ofList children)
    let tags : Element := .master ⟨0x1254C367, ⟨31, 5⟩, .known 0, ⟨36, 0⟩, none⟩ .nil
    let segment (children : List Element) : Element :=
      .master ⟨0x18538067, ⟨0, 5⟩, .known 31, ⟨5, 31⟩, none⟩ (.ofList children)
    let before := segment [cluster [timestamp, simple, group [block, duration]], tags]
    let after := segment [tags, cluster [simple, group [duration, block], timestamp]]
    Rearranged before after ∧ after ≠ before ∧ ofElement after = ofElement before ∧
      (ofElement after).clusters.map (fun cluster => cluster.blocks.length) = [2] := by
  intro timestamp simple block duration group cluster tags segment before after
  have hgroup : Rearranged (group [block, duration]) (group [duration, block]) := by
    refine .master (.cons (.leaf _ _) (.cons (.leaf _ _) .nil)) (.of_nodup ?_ ?_ ?_) <;> decide
  have hcluster : Rearranged (cluster [timestamp, simple, group [block, duration]])
      (cluster [simple, group [duration, block], timestamp]) := by
    refine .master (.cons (.leaf _ _) (.cons (.leaf _ _) (.cons hgroup .nil)))
      (.of_nodup ?_ ?_ ?_) <;> decide
  have htags : Rearranged tags tags := .master .nil (.refl _ _)
  have hsegment : Rearranged before after := by
    refine .master (.cons hcluster (.cons htags .nil)) (.of_nodup ?_ ?_ ?_) <;> decide
  exact ⟨hsegment, by decide, ofElement_rearranged hsegment, by decide⟩

end Segment

end Matroska

end EbmlReport
