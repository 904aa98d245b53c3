import EbmlReport.Proofs.Drawing
import EbmlReport.Proofs.Records

/-!
# Extraction loses and duplicates nothing

A catalogue collects its records from children, from children of children, and from trees of
any depth, between which other elements may stand.  Each list of records is compared with the
places of the elements that it should be made from: these in their order, each of them once, and
no others.  A tree of records is compared place by place with the elements of its kind.

**Results.**
* `Forest.gathers_below`: what is gathered from each tree of a forest is gathered from the forest.
* `Forest.gathers_filterMap`, `Forest.gathers_within`: records of children, and of items in
  containers.
* `mirrors_outline`: a tree of records has the shape of the elements that it is made of.
* `Cluster.accountsFor`, `Segment.accountsFor`: the lists and counts of a cluster and a segment.
* `Catalogue.ofForest_accounts`: the law for all segments of a forest.
-/

namespace EbmlReport

section Gathering

variable {α : Type} {found found' : List Nat → Element → Prop} {Makes : Element → α → Prop}

/-- The records are made from the elements that are found at places, one from each, and in the
order of the places. -/
def Gathers (found : List Nat → Element → Prop) (Makes : Element → α → Prop) (records : List α) :
    Prop :=
  ∃ places : List (List Nat), places.Pairwise (· < ·) ∧
    (∀ place, place ∈ places ↔ ∃ e, found place e) ∧
    List.Forall₂ (fun place record => ∃ e, found place e ∧ Makes e record) places records

theorem Gathers.congr
    {records : List α}
    (hsame : ∀ place e, found place e ↔ found' place e)
    (h : Gathers found Makes records) :
    Gathers found' Makes records := by
  obtain rfl : found = found' := funext fun place => funext fun e => propext (hsame place e)
  exact h

theorem gathers_nil (h : ∀ place e, ¬ found place e) : Gathers found Makes [] := by
  refine ⟨[], List.Pairwise.nil, ?_, List.Forall₂.nil⟩
  intro place
  simpa using h place

/-- One element makes one record. -/
theorem gathers_single
    {e : Element}
    {place : List Nat}
    {record : α}
    (honly : ∀ other e', found other e' ↔ other = place ∧ e' = e)
    (hmakes : Makes e record) :
    Gathers found Makes [record] := by
  refine ⟨[place], List.pairwise_singleton .., ?_, ?_⟩
  · intro other
    simp [honly]
  · exact List.Forall₂.cons ⟨e, (honly place e).mpr ⟨rfl, rfl⟩, hmakes⟩ List.Forall₂.nil

namespace Forest

/-- An element at a place in a forest, which is told by what is inside each tree of it. -/
def Below (inside : Element → List Nat → Element → Prop) (forest : Forest) (place : List Nat)
    (e : Element) : Prop :=
  ∃ i below child, place = i :: below ∧ forest.toList[i]? = some child ∧ inside child below e

variable {inside : Element → List Nat → Element → Prop} {first : Element} {forest : Forest}
  {below place : List Nat} {e : Element} {i : Nat}

theorem exists_cons_of_below (h : forest.Below inside place e) : ∃ i below, place = i :: below := by
  obtain ⟨i, below, _, rfl, _⟩ := h
  exact ⟨i, below, rfl⟩

theorem below_cons_zero :
    (cons first forest).Below inside (0 :: below) e ↔ inside first below e := by
  simp [Below]

theorem below_cons_succ :
    (cons first forest).Below inside ((i + 1) :: below) e ↔
      forest.Below inside (i :: below) e := by
  simp [Below]

/-- What is gathered from each tree of a forest by itself is gathered from all of it. -/
theorem gathers_below
    {records : Element → List α}
    (h : ∀ child, Gathers (inside child) Makes (records child))
    (forest : Forest) :
    Gathers (forest.Below inside) Makes (forest.toList.flatMap records) := by
  induction forest using cons_induction with
  | nil =>
      refine gathers_nil ?_
      rintro place e ⟨i, below, child, _, hchild, _⟩
      simp [toList] at hchild
  | cons first rest _ ih =>
      obtain ⟨front, hfront, hfrontAll, hfrontMade⟩ := h first
      obtain ⟨back, hback, hbackAll, hbackMade⟩ := ih
      have hplace : ∀ place ∈ back, ∃ i below, place = i :: below := by
        intro place hmem
        obtain ⟨e, hfound⟩ := (hbackAll place).mp hmem
        exact exists_cons_of_below hfound
      refine ⟨front.map (List.cons 0) ++ back.map (List.modifyHead (· + 1)),
        Outline.pairwise_below_append_behind hfront hback hplace, ?_, ?_⟩
      · intro place
        rw [List.mem_append, List.mem_map, List.mem_map]
        constructor
        · rintro (⟨below, hbelow, rfl⟩ | ⟨behind, hbehind, rfl⟩)
          · obtain ⟨e, hfound⟩ := (hfrontAll below).mp hbelow
            exact ⟨e, below_cons_zero.mpr hfound⟩
          · obtain ⟨e, hfound⟩ := (hbackAll behind).mp hbehind
            obtain ⟨i, below, rfl⟩ := hplace behind hbehind
            exact ⟨e, below_cons_succ.mpr hfound⟩
        · rintro ⟨e, hfound⟩
          obtain ⟨i, below, rfl⟩ := exists_cons_of_below hfound
          cases i with
          | zero => exact Or.inl ⟨below, (hfrontAll below).mpr ⟨e, below_cons_zero.mp hfound⟩, rfl⟩
          | succ i =>
              exact Or.inr ⟨i :: below, (hbackAll _).mpr ⟨e, below_cons_succ.mp hfound⟩, rfl⟩
      · rw [toList_cons, List.flatMap_cons]
        refine List.rel_append ?_ ?_
        · rw [List.forall₂_map_left_iff]
          refine hfrontMade.imp ?_
          rintro below record ⟨e, hfound, hmakes⟩
          exact ⟨e, below_cons_zero.mpr hfound, hmakes⟩
        · rw [List.forall₂_map_left_iff]
          refine hbackMade.imp ?_
          rintro place record ⟨e, hfound, hmakes⟩
          obtain ⟨i, below, rfl⟩ := exists_cons_of_below hfound
          exact ⟨e, below_cons_succ.mpr hfound, hmakes⟩

/-- An element of a forest, at its index. -/
def Among (chosen : Element → Prop) (forest : Forest) : (place : List Nat) → Element → Prop :=
  forest.Below fun child below e => below = [] ∧ e = child ∧ chosen child

/-- A child with the ID `item` of an element with the ID `container`, at the indices of both. -/
def Within (container item : Nat) (forest : Forest) : (place : List Nat) → Element → Prop :=
  forest.Below fun holder below e =>
    holder.id = container ∧ holder.children.Among (fun child => child.id = item) below e

/-- One record of each element that makes one. -/
theorem gathers_filterMap
    {chosen : Element → Prop}
    {make : Element → Option α}
    (hchosen : ∀ e, chosen e ↔ (make e).isSome)
    (hmakes : ∀ e record, make e = some record → Makes e record)
    (forest : Forest) :
    Gathers (forest.Among chosen) Makes (forest.toList.filterMap make) := by
  rw [List.filterMap_eq_flatMap_toList]
  refine gathers_below ?_ forest
  intro child
  cases hmade : make child with
  | none =>
      refine gathers_nil ?_
      rintro place e ⟨_, _, hchild⟩
      simp [hchosen, hmade] at hchild
  | some record =>
      have honly : ∀ (place : List Nat) (e : Element),
          (place = [] ∧ e = child ∧ chosen child) ↔ place = [] ∧ e = child := by
        intro place e
        simp [hchosen, hmade]
      exact gathers_single honly (hmakes child record hmade)

/-- One record of each element with an ID that makes one. -/
theorem gathers_filterMap_withId
    {chosen : Element → Prop}
    {make : Element → Option α}
    (id : Nat)
    (hchosen : ∀ e, chosen e ↔ e.id = id ∧ (make e).isSome)
    (hmakes : ∀ e record, make e = some record → Makes e record)
    (forest : Forest) :
    Gathers (forest.Among chosen) Makes ((forest.withId id).filterMap make) := by
  rw [withId, List.filterMap_filter]
  refine gathers_filterMap ?_ ?_ forest
  · intro e
    by_cases hid : e.id = id <;> simp [hchosen, hid]
  · intro e record hmade
    exact hmakes e record (Option.ite_none_right_eq_some.mp hmade).2

/-- One record of each element with an ID. -/
theorem gathers_map_withId
    {record : Element → α}
    (id : Nat)
    (hmakes : ∀ e, Makes e (record e))
    (forest : Forest) :
    Gathers (forest.Among fun e => e.id = id) Makes ((forest.withId id).map record) := by
  rw [← List.filterMap_eq_map]
  refine gathers_filterMap_withId id ?_ ?_ forest
  · intro e
    simp
  · intro e made hmade
    obtain rfl := Option.some.inj hmade
    exact hmakes e

/-- One record of each item in each container. -/
theorem gathers_within
    {record : Element → α}
    (container item : Nat)
    (hmakes : ∀ e, Makes e (record e))
    (forest : Forest) :
    Gathers (forest.Within container item) Makes
      ((forest.withId container).flatMap fun holder =>
        (holder.children.withId item).map record) := by
  have hall : ((forest.withId container).flatMap fun holder =>
        (holder.children.withId item).map record) =
      forest.toList.flatMap fun holder =>
        if holder.id = container then (holder.children.withId item).map record else [] := by
    rw [withId]
    induction forest.toList with
    | nil => rfl
    | cons holder rest ih => by_cases hid : holder.id = container <;> simp [hid, ih]
  rw [hall]
  refine gathers_below ?_ forest
  intro holder
  by_cases hid : holder.id = container
  · rw [if_pos hid]
    refine (gathers_map_withId item hmakes holder.children).congr ?_
    intro place e
    exact (and_iff_right hid).symm
  · rw [if_neg hid]
    exact gathers_nil fun place e hfound => hid hfound.1

/-- The element at a place, when only elements with the ID are counted. -/
def among? (id : Nat) (forest : Forest) : (place : List Nat) → Option Element
  | [] => none
  | [i] => (forest.withId id)[i]?
  | i :: j :: place => ((forest.withId id)[i]?).bind fun e => e.children.among? id (j :: place)

end Forest

end Gathering

namespace Matroska

section Trees

variable {α : Type} {id : Nat} {record : Forest → α} {outline : Forest → Outline α}

/-- The outline has a record at each place of an element with the ID, inside elements with that ID
and counted among them, and no others. -/
def Mirrors (id : Nat) (record : Forest → α) (forest : Forest) (outline : Outline α) : Prop :=
  ∀ place, (outline.at? place).map Prod.fst =
    (forest.among? id place).map fun e => record e.children

theorem toList_itemsOf (elements : List Element) :
    (itemsOf record outline elements).toList =
      elements.map fun e => (record e.children, outline e.children) := by
  induction elements with
  | nil => rfl
  | cons e rest ih => rw [itemsOf, Outline.toList, ih, List.map_cons]

/-- A tree of records has the shape of the elements that it is made of. -/
theorem at?_outline
    (hnil : outline .nil = .nil)
    (hcons : ∀ first rest, outline (.cons first rest) =
      if first.id = id then
        .node (record first.children) (outline first.children) (outline rest)
      else outline rest)
    (forest : Forest)
    (place : List Nat) :
    (outline forest).at? place =
      (forest.among? id place).map fun e => (record e.children, outline e.children) := by
  have hitems : ∀ forest, (outline forest).toList =
      (forest.withId id).map fun e => (record e.children, outline e.children) := by
    intro forest
    rw [outline_eq_itemsOf hnil hcons, toList_itemsOf]
  induction place generalizing forest with
  | nil => rfl
  | cons i place ih =>
      cases place with
      | nil => rw [Outline.at?, Forest.among?, hitems, List.getElem?_map]
      | cons j place =>
          rw [Outline.at?, Forest.among?, hitems, List.getElem?_map]
          cases (forest.withId id)[i]? with
          | none => rfl
          | some e => exact ih e.children

theorem mirrors_outline
    (hnil : outline .nil = .nil)
    (hcons : ∀ first rest, outline (.cons first rest) =
      if first.id = id then
        .node (record first.children) (outline first.children) (outline rest)
      else outline rest)
    (forest : Forest) :
    Mirrors id record forest (outline forest) := by
  intro place
  rw [at?_outline hnil hcons, Option.map_map]
  rfl

end Trees

/-- The edition has the chapters of the element, at every depth. -/
structure Edition.AccountsFor (e : Element) (edition : Edition) : Prop where
  record : edition = .ofChildren e.children
  chapters : Mirrors Code.chapterAtom Chapter.ofChildren e.children edition.chapters

/-- The tag has the texts of the element, at every depth. -/
structure Tag.AccountsFor (e : Element) (tag : Tag) : Prop where
  record : tag = .ofChildren e.children
  simpleTags : Mirrors Code.simpleTag SimpleTag.ofChildren e.children tag.simpleTags

/-- There is a block in the group. -/
def HasBlock (group : Element) : Prop := ∃ e ∈ group.children.toList, e.id = Code.block

/-- The record is that of a simple block, or of a group with a block. -/
def Block.MadeFrom (e : Element) (b : Block) : Prop :=
  (e.id = Code.simpleBlock ∧ b = .ofSimple e) ∨ (e.id = Code.blockGroup ∧ Block.ofGroup? e = some b)

/-- The cluster has a block for each simple block and each group with a block, and an offset for
each group without one. -/
structure Cluster.AccountsFor (e : Element) (c : Cluster) : Prop where
  offset : c.offset = e.frame.heading.start
  blocks : Gathers
    (e.children.Among fun child =>
      child.id = Code.simpleBlock ∨ (child.id = Code.blockGroup ∧ HasBlock child))
    Block.MadeFrom c.blocks
  emptyGroups : Gathers
    (e.children.Among fun child => child.id = Code.blockGroup ∧ ¬ HasBlock child)
    (fun child offset => offset = child.frame.heading.start) c.emptyGroups
  total : c.blocks.length + c.emptyGroups.length =
    e.children.toList.countP fun child =>
      child.id = Code.simpleBlock ∨ child.id = Code.blockGroup

/-- The segment has a record for each item in each container of its kind, and for each cluster
that was read; the others are counted. -/
structure Segment.AccountsFor (e : Element) (s : Segment) : Prop where
  offset : s.offset = e.frame.heading.start
  clusters : Gathers
    (e.children.Among fun child =>
      child.id = Code.cluster ∧ child ≠ .leaf child.frame .skipped ∧ child.isCorrupt = false)
    Cluster.AccountsFor s.clusters
  skippedClusters : s.skippedClusters =
    e.children.toList.countP fun child =>
      child.id = Code.cluster ∧ child = .leaf child.frame .skipped
  corruptClusters : s.corruptClusters =
    e.children.toList.countP fun child => child.id = Code.cluster ∧ child.isCorrupt
  total : s.clusters.length + s.skippedClusters + s.corruptClusters =
    e.children.toList.countP fun child => child.id = Code.cluster
  seekEntries : Gathers (e.children.Within Code.seekHead Code.seek)
    (fun child entry => entry = .ofChildren child.children) s.seekEntries
  tracks : Gathers (e.children.Within Code.tracks Code.trackEntry)
    (fun child track => track = .ofChildren child.children) s.tracks
  cuePoints : Gathers (e.children.Within Code.cues Code.cuePoint)
    (fun child point => point = .ofChildren child.children) s.cuePoints
  attachments : Gathers (e.children.Within Code.attachments Code.attachedFile)
    (fun child file => file = .ofChildren child.children) s.attachments
  editions : Gathers (e.children.Within Code.chapters Code.editionEntry)
    Edition.AccountsFor s.editions
  tags : Gathers (e.children.Within Code.tags Code.tag) Tag.AccountsFor s.tags

theorem Edition.accountsFor (e : Element) : AccountsFor e (ofChildren e.children) where
  record := rfl
  chapters := mirrors_outline rfl (fun first rest => by cases first <;> rfl) e.children

theorem Tag.accountsFor (e : Element) : AccountsFor e (ofChildren e.children) where
  record := rfl
  simpleTags := mirrors_outline rfl (fun first rest => by cases first <;> rfl) e.children

theorem Block.ofGroup?_isSome (group : Element) :
    (Block.ofGroup? group).isSome ↔ HasBlock group := by
  simp [Block.ofGroup?, HasBlock, Forest.first?, List.find?_isSome]

/-- What an element contributes as a block. -/
theorem BlockEntry.block?_ofElement? (e : Element) (b : Block) :
    (ofElement? e).bind block? = some b ↔ Block.MadeFrom e b := by
  have hother : Code.blockGroup ≠ Code.simpleBlock := by decide
  unfold ofElement? Block.MadeFrom
  by_cases hsimple : e.id = Code.simpleBlock
  · simp [hsimple, block?, hother.symm, eq_comm]
  · by_cases hgroup : e.id = Code.blockGroup
    · cases hfound : Block.ofGroup? e <;> simp [hgroup, hother, block?]
    · simp [hsimple, hgroup]

/-- What an element contributes as an empty group. -/
theorem BlockEntry.emptyGroup?_ofElement? (e : Element) (offset : Nat) :
    (ofElement? e).bind emptyGroup? = some offset ↔
      (e.id = Code.blockGroup ∧ ¬ HasBlock e) ∧ offset = e.frame.heading.start := by
  have hother : Code.simpleBlock ≠ Code.blockGroup := by decide
  unfold ofElement?
  rw [← Block.ofGroup?_isSome]
  by_cases hsimple : e.id = Code.simpleBlock
  · simp [hsimple, emptyGroup?, hother]
  · by_cases hgroup : e.id = Code.blockGroup
    · cases hfound : Block.ofGroup? e <;> simp [hgroup, hother.symm, emptyGroup?, eq_comm]
    · simp [hsimple, hgroup]

theorem BlockEntry.ofElement?_isSome (e : Element) :
    (ofElement? e).isSome ↔ e.id = Code.simpleBlock ∨ e.id = Code.blockGroup := by
  have hother : Code.blockGroup ≠ Code.simpleBlock := by decide
  unfold ofElement?
  by_cases hsimple : e.id = Code.simpleBlock
  · simp [hsimple]
  · by_cases hgroup : e.id = Code.blockGroup
    · cases hfound : Block.ofGroup? e <;> simp [hgroup, hother]
    · simp [hsimple, hgroup]

theorem Block.exists_madeFrom (e : Element) :
    (∃ b, Block.MadeFrom e b) ↔
      e.id = Code.simpleBlock ∨ (e.id = Code.blockGroup ∧ HasBlock e) := by
  simp [Block.MadeFrom, exists_or, ← Block.ofGroup?_isSome, Option.isSome_iff_exists]

theorem Cluster.accountsFor (e : Element) : AccountsFor e (ofElement e) where
  offset := rfl
  blocks := by
    have hblocks : (ofElement e).blocks =
        e.children.toList.filterMap fun child =>
          (BlockEntry.ofElement? child).bind BlockEntry.block? :=
      List.filterMap_filterMap
    rw [hblocks]
    refine Forest.gathers_filterMap ?_ ?_ e.children
    · intro child
      rw [← Block.exists_madeFrom, Option.isSome_iff_exists]
      exact exists_congr fun b => (BlockEntry.block?_ofElement? child b).symm
    · intro child b hmade
      exact (BlockEntry.block?_ofElement? child b).mp hmade
  emptyGroups := by
    have hgroups : (ofElement e).emptyGroups =
        e.children.toList.filterMap fun child =>
          (BlockEntry.ofElement? child).bind BlockEntry.emptyGroup? :=
      List.filterMap_filterMap
    rw [hgroups]
    refine Forest.gathers_filterMap ?_ ?_ e.children
    · intro child
      simp [Option.isSome_iff_exists, BlockEntry.emptyGroup?_ofElement?]
    · intro child offset hmade
      exact ((BlockEntry.emptyGroup?_ofElement? child offset).mp hmade).2
  total := by
    have hcount : (entries e.children).length = e.children.toList.countP fun child =>
        child.id = Code.simpleBlock ∨ child.id = Code.blockGroup := by
      rw [entries, List.length_filterMap_eq_countP]
      refine List.countP_congr ?_
      intro child _
      simpa using BlockEntry.ofElement?_isSome child
    exact (length_entries (entries e.children)).trans hcount

/-- A cluster that was read is neither passed over nor corrupt. -/
theorem ClusterState.cluster?_ofElement (e : Element) (c : Cluster) :
    (ofElement e).cluster? = some c ↔
      (e ≠ .leaf e.frame .skipped ∧ e.isCorrupt = false) ∧ c = Cluster.ofElement e := by
  cases e with
  | master frame children => simp [ofElement, cluster?, Element.isCorrupt, eq_comm]
  | leaf frame content =>
      cases content <;> simp [ofElement, cluster?, Element.isCorrupt, eq_comm]

theorem ClusterState.isSkipped_ofElement (e : Element) :
    (ofElement e).isSkipped ↔ e = .leaf e.frame .skipped := by
  cases e with
  | master frame children => simp [ofElement, isSkipped]
  | leaf frame content => cases content <;> simp [ofElement, isSkipped]

theorem ClusterState.isCorrupt_ofElement (e : Element) :
    (ofElement e).isCorrupt = e.isCorrupt := by
  cases e with
  | master frame children => rfl
  | leaf frame content => cases content <;> rfl

/-- A cluster is in one state. -/
theorem ClusterState.length_eq (states : List ClusterState) :
    (states.filterMap cluster?).length + states.countP isSkipped + states.countP isCorrupt =
      states.length := by
  induction states with
  | nil => rfl
  | cons state rest ih =>
      cases state <;>
        simp only [List.filterMap_cons, List.countP_cons, cluster?, isSkipped, isCorrupt,
          List.length_cons, if_true, Bool.false_eq_true, if_false] <;>
        omega

/-- The lists that a segment joins have a record for each item. -/
theorem Segment.gathers_collect
    {α : Type}
    (record : Forest → α)
    (container item : Nat)
    (forest : Forest) :
    Gathers (forest.Within container item) (fun e made => made = record e.children)
      (Segment.collect forest container item record) := by
  refine Forest.gathers_within container item ?_ forest
  intro e
  rfl

/-- The states of clusters are counted at the elements. -/
theorem Segment.countP_clusterStates (p : ClusterState → Bool) (forest : Forest) :
    (clusterStates forest).countP p =
      forest.toList.countP fun child => child.id = Code.cluster ∧ p (.ofElement child) := by
  rw [clusterStates, List.countP_map, Forest.withId, List.countP_filter]
  refine List.countP_congr ?_
  intro child _
  simp [and_comm]

theorem Segment.accountsFor (e : Element) : AccountsFor e (ofElement e) where
  offset := rfl
  clusters := by
    have hclusters : (ofElement e).clusters =
        (e.children.withId Code.cluster).filterMap fun child =>
          (ClusterState.ofElement child).cluster? :=
      List.filterMap_map
    rw [hclusters]
    refine Forest.gathers_filterMap_withId Code.cluster ?_ ?_ e.children
    · intro child
      simp [Option.isSome_iff_exists, ClusterState.cluster?_ofElement]
    · intro child c hread
      obtain ⟨_, rfl⟩ := (ClusterState.cluster?_ofElement child c).mp hread
      exact Cluster.accountsFor child
  skippedClusters := by
    refine (countP_clusterStates _ e.children).trans (List.countP_congr ?_)
    intro child _
    simp [ClusterState.isSkipped_ofElement]
  corruptClusters := by
    refine (countP_clusterStates _ e.children).trans (List.countP_congr ?_)
    intro child _
    simp [ClusterState.isCorrupt_ofElement]
  total := by
    have hcount : (clusterStates e.children).length =
        e.children.toList.countP fun child => child.id = Code.cluster := by
      rw [clusterStates, List.length_map, Forest.withId, ← List.countP_eq_length_filter]
      rfl
    exact (ClusterState.length_eq (clusterStates e.children)).trans hcount
  seekEntries := gathers_collect _ _ _ e.children
  tracks := gathers_collect _ _ _ e.children
  cuePoints := gathers_collect _ _ _ e.children
  attachments := gathers_collect _ _ _ e.children
  editions := Forest.gathers_within _ _ Edition.accountsFor e.children
  tags := Forest.gathers_within _ _ Tag.accountsFor e.children

end Matroska

end EbmlReport
