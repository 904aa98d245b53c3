import EbmlReport.Matroska.Catalogue
import EbmlReport.Proofs.Extraction
import EbmlReport.Proofs.Preview
import EbmlReport.Proofs.Records
import Mathlib.Data.List.Forall2

/-!
# What records keep when corrupt elements are added

A corrupt element has neither a value nor children, so among the elements of a list it adds a
blank record at most.  A field that a record has once is read of one element, the first or the
last with its ID.  It is kept as long as that element still counts.

Here `R` relates an element to what has become of it.  Related elements have the same frame and
the same value, and the children of one are the children of the other with corrupt ones
between them.  Whether the elements that count are still the same is a condition on each
container by itself (`Gains`).

**Results.**
* `Padded.flatMap`, `Padded.flatMap_eq`: lists of records, and lists of values.
* `Enrichment.lastAs`, `Enrichment.firstAs`: a field is the same.
* `Enrichment.tree`: a tree of records keeps its records.
* `Enrichment.header` to `Enrichment.segment`: what each record keeps.
-/

namespace EbmlReport

/-- What there was is still there, up to `S`. -/
def Option.Keeps {α β : Type} (S : α → β → Prop) (before : Option α) (after : Option β) : Prop :=
  ∀ a, before = some a → ∃ b, after = some b ∧ S a b

/-- The items of an outline are still there, up to `S`, each at its depth and in their order. -/
inductive Outline.Keeps {α : Type} (S : α → α → Prop) : Outline α → Outline α → Prop
  | nil : Keeps S .nil .nil
  | node
      {item item' : α} {children children' rest rest' : Outline α}
      (hitem : S item item')
      (hchildren : Keeps S children children')
      (hrest : Keeps S rest rest') :
      Keeps S (.node item children rest) (.node item' children' rest')
  /-- An item more. -/
  | extra
      {item' : α} {children' before rest' : Outline α}
      (hrest : Keeps S before rest') :
      Keeps S before (.node item' children' rest')

namespace Matroska

/-- Which of several elements with one ID a record reads. -/
inductive Counted
  | first
  | last
deriving DecidableEq, Repr

/-- The element with the ID that counts. -/
def Counted.of (counted : Counted) (forest : Forest) (id : Nat) : Option Element :=
  match counted with
  | first => forest.first? id
  | last => forest.last? id

/-- What records have once: the container that a record is made of, which of several elements
counts there, and the IDs. -/
def singles : List (Nat × Counted × List Nat) :=
  [(Code.ebml, .last, [Code.ebmlVersion, Code.ebmlReadVersion, Code.ebmlMaxIdLength,
      Code.ebmlMaxSizeLength, Code.docType, Code.docTypeVersion, Code.docTypeReadVersion]),
    (Code.segment, .first, [Code.info]),
    (Code.info, .last, [Code.segmentUid, Code.segmentFilename, Code.title, Code.muxingApp,
      Code.writingApp, Code.timestampScale, Code.duration, Code.dateUtc]),
    (Code.seek, .last, [Code.seekId, Code.seekPosition]),
    (Code.trackEntry, .last, [Code.trackNumber, Code.trackUid, Code.trackType, Code.flagEnabled,
      Code.flagDefault, Code.flagForced, Code.flagLacing, Code.name, Code.language,
      Code.languageBcp47, Code.codecId, Code.codecName, Code.codecPrivate, Code.defaultDuration,
      Code.codecDelay, Code.seekPreRoll, Code.video, Code.audio, Code.trackOperation]),
    (Code.video, .last, [Code.pixelWidth, Code.pixelHeight, Code.displayWidth,
      Code.displayHeight, Code.flagInterlaced]),
    (Code.audio, .last, [Code.samplingFrequency, Code.outputSamplingFrequency, Code.channels,
      Code.bitDepth]),
    (Code.trackPlane, .first, [Code.trackPlaneUid, Code.trackPlaneType]),
    (Code.cluster, .last, [Code.timestamp, Code.position, Code.prevSize]),
    (Code.blockGroup, .first, [Code.block, Code.blockDuration]),
    (Code.cuePoint, .first, [Code.cueTime]),
    (Code.cueTrackPositions, .last, [Code.cueTrack, Code.cueClusterPosition,
      Code.cueRelativePosition, Code.cueDuration, Code.cueBlockNumber]),
    (Code.attachedFile, .last, [Code.fileName, Code.fileMediaType, Code.fileDescription,
      Code.fileData, Code.fileUid]),
    (Code.editionEntry, .first, [Code.editionUid]),
    (Code.chapterAtom, .first, [Code.chapterUid, Code.chapterTimeStart, Code.chapterTimeEnd]),
    (Code.chapterDisplay, .first, [Code.chapString, Code.chapLanguage]),
    (Code.tag, .first, [Code.targets]),
    (Code.targets, .last, [Code.targetTypeValue, Code.targetType]),
    (Code.simpleTag, .last, [Code.tagName, Code.tagLanguage, Code.tagDefault, Code.tagString,
      Code.tagBinary])]

/-- A record made of the container reads one element with the ID. -/
def IsSingle (container : Nat) (counted : Counted) (id : Nat) : Bool :=
  singles.any fun (holder, which, ids) => holder == container && which == counted && ids.contains id

/-- An element that could not be read at all. -/
def blank : Element := .placeholder 0 0 .cutShort

/-- What is read of an element is read of its value, and nothing where there is none. -/
structure ValueReading {α : Type} (read : Element → Option α) : Prop where
  ofValue : OfValue read
  blank : read blank = none

section Reading

variable {e : Element}

theorem value?_of_isCorrupt (h : e.isCorrupt = true) : e.value? = none := by
  cases e with
  | leaf frame content => cases content <;> simp_all [Element.isCorrupt, Element.value?]
  | master frame children => simp [Element.isCorrupt] at h

theorem children_of_isCorrupt (h : e.isCorrupt = true) : e.children = .nil := by
  cases e with
  | leaf frame content => rfl
  | master frame children => simp [Element.isCorrupt] at h

/-- Of a corrupt element nothing is read. -/
theorem ValueReading.of_isCorrupt
    {α : Type}
    {read : Element → Option α}
    (hread : ValueReading read)
    (h : e.isCorrupt = true) :
    read e = none :=
  (hread.ofValue (value?_of_isCorrupt h)).trans hread.blank

theorem valueReading_unsigned? : ValueReading Element.unsigned? := ⟨ofValue_unsigned?, rfl⟩

theorem valueReading_float? : ValueReading Element.float? := ⟨ofValue_float?, rfl⟩

theorem valueReading_text? : ValueReading Element.text? := ⟨ofValue_text?, rfl⟩

theorem valueReading_date? : ValueReading Element.date? := ⟨ofValue_date?, rfl⟩

theorem valueReading_preview : ValueReading fun e => e.binary?.map Prod.snd :=
  ⟨ofValue_preview, rfl⟩

theorem valueReading_binaryLength? : ValueReading Element.binaryLength? :=
  ⟨ofValue_binaryLength?, rfl⟩

theorem valueReading_idOf? : ValueReading SeekEntry.idOf? := ⟨ofValue_idOf?, rfl⟩

end Reading

/-- One list is the other with corrupt elements put in, up to `R`. -/
inductive Padded (R : Element → Element → Prop) : List Element → List Element → Prop
  | nil : Padded R [] []
  | cons
      {e e' : Element} {rest rest' : List Element}
      (hfirst : R e e')
      (hrest : Padded R rest rest') :
      Padded R (e :: rest) (e' :: rest')
  | extra
      {d : Element} {elements rest' : List Element}
      (hcorrupt : d.isCorrupt = true)
      (hrest : Padded R elements rest') :
      Padded R elements (d :: rest')

/-- The element that counts is still there, up to `R`.  Where there was none, only a corrupt one
may have come. -/
structure Survives (R : Element → Element → Prop) (before after : Option Element) : Prop where
  keeps : Option.Keeps R before after
  corrupt : before = none → ∀ e', after = some e' → e'.isCorrupt = true

/-- The children of a container, with corrupt elements put in, none of which counts in place of
one that counted before. -/
structure Gains (R : Element → Element → Prop) (container : Nat) (forest forest' : Forest) :
    Prop where
  padded : Padded R forest.toList forest'.toList
  counts : ∀ counted id, IsSingle container counted id = true →
    Survives R (counted.of forest id) (counted.of forest' id)

/-- Related elements are the same, or they are containers with the same frame and the second one
has gained corrupt elements. -/
structure Enrichment (R : Element → Element → Prop) : Prop where
  shape : ∀ {e e' : Element}, R e e' →
    e' = e ∨ ∃ frame children children', e = .master frame children ∧ e' = .master frame children'
  gains : ∀ {e e' : Element}, R e e' → Gains R e.id e.children e'.children

section Lists

variable {α : Type} {R : Element → Element → Prop} {elements elements' : List Element}

theorem Padded.filter
    {p : Element → Bool}
    (h : Padded R elements elements')
    (hp : ∀ e e', R e e' → p e' = p e) :
    Padded R (elements.filter p) (elements'.filter p) := by
  induction h with
  | nil => exact .nil
  | @cons e e' rest rest' hfirst hrest ih =>
      rw [List.filter_cons, List.filter_cons, hp e e' hfirst]
      split
      · exact .cons hfirst ih
      · exact ih
  | @extra d elements rest' hcorrupt hrest ih =>
      rw [List.filter_cons]
      split
      · exact .extra hcorrupt ih
      · exact ih

/-- What is listed of the elements is still there. -/
theorem Padded.flatMap
    {S : α → α → Prop}
    {f : Element → List α}
    (h : Padded R elements elements')
    (hf : ∀ e e', e ∈ elements → R e e' → List.SublistForall₂ S (f e) (f e')) :
    List.SublistForall₂ S (elements.flatMap f) (elements'.flatMap f) := by
  induction h with
  | nil => exact .nil
  | @cons e e' rest rest' hfirst hrest ih =>
      simp only [List.flatMap_cons]
      obtain ⟨front, hfront, hsub⟩ := List.sublistForall₂_iff.mp (hf e e' List.mem_cons_self hfirst)
      obtain ⟨back, hback, hsub'⟩ := List.sublistForall₂_iff.mp
        (ih fun e e' hmem => hf e e' (List.mem_cons_of_mem _ hmem))
      exact List.sublistForall₂_iff.mpr ⟨front ++ back, List.rel_append hfront hback,
        hsub.append hsub'⟩
  | @extra d elements rest' hcorrupt hrest ih =>
      simp only [List.flatMap_cons]
      obtain ⟨back, hback, hsub⟩ := List.sublistForall₂_iff.mp (ih hf)
      exact List.sublistForall₂_iff.mpr ⟨back, hback, hsub.trans (List.sublist_append_right _ _)⟩

/-- A list that corrupt elements add nothing to is the same. -/
theorem Padded.flatMap_eq
    {f : Element → List α}
    (h : Padded R elements elements')
    (hf : ∀ e e', e ∈ elements → R e e' → f e' = f e)
    (hcorrupt : ∀ d, d.isCorrupt = true → f d = []) :
    elements'.flatMap f = elements.flatMap f := by
  induction h with
  | nil => rfl
  | @cons e e' rest rest' hfirst hrest ih =>
      rw [List.flatMap_cons, List.flatMap_cons, hf e e' List.mem_cons_self hfirst,
        ih fun e e' hmem => hf e e' (List.mem_cons_of_mem _ hmem)]
  | @extra d elements rest' hd hrest ih =>
      rw [List.flatMap_cons, hcorrupt d hd, List.nil_append, ih hf]

theorem Padded.filterMap
    {S : α → α → Prop}
    {f : Element → Option α}
    (h : Padded R elements elements')
    (hf : ∀ e e', e ∈ elements → R e e' → Option.Keeps S (f e) (f e')) :
    List.SublistForall₂ S (elements.filterMap f) (elements'.filterMap f) := by
  rw [List.filterMap_eq_flatMap_toList, List.filterMap_eq_flatMap_toList]
  refine h.flatMap fun e e' hmem hrelated => ?_
  cases hbefore : f e with
  | none => exact .nil
  | some a =>
      obtain ⟨a', hafter, hkeeps⟩ := hf e e' hmem hrelated a hbefore
      rw [hafter]
      exact .cons hkeeps .nil

theorem Padded.map
    {S : α → α → Prop}
    {f : Element → α}
    (h : Padded R elements elements')
    (hf : ∀ e e', e ∈ elements → R e e' → S (f e) (f e')) :
    List.SublistForall₂ S (elements.map f) (elements'.map f) := by
  rw [← List.filterMap_eq_map]
  refine h.filterMap fun e e' hmem hrelated a hbefore => ?_
  obtain rfl := Option.some.inj hbefore
  exact ⟨f e', rfl, hf e e' hmem hrelated⟩

theorem Padded.length_le (h : Padded R elements elements') :
    elements.length ≤ elements'.length := by
  induction h with
  | nil => exact Nat.le_refl _
  | cons hfirst hrest ih => exact Nat.succ_le_succ ih
  | extra hcorrupt hrest ih => exact Nat.le_succ_of_le ih

end Lists

namespace Enrichment

variable {α : Type} {R : Element → Element → Prop} {container id : Nat}
  {forest forest' : Forest} {e e' : Element}

section Elements

theorem frame_eq (hR : Enrichment R) (h : R e e') : e'.frame = e.frame := by
  rcases hR.shape h with rfl | ⟨frame, children, children', rfl, rfl⟩ <;> rfl

theorem id_eq (hR : Enrichment R) (h : R e e') : e'.id = e.id := by
  rw [Element.id, hR.frame_eq h, Element.id]

theorem value_eq (hR : Enrichment R) (h : R e e') : e'.value? = e.value? := by
  rcases hR.shape h with rfl | ⟨frame, children, children', rfl, rfl⟩ <;> rfl

/-- The elements with an ID have at most gained corrupt ones. -/
theorem withId
    (hR : Enrichment R)
    (h : Padded R forest.toList forest'.toList)
    (id : Nat) :
    Padded R (forest.withId id) (forest'.withId id) :=
  h.filter fun e e' hrelated => by rw [hR.id_eq hrelated]

end Elements

section Fields

variable {read : Element → Option α} {record : Forest → α} {S : α → α → Prop}

/-- What is read of the element that counts is the same. -/
theorem bind_eq
    {before after : Option Element}
    (hR : Enrichment R)
    (h : Survives R before after)
    (hread : ValueReading read) :
    after.bind read = before.bind read := by
  cases hbefore : before with
  | some e =>
      obtain ⟨e', rfl, hrelated⟩ := h.keeps e hbefore
      exact hread.ofValue (hR.value_eq hrelated)
  | none =>
      cases hafter : after with
      | none => rfl
      | some e' => exact hread.of_isCorrupt (h.corrupt hbefore e' hafter)

theorem lastAs
    (hR : Enrichment R)
    (h : Gains R container forest forest')
    (hread : ValueReading read)
    (id : Nat)
    (hid : IsSingle container .last id = true) :
    forest'.lastAs read id = forest.lastAs read id :=
  hR.bind_eq (h.counts .last id hid) hread

theorem firstAs
    (hR : Enrichment R)
    (h : Gains R container forest forest')
    (hread : ValueReading read)
    (id : Nat)
    (hid : IsSingle container .first id = true) :
    forest'.firstAs read id = forest.firstAs read id :=
  hR.bind_eq (h.counts .first id hid) hread

/-- A list of values is the same. -/
theorem allAs
    (hR : Enrichment R)
    (h : Padded R forest.toList forest'.toList)
    (hread : ValueReading read)
    (id : Nat) :
    forest'.allAs read id = forest.allAs read id := by
  rw [Forest.allAs, Forest.allAs, List.filterMap_eq_flatMap_toList,
    List.filterMap_eq_flatMap_toList]
  refine (hR.withId h id).flatMap_eq (fun e e' _ hrelated => ?_) fun d hcorrupt => ?_
  · rw [hread.ofValue (hR.value_eq hrelated)]
  · rw [hread.of_isCorrupt hcorrupt]
    rfl

theorem gains_of_id (hR : Enrichment R) (h : R e e') (hid : e.id = id) :
    Gains R id e.children e'.children :=
  hid ▸ hR.gains h

/-- A record that is there once is still there. -/
theorem single
    (hR : Enrichment R)
    (h : Gains R container forest forest')
    (counted : Counted)
    (id : Nat)
    (hrecord : ∀ {forest forest'}, Gains R id forest forest' → S (record forest) (record forest'))
    (hid : IsSingle container counted id = true) :
    Option.Keeps S ((counted.of forest id).map fun e => record e.children)
      ((counted.of forest' id).map fun e => record e.children) := by
  intro a hbefore
  obtain ⟨e, hfound, rfl⟩ := Option.map_eq_some_iff.mp hbefore
  obtain ⟨e', hafter, hrelated⟩ := (h.counts counted id hid).keeps e hfound
  have hcode : e.id = id := by
    cases counted with
    | first => simpa using List.find?_some hfound
    | last => exact (Forest.mem_withId.mp (List.mem_of_getLast? hfound)).2
  exact ⟨_, by rw [hafter]; rfl, hrecord (hR.gains_of_id hrelated hcode)⟩

/-- The records that are listed are still there. -/
theorem records
    (hR : Enrichment R)
    (h : Padded R forest.toList forest'.toList)
    (id : Nat)
    (hrecord : ∀ {forest forest'}, Gains R id forest forest' → S (record forest) (record forest')) :
    List.SublistForall₂ S ((forest.withId id).map fun e => record e.children)
      ((forest'.withId id).map fun e => record e.children) := by
  refine (hR.withId h id).map fun e e' hmem hrelated => ?_
  exact hrecord (hR.gains_of_id hrelated (Forest.mem_withId.mp hmem).2)

/-- So are those that are listed group by group. -/
theorem collect
    (hR : Enrichment R)
    (h : Padded R forest.toList forest'.toList)
    (container item : Nat)
    (hrecord : ∀ {forest forest'}, Gains R item forest forest' →
      S (record forest) (record forest')) :
    List.SublistForall₂ S (Segment.collect forest container item record)
      (Segment.collect forest' container item record) := by
  refine (hR.withId h container).flatMap fun group group' _ hrelated => ?_
  exact hR.records (hR.gains hrelated).padded item hrecord

/-- A tree of records keeps its records. -/
theorem tree
    {outline : Forest → Outline α}
    (hR : Enrichment R)
    (hrecord : ∀ {forest forest'}, Gains R id forest forest' → S (record forest) (record forest'))
    (hnil : outline .nil = .nil)
    (hcons : ∀ first rest, outline (.cons first rest) =
      if first.id = id then
        .node (record first.children) (outline first.children) (outline rest)
      else outline rest)
    (h : Padded R forest.toList forest'.toList) :
    Outline.Keeps S (outline forest) (outline forest') := by
  suffices hkeeps : ∀ forest elements, Padded R (forest.withId id) elements →
      Outline.Keeps S (outline forest) (itemsOf record outline elements) by
    rw [outline_eq_itemsOf hnil hcons forest']
    exact hkeeps forest _ (hR.withId h id)
  intro forest
  induction forest using Forest.cons_induction with
  | nil =>
      intro elements h
      rw [hnil]
      induction elements with
      | nil => exact .nil
      | cons d rest' ih =>
          cases h with
          | extra hcorrupt hrest => exact .extra (ih hrest)
  | cons first rest ihChildren ihRest =>
      intro elements h
      by_cases hcode : first.id = id
      · rw [hcons, if_pos hcode]
        simp only [Forest.withId, Forest.toList_cons, hcode, beq_self_eq_true,
          List.filter_cons_of_pos] at h
        -- Corrupt elements may stand in front of what has become of the first one.
        induction elements with
        | nil => cases h
        | cons e' rest' ih =>
            cases h with
            | extra hcorrupt hrest => exact .extra (ih hrest)
            | cons hfirst hrest =>
                have hgains := hR.gains_of_id hfirst hcode
                refine .node (hrecord hgains) ?_ (ihRest rest' hrest)
                rw [outline_eq_itemsOf hnil hcons e'.children]
                exact ihChildren _ (hR.withId hgains.padded id)
      · rw [hcons, if_neg hcode]
        refine ihRest elements ?_
        have hskipped : (first.id == id) = false := by simpa using hcode
        simpa only [Forest.withId, Forest.toList_cons, hskipped, Bool.false_eq_true,
          not_false_eq_true, List.filter_cons_of_neg] using h

end Fields

end Enrichment

section Kept

/-- All planes of an operation are kept, and the tracks it joins are the same. -/
structure TrackOperation.Keeps (before after : TrackOperation) : Prop where
  planes : List.SublistForall₂ Eq before.planes after.planes
  joinUids : after.joinUids = before.joinUids

/-- The fields of a track are the same.  Its settings are too where it had any. -/
structure Track.Keeps (before after : Track) : Prop where
  fields : after =
    { before with video := after.video, audio := after.audio, operation := after.operation }
  video : Option.Keeps Eq before.video after.video
  audio : Option.Keeps Eq before.audio after.audio
  operation : Option.Keeps TrackOperation.Keeps before.operation after.operation

/-- A block is the same but for the count of its references, which only grows. -/
structure Block.Keeps (before after : Block) : Prop where
  fields : after = { before with references := after.references }
  references : before.references ≤ after.references

/-- The fields of a cluster are the same and its blocks are kept. -/
structure Cluster.Keeps (before after : Cluster) : Prop where
  fields : after = { before with blocks := after.blocks, emptyGroups := after.emptyGroups }
  blocks : List.SublistForall₂ Block.Keeps before.blocks after.blocks

/-- The time of a cue point is the same and its positions are kept. -/
structure CuePoint.Keeps (before after : CuePoint) : Prop where
  time : after.time = before.time
  positions : List.SublistForall₂ Eq before.positions after.positions

/-- The fields of a chapter are the same and its titles are kept. -/
structure Chapter.Keeps (before after : Chapter) : Prop where
  fields : after = { before with displays := after.displays }
  displays : List.SublistForall₂ Eq before.displays after.displays

/-- An edition has the same number and its chapters are kept. -/
structure Edition.Keeps (before after : Edition) : Prop where
  uid : after.uid = before.uid
  chapters : Outline.Keeps Chapter.Keeps before.chapters after.chapters

/-- The targets of a tag are the same where it had any, and its texts are kept. -/
structure Tag.Keeps (before after : Tag) : Prop where
  targets : Option.Keeps Eq before.targets after.targets
  simpleTags : Outline.Keeps Eq before.simpleTags after.simpleTags

/-- The information of a segment is the same where it had any, and its lists are kept. -/
structure Segment.Keeps (before after : Segment) : Prop where
  offset : after.offset = before.offset
  info : Option.Keeps Eq before.info after.info
  seekEntries : List.SublistForall₂ Eq before.seekEntries after.seekEntries
  tracks : List.SublistForall₂ Track.Keeps before.tracks after.tracks
  clusters : List.SublistForall₂ Cluster.Keeps before.clusters after.clusters
  cuePoints : List.SublistForall₂ CuePoint.Keeps before.cuePoints after.cuePoints
  attachments : List.SublistForall₂ Eq before.attachments after.attachments
  editions : List.SublistForall₂ Edition.Keeps before.editions after.editions
  tags : List.SublistForall₂ Tag.Keeps before.tags after.tags

end Kept

namespace Enrichment

variable {R : Element → Element → Prop} {forest forest' : Forest} {e e' : Element}

section Records

theorem header (hR : Enrichment R) (h : Gains R Code.ebml forest forest') :
    Header.ofChildren forest = Header.ofChildren forest' := by
  simp (disch := decide) only [Header.ofChildren, hR.lastAs h valueReading_unsigned?,
    hR.lastAs h valueReading_text?]

theorem info (hR : Enrichment R) (h : Gains R Code.info forest forest') :
    Info.ofChildren forest = Info.ofChildren forest' := by
  simp (disch := decide) only [Info.ofChildren, hR.lastAs h valueReading_preview,
    hR.lastAs h valueReading_text?, hR.lastAs h valueReading_unsigned?,
    hR.lastAs h valueReading_float?, hR.lastAs h valueReading_date?]

theorem seekEntry (hR : Enrichment R) (h : Gains R Code.seek forest forest') :
    SeekEntry.ofChildren forest = SeekEntry.ofChildren forest' := by
  simp (disch := decide) only [SeekEntry.ofChildren, hR.lastAs h valueReading_idOf?,
    hR.lastAs h valueReading_unsigned?]

theorem cuePosition (hR : Enrichment R) (h : Gains R Code.cueTrackPositions forest forest') :
    CuePosition.ofChildren forest = CuePosition.ofChildren forest' := by
  simp (disch := decide) only [CuePosition.ofChildren, hR.lastAs h valueReading_unsigned?]

theorem cuePoint (hR : Enrichment R) (h : Gains R Code.cuePoint forest forest') :
    CuePoint.Keeps (CuePoint.ofChildren forest) (CuePoint.ofChildren forest') where
  time := hR.firstAs h valueReading_unsigned? Code.cueTime (by decide)
  positions := hR.records h.padded Code.cueTrackPositions hR.cuePosition

theorem attachment (hR : Enrichment R) (h : Gains R Code.attachedFile forest forest') :
    Attachment.ofChildren forest = Attachment.ofChildren forest' := by
  simp (disch := decide) only [Attachment.ofChildren, hR.lastAs h valueReading_text?,
    hR.lastAs h valueReading_unsigned?, hR.lastAs h valueReading_binaryLength?]

theorem video (hR : Enrichment R) (h : Gains R Code.video forest forest') :
    Video.ofChildren forest = Video.ofChildren forest' := by
  simp (disch := decide) only [Video.ofChildren, hR.lastAs h valueReading_unsigned?]

theorem audio (hR : Enrichment R) (h : Gains R Code.audio forest forest') :
    Audio.ofChildren forest = Audio.ofChildren forest' := by
  simp (disch := decide) only [Audio.ofChildren, hR.lastAs h valueReading_unsigned?,
    hR.lastAs h valueReading_float?]

theorem trackPlane (hR : Enrichment R) (h : Gains R Code.trackPlane forest forest') :
    TrackPlane.ofChildren forest = TrackPlane.ofChildren forest' := by
  simp (disch := decide) only [TrackPlane.ofChildren, hR.firstAs h valueReading_unsigned?]

theorem trackOperation (hR : Enrichment R) (h : Gains R Code.trackOperation forest forest') :
    TrackOperation.Keeps (TrackOperation.ofChildren forest)
      (TrackOperation.ofChildren forest') where
  planes := hR.collect h.padded Code.trackCombinePlanes Code.trackPlane hR.trackPlane
  joinUids := by
    refine (hR.withId h.padded Code.trackJoinBlocks).flatMap_eq
      (fun e e' _ hrelated => ?_) fun d hcorrupt => ?_
    · exact hR.allAs (hR.gains hrelated).padded valueReading_unsigned? Code.trackJoinUid
    · rw [children_of_isCorrupt hcorrupt]
      rfl

theorem track (hR : Enrichment R) (h : Gains R Code.trackEntry forest forest') :
    Track.Keeps (Track.ofChildren forest) (Track.ofChildren forest') where
  fields := by
    simp (disch := decide) only [Track.ofChildren, hR.lastAs h valueReading_unsigned?,
      hR.lastAs h valueReading_text?, hR.lastAs h valueReading_binaryLength?,
      hR.allAs h.padded valueReading_unsigned?]
  video := hR.single h .last Code.video hR.video (by decide)
  audio := hR.single h .last Code.audio hR.audio (by decide)
  operation := hR.single h .last Code.trackOperation hR.trackOperation (by decide)

theorem chapterDisplay (hR : Enrichment R) (h : Gains R Code.chapterDisplay forest forest') :
    ChapterDisplay.ofChildren forest = ChapterDisplay.ofChildren forest' := by
  simp (disch := decide) only [ChapterDisplay.ofChildren, hR.firstAs h valueReading_text?]

theorem chapter (hR : Enrichment R) (h : Gains R Code.chapterAtom forest forest') :
    Chapter.Keeps (Chapter.ofChildren forest) (Chapter.ofChildren forest') where
  fields := by
    simp (disch := decide) only [Chapter.ofChildren, hR.firstAs h valueReading_unsigned?]
  displays := hR.records h.padded Code.chapterDisplay hR.chapterDisplay

theorem edition (hR : Enrichment R) (h : Gains R Code.editionEntry forest forest') :
    Edition.Keeps (Edition.ofChildren forest) (Edition.ofChildren forest') where
  uid := hR.firstAs h valueReading_unsigned? Code.editionUid (by decide)
  chapters := hR.tree hR.chapter rfl (fun first rest => by cases first <;> rfl) h.padded

theorem targets (hR : Enrichment R) (h : Gains R Code.targets forest forest') :
    Targets.ofChildren forest = Targets.ofChildren forest' := by
  simp (disch := decide) only [Targets.ofChildren, hR.lastAs h valueReading_unsigned?,
    hR.lastAs h valueReading_text?, hR.allAs h.padded valueReading_unsigned?]

theorem simpleTag (hR : Enrichment R) (h : Gains R Code.simpleTag forest forest') :
    SimpleTag.ofChildren forest = SimpleTag.ofChildren forest' := by
  simp (disch := decide) only [SimpleTag.ofChildren, hR.lastAs h valueReading_text?,
    hR.lastAs h valueReading_unsigned?, hR.lastAs h valueReading_binaryLength?]

theorem tag (hR : Enrichment R) (h : Gains R Code.tag forest forest') :
    Tag.Keeps (Tag.ofChildren forest) (Tag.ofChildren forest') where
  targets := hR.single h .first Code.targets hR.targets (by decide)
  simpleTags := hR.tree hR.simpleTag rfl (fun first rest => by cases first <;> rfl) h.padded

end Records

section Clusters

theorem headerOf (hR : Enrichment R) (h : R e e') : Block.headerOf e' = Block.headerOf e := by
  rw [Block.headerOf, Block.headerOf, ofValue_binary? (hR.value_eq h), hR.frame_eq h]

/-- The block of a group is kept. -/
theorem group
    (hR : Enrichment R)
    (h : R e e')
    (hid : e.id = Code.blockGroup) :
    Option.Keeps Block.Keeps (Block.ofGroup? e) (Block.ofGroup? e') := by
  intro b hbefore
  obtain ⟨block, hfound, rfl⟩ := Option.map_eq_some_iff.mp hbefore
  have hgains := hR.gains_of_id h hid
  obtain ⟨block', hafter, hrelated⟩ := (hgains.counts .first Code.block (by decide)).keeps
    block hfound
  refine ⟨_, Option.map_eq_some_iff.mpr ⟨block', hafter, rfl⟩, ?_, ?_⟩
  · simp only [hR.frame_eq h, hR.frame_eq hrelated, hR.headerOf hrelated,
      hR.firstAs hgains valueReading_unsigned? Code.blockDuration (by decide)]
  · exact (hR.withId hgains.padded Code.referenceBlock).length_le

/-- The block that a child of a cluster contributes is kept. -/
theorem block (hR : Enrichment R) (h : R e e') :
    Option.Keeps Block.Keeps ((BlockEntry.ofElement? e).bind BlockEntry.block?)
      ((BlockEntry.ofElement? e').bind BlockEntry.block?) := by
  intro b hbefore
  unfold BlockEntry.ofElement? at hbefore ⊢
  rw [hR.id_eq h]
  split at hbefore
  · rename_i hsimple
    obtain rfl : Block.ofSimple e = b := Option.some.inj hbefore
    refine ⟨Block.ofSimple e', by rw [if_pos hsimple]; rfl, ?_⟩
    rw [Block.ofSimple, Block.ofSimple, hR.frame_eq h, hR.headerOf h]
    exact ⟨rfl, Nat.le_refl _⟩
  · rename_i hsimple
    split at hbefore
    · rename_i hid
      rw [if_neg hsimple, if_pos hid]
      cases hgroup : Block.ofGroup? e with
      | none => rw [hgroup] at hbefore; cases hbefore
      | some b₀ =>
          rw [hgroup] at hbefore
          obtain rfl : b₀ = b := Option.some.inj hbefore
          obtain ⟨b', hafter, hkeeps⟩ := hR.group h hid b₀ hgroup
          exact ⟨b', by rw [hafter]; rfl, hkeeps⟩
    · cases hbefore

theorem cluster (hR : Enrichment R) (h : R e e') (hid : e.id = Code.cluster) :
    Cluster.Keeps (Cluster.ofElement e) (Cluster.ofElement e') where
  fields := by
    have hgains := hR.gains_of_id h hid
    simp (disch := decide) only [Cluster.ofElement, hR.frame_eq h,
      hR.lastAs hgains valueReading_unsigned?]
  blocks := by
    simp only [Cluster.ofElement, Cluster.entries, List.filterMap_filterMap]
    exact (hR.gains h).padded.filterMap fun _ _ _ hrelated => hR.block hrelated

/-- A cluster that was read is kept. -/
theorem clusterState (hR : Enrichment R) (h : R e e') (hid : e.id = Code.cluster) :
    Option.Keeps Cluster.Keeps (ClusterState.ofElement e).cluster?
      (ClusterState.ofElement e').cluster? := by
  intro cluster hbefore
  have hkeeps := hR.cluster h hid
  rcases hR.shape h with rfl | ⟨frame, children, children', rfl, rfl⟩
  · obtain ⟨_, rfl⟩ := (ClusterState.cluster?_ofElement _ _).mp hbefore
    exact ⟨_, hbefore, hkeeps⟩
  · obtain rfl := Option.some.inj hbefore
    exact ⟨_, rfl, hkeeps⟩

end Clusters

theorem segment (hR : Enrichment R) (h : R e e') (hid : e.id = Code.segment) :
    Segment.Keeps (Segment.ofElement e) (Segment.ofElement e') where
  offset := by rw [Segment.ofElement, Segment.ofElement, hR.frame_eq h]
  info := hR.single (hR.gains_of_id h hid) .first Code.info hR.info (by decide)
  seekEntries := hR.collect (hR.gains h).padded Code.seekHead Code.seek hR.seekEntry
  tracks := hR.collect (hR.gains h).padded Code.tracks Code.trackEntry hR.track
  clusters := by
    simp only [Segment.ofElement, Segment.clusterStates, List.filterMap_map]
    refine (hR.withId (hR.gains h).padded Code.cluster).filterMap fun cluster cluster' hmem => ?_
    exact fun hrelated => hR.clusterState hrelated (Forest.mem_withId.mp hmem).2
  cuePoints := hR.collect (hR.gains h).padded Code.cues Code.cuePoint hR.cuePoint
  attachments := hR.collect (hR.gains h).padded Code.attachments Code.attachedFile hR.attachment
  editions := hR.collect (hR.gains h).padded Code.chapters Code.editionEntry hR.edition
  tags := hR.collect (hR.gains h).padded Code.tags Code.tag hR.tag

end Enrichment

end Matroska

end EbmlReport
