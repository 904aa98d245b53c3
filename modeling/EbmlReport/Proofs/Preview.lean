import EbmlReport.Matroska.Catalogue
import EbmlReport.Proofs.LaceSums
import EbmlReport.Proofs.Places
import EbmlReport.Proofs.Transcript

/-!
# What a preview of a block shows

A scan keeps only the leading bytes of a block, so its header may be read from less than all of
it.  More bytes never lead to another header: they can only tell sizes that were unknown, when
the first ones end in the table of a lace.  A table that is bad behind the kept bytes is then
not noticed.

**Results.**
* `Lacing.sizes_append`: a table that is not cut short leads to the same sizes with more bytes.
* `BlockHead.decode_append`: so does a block, or its sizes were unknown.
* `BlockHead.agreesWith_take`: the kept bytes of a block agree with its payload.
* `Catalogue.exists_of_mem_blocks`: each block of a catalogue was made from an element.
* `BlockHead.previews_agree`: the law for two parts of a payload, and for the blocks of a scan.
-/

namespace EbmlReport

namespace Forest

variable {forest : Forest} {e child : Element} {above outer : List Frame}

theorem mem_withId {id : Nat} : e ∈ forest.withId id ↔ e ∈ forest.toList ∧ e.id = id := by
  simp [withId]

theorem mem_nodes_of_mem (h : e ∈ forest.toList) (above : List Frame) :
    (above, e) ∈ forest.nodes above := by
  induction forest using cons_induction with
  | nil => simp [toList] at h
  | cons first rest _ ih =>
      rw [toList_cons, List.mem_cons] at h
      rw [nodes_cons, List.mem_cons, List.mem_append]
      rcases h with rfl | h
      · exact Or.inl rfl
      · exact Or.inr (Or.inr (ih h))

/-- A child of an element of a forest is one too. -/
theorem mem_nodes_of_child
    (h : (above, e) ∈ forest.nodes outer)
    (hchild : child ∈ e.children.toList) :
    (e.frame :: above, child) ∈ forest.nodes outer := by
  induction forest using cons_induction generalizing outer with
  | nil => simp [nodes] at h
  | cons first rest ihChildren ihRest =>
      rw [nodes_cons, List.mem_cons, List.mem_append] at h ⊢
      rcases h with hself | hbelow | hbehind
      · obtain ⟨rfl, rfl⟩ := Prod.mk.inj hself
        exact Or.inr (Or.inl (mem_nodes_of_mem hchild _))
      · exact Or.inr (Or.inl (ihChildren hbelow))
      · exact Or.inr (Or.inr (ihRest hbehind))

end Forest

namespace Matroska

namespace Lacing

variable {lacing : Lacing} {count remaining : Nat} {table rest : Bytes} {held : List Nat}

/-- An entry that stands for no size is found whatever comes behind it. -/
theorem ebmlSizes_append_of_laceSizes
    {previous : Option Nat}
    (h : ebmlSizes count previous table = .error .laceSizes)
    (more : Bytes) :
    ebmlSizes count previous (table ++ more) = .error .laceSizes := by
  induction count generalizing previous table with
  | zero => simp [ebmlSizes] at h
  | succ count ih =>
      rw [ebmlSizes] at h ⊢
      split at h
      · rename_i hentry
        rw [Varint.decode_append_of_unmarked hentry]
      · simp at h
      · simp at h
      · rename_i entry hentry
        obtain ⟨_, _, hlong⟩ := Varint.decode_bounds hentry
        have hdrop : (table ++ more).drop entry.length = table.drop entry.length ++ more :=
          List.drop_append_of_le_length hlong
        rw [Varint.decode_append hentry]
        simp only [hdrop]
        split at h
        · exact h
        · rename_i size hsize
          split at h
          · rename_i hlater
            obtain rfl := Except.error.inj h
            simp only [ih hlater]
          · simp at h

/-- A table that was read to its end is read when more bytes are kept. -/
theorem readTable_append
    (hlacing : lacing.HasTable)
    (hpos : 1 ≤ count)
    (hle : count ≤ 256)
    (h : lacing.readTable count table = .ok (held, rest))
    (more : Bytes) :
    lacing.readTable count (table ++ more) = .ok (held, rest ++ more) := by
  obtain ⟨rfl, front, hholds, rfl⟩ := holds_of_readTable hlacing hpos hle h
  rw [List.append_assoc]
  exact hholds.readTable_eq _

/-- A wrong entry is found when more bytes are kept. -/
theorem readTable_append_of_laceSizes
    (h : lacing.readTable count table = .error .laceSizes)
    (more : Bytes) :
    lacing.readTable count (table ++ more) = .error .laceSizes := by
  cases lacing with
  | none => simp [readTable] at h
  | fixed => simp [readTable] at h
  | xiph =>
      have hshort := xiphSizes_error h
      simp at hshort
  | ebml => exact ebmlSizes_append_of_laceSizes h more

/-- Unless the table is cut short, more bytes lead to the same sizes. -/
theorem sizes_append
    (hpos : 1 ≤ count)
    (hle : count ≤ 256)
    (h : lacing.sizes count table remaining ≠ .error .cutShort)
    (more : Bytes) :
    lacing.sizes count (table ++ more) remaining = lacing.sizes count table remaining := by
  by_cases hlacing : lacing.HasTable
  · rw [sizes_of_hasTable hlacing] at h ⊢
    rw [sizes_of_hasTable hlacing]
    cases hread : lacing.readTable count table with
    | ok found =>
        obtain ⟨held, rest⟩ := found
        have hsame : (table ++ more).length - (rest ++ more).length =
            table.length - rest.length := by
          rw [List.length_append, List.length_append, Nat.add_sub_add_right]
        rw [readTable_append hlacing hpos hle hread]
        simp only [hsame]
    | error defect =>
        rw [hread] at h
        rcases readTable_error hread with rfl | rfl
        · exact absurd rfl h
        · rw [readTable_append_of_laceSizes hread]
  · cases lacing with
    | none => rfl
    | fixed => rfl
    | xiph => exact absurd (Or.inl rfl) hlacing
    | ebml => exact absurd (Or.inr rfl) hlacing

/-- No table is taken for a track number. -/
theorem sizes_ne_trackUnmarked :
    lacing.sizes count table remaining ≠ .error .trackUnmarked := by
  intro h
  have hlacing := hasTable_of_error h (by decide)
  rw [sizes_of_hasTable hlacing] at h
  cases hread : lacing.readTable count table with
  | ok found =>
      rw [hread] at h
      rcases closeSizes_error h with hdefect | hdefect <;> simp at hdefect
  | error defect =>
      rw [hread] at h
      obtain rfl := Except.error.inj h
      rcases readTable_error hread with hdefect | hdefect <;> simp at hdefect

end Lacing

namespace BlockHead

section Growing

variable {bytes rest table : Bytes} {track : Varint} {high low flags : UInt8} {lacing : Lacing}
  {count fixedLength length remaining : Nat}

/-- When the kept bytes are not all of the block, more of them lead to the same sizes, or the
sizes were unknown. -/
theorem sizesOf?_append
    (hpos : 1 ≤ count)
    (hle : count ≤ 256)
    (table more : Bytes)
    (remaining : Nat)
    (whole : Bool) :
    sizesOf? lacing count (table ++ more) remaining whole =
        sizesOf? lacing count table remaining false ∨
      sizesOf? lacing count table remaining false = .ok none := by
  by_cases hshort : lacing.sizes count table remaining = .error .cutShort
  · refine Or.inr ?_
    rw [sizesOf?, hshort]
    rfl
  · refine Or.inl ?_
    rw [sizesOf?, sizesOf?, Lacing.sizes_append hpos hle hshort]
    split
    · rfl
    · rename_i hcut
      exact absurd hcut hshort
    · rfl

theorem sizesOf?_ne_trackUnmarked (whole : Bool) :
    sizesOf? lacing count table remaining whole ≠ .error .trackUnmarked := by
  intro h
  unfold sizesOf? at h
  split at h
  · simp at h
  · cases whole <;> simp at h
  · rename_i hsizes
    exact Lacing.sizes_ne_trackUnmarked (hsizes.trans (by rw [Except.error.inj h]))

/-- When the kept bytes hold the count byte of a lace, more of them lead to the same header, or
its sizes were unknown. -/
theorem decode_append
    (hbegins : Begins bytes track high low flags rest)
    (hcounted : .ofFlags flags ≠ Lacing.none → rest ≠ [])
    {more : Bytes}
    (hlong : bytes.length + more.length ≤ length) :
    decode (bytes ++ more) length = decode bytes length ∨
      ∃ head : BlockHead, decode bytes length = .ok head ∧ head.frameSizes = none ∧
        ∃ sizes : Except BlockDefect (Option (List Nat)), sizes ≠ .error .trackUnmarked ∧
          decode (bytes ++ more) length =
            sizes.map fun sizes => { head with frameSizes := sizes } := by
  by_cases hmore : more = []
  · rw [hmore, List.append_nil]
    exact Or.inl rfl
  have hpos := List.length_pos_iff.mpr hmore
  have hnot : decide (length ≤ bytes.length) = false := decide_eq_false (by omega)
  rw [(hbegins.append more).decode_eq, hbegins.decode_eq, hnot]
  generalize decide (length ≤ (bytes ++ more).length) = whole
  by_cases hlaced : Lacing.ofFlags flags = .none
  · rw [hlaced, frames_none, frames_none]
    exact Or.inl rfl
  · obtain ⟨last, table, rfl⟩ := List.exists_cons_of_ne_nil (hcounted hlaced)
    have hlast := last.toNat_lt
    rw [List.cons_append, frames_laced hlaced, frames_laced hlaced]
    split
    · exact Or.inl rfl
    · have hpos : 1 ≤ last.toNat + 1 := by omega
      rcases sizesOf?_append hpos (by omega) table more (length - (track.length + 3 + 1)) whole with
        hsame | hunknown
      · rw [hsame]
        exact Or.inl rfl
      · refine Or.inr ⟨⟨track.data, Bytes.signed [high, low], flags, last.toNat + 1, none⟩, ?_, rfl,
          sizesOf? (.ofFlags flags) (last.toNat + 1) (table ++ more)
            (length - (track.length + 3 + 1)) whole, sizesOf?_ne_trackUnmarked _, ?_⟩
        · rw [hunknown]
          rfl
        · cases sizesOf? (.ofFlags flags) (last.toNat + 1) (table ++ more)
            (length - (track.length + 3 + 1)) whole <;> rfl

/-- The header that a preview shows: it is that of the block, but the sizes may be unknown. -/
structure Previews (seen head : BlockHead) : Prop where
  track : seen.track = head.track
  timecode : seen.timecode = head.timecode
  flags : seen.flags = head.flags
  lacing : seen.lacing = head.lacing
  frameCount : seen.frameCount = head.frameCount
  frameSizes : seen.frameSizes = none ∨ seen.frameSizes = head.frameSizes

theorem Previews.refl (head : BlockHead) : head.Previews head :=
  ⟨rfl, rfl, rfl, rfl, rfl, Or.inr rfl⟩

/-- When more of a block is accepted, so is a part that holds its fixed part, and the count byte
of a lace. -/
theorem previews_of_decode_append
    {head : BlockHead}
    {more : Bytes}
    (hlong : bytes.length + more.length ≤ length)
    (h : decode (bytes ++ more) length = .ok head) :
    ∃ track, Varint.decode (bytes ++ more) = .ok (some track) ∧
      (track.length + 3 + (if head.lacing = .none then 0 else 1) ≤ bytes.length →
        ∃ seen, decode bytes length = .ok seen ∧ seen.Previews head) := by
  obtain ⟨track, high, low, rest, hbegins, _, _, hframes⟩ := eq_of_decode h
  refine ⟨track, ?_, ?_⟩
  · rw [hbegins.written]
    exact Varint.decode_encode hbegins.marked _
  intro hkept
  have hpart := hbegins.take bytes.length (by omega)
  rw [List.take_left] at hpart
  have hcounted : .ofFlags head.flags ≠ Lacing.none →
      rest.take (bytes.length - (track.length + 3)) ≠ [] := by
    intro hlaced
    obtain ⟨last, table, rfl, _⟩ := (count_of_frames hframes).2 hlaced
    rw [lacing, if_neg hlaced] at hkept
    rw [show bytes.length - (track.length + 3) = bytes.length - (track.length + 4) + 1 by omega,
      List.take_succ_cons]
    exact List.cons_ne_nil _ _
  rcases decode_append hpart hcounted hlong with hsame | ⟨seen, hseen, hunknown, sizes, _, hall⟩
  · exact ⟨head, hsame ▸ h, .refl head⟩
  · refine ⟨seen, hseen, ?_⟩
    rw [hall] at h
    cases sizes with
    | error defect => simp [Except.map] at h
    | ok sizes =>
        obtain rfl := Except.ok.inj h
        exact ⟨rfl, rfl, rfl, rfl, rfl, Or.inl hunknown⟩

/-- Sizes that are known from a part of a block stay what they are. -/
theorem decode_append_of_known
    {head : BlockHead}
    {sizes : List Nat}
    {more : Bytes}
    (hlong : bytes.length + more.length ≤ length)
    (h : decode bytes length = .ok head)
    (hknown : head.frameSizes = some sizes) :
    decode (bytes ++ more) length = .ok head := by
  obtain ⟨track, high, low, rest, hbegins, _, _, hframes⟩ := eq_of_decode h
  have hcounted : .ofFlags head.flags ≠ Lacing.none → rest ≠ [] := by
    intro hlaced
    obtain ⟨last, table, rfl, _⟩ := (count_of_frames hframes).2 hlaced
    exact List.cons_ne_nil _ _
  rcases decode_append hbegins hcounted hlong with hsame | ⟨seen, hseen, hunknown, _⟩
  · rw [hsame, h]
  · rw [h, Except.ok.injEq] at hseen
    rw [hseen, hunknown] at hknown
    simp at hknown

/-- Sizes that do not add up in a part of a block do not in the block. -/
theorem decode_append_of_laceSizes
    {more : Bytes}
    (hlong : bytes.length + more.length ≤ length)
    (h : decode bytes length = .error .laceSizes) :
    decode (bytes ++ more) length = .error .laceSizes := by
  rcases begins_or_refused bytes with
    ⟨track, high, low, flags, rest, hbegins⟩ | ⟨_, hshort⟩ | hunmarked
  · have hcounted : .ofFlags flags ≠ Lacing.none → rest ≠ [] := by
      rintro hlaced rfl
      rw [hbegins.decode_eq, frames_nil hlaced] at h
      simp [Except.map] at h
    rcases decode_append hbegins hcounted hlong with hsame | ⟨seen, hseen, _⟩
    · rw [hsame, h]
    · rw [h] at hseen
      simp at hseen
  · simp [hshort] at h
  · simp [decode_of_unmarked hunmarked] at h

end Growing

section Payload

variable {payload bytes : Bytes} {kept length : Nat}

/-- The header that the leading bytes of a payload show is that of the whole, unless its sizes
are unknown. -/
theorem decode_take (hkept : 12 ≤ kept) (payload : Bytes) :
    decode (payload.take kept) payload.length = decode payload payload.length ∨
      ∃ head : BlockHead, decode (payload.take kept) payload.length = .ok head ∧
        head.frameSizes = none ∧
        ∃ sizes : Except BlockDefect (Option (List Nat)), sizes ≠ .error .trackUnmarked ∧
          decode payload payload.length =
            sizes.map fun sizes => { head with frameSizes := sizes } := by
  by_cases hshort : payload.length ≤ kept
  · rw [List.take_of_length_le hshort]
    exact Or.inl rfl
  · have hlength : (payload.take kept).length = kept := by
      rw [List.length_take, Nat.min_eq_left (by omega)]
    have hwhole : payload.take kept ++ payload.drop kept = payload := List.take_append_drop ..
    rcases begins_or_refused (payload.take kept) with
      ⟨track, high, low, flags, rest, hbegins⟩ | hshort | hunmarked
    · have hrest : rest ≠ [] := by
        rintro rfl
        have htrack := hbegins.marked.le
        have hcount := hbegins.length_eq
        rw [hlength, List.length_nil] at hcount
        omega
      have hlong : (payload.take kept).length + (payload.drop kept).length ≤ payload.length := by
        rw [hlength, List.length_drop]
        omega
      have hmore := decode_append hbegins (fun _ => hrest) hlong
      rw [hwhole] at hmore
      exact hmore.imp Eq.symm id
    · have hfew := hshort.1
      omega
    · have hall := Varint.decode_append_of_unmarked hunmarked (payload.drop kept)
      rw [hwhole] at hall
      rw [decode_of_unmarked hunmarked, decode_of_unmarked hall]
      exact Or.inl rfl

/-- A header agrees with the payload of its block: it is what the whole payload shows, or its
sizes are unknown, because their table runs past the bytes that are kept.  Then it may be that
the table, and only this, is bad. -/
def AgreesWith (header : Except BlockDefect BlockHead) (payload : Bytes) : Prop :=
  header = decode payload payload.length ∨
    (blockPreviewLength < payload.length ∧
      (∀ lacing fixedLength held table, HoldsTable payload lacing fixedLength held table →
        blockPreviewLength < fixedLength + table.length) ∧
      ∃ head, header = .ok head ∧ head.lacing.HasTable ∧ head.frameSizes = none ∧
        ((∃ sizes, decode payload payload.length = .ok { head with frameSizes := some sizes }) ∨
          ∃ defect, defect ≠ .trackUnmarked ∧ decode payload payload.length = .error defect))

/-- The header that the kept bytes of a block show agrees with its payload. -/
theorem agreesWith_take (payload : Bytes) :
    AgreesWith (decode (payload.take blockPreviewLength) payload.length) payload := by
  rcases decode_take (by decide : 12 ≤ blockPreviewLength) payload with
    hsame | ⟨head, hhead, hunknown, sizes, hsizes, hall⟩
  · exact Or.inl hsame
  · obtain ⟨_, _, _, _, _, _, _, hframes⟩ := eq_of_decode hhead
    rw [hunknown] at hframes
    obtain ⟨hlacing, hwhole⟩ := unknown_of_frames hframes
    have hshort := of_decide_eq_false hwhole
    rw [List.length_take] at hshort
    refine Or.inr ⟨by omega, ?_, head, hhead, hlacing, hunknown, ?_⟩
    · intro lacing fixedLength held table hholds
      refine Nat.lt_of_not_le fun hkept => ?_
      exact (hholds.take hkept).frameSizes_ne_none hhead hunknown
    · cases sizes with
      | error defect =>
          refine Or.inr ⟨defect, ?_, hall⟩
          rintro rfl
          exact hsizes rfl
      | ok sizes =>
          cases sizes with
          | some sizes => exact Or.inl ⟨sizes, hall⟩
          | none =>
              obtain ⟨_, _, _, _, _, _, _, hframes⟩ := eq_of_decode hall
              have hcut := (unknown_of_frames hframes).2
              simp at hcut

end Payload

end BlockHead

section Extracted

variable {c : Contents} {s : Settings} {e : Element} {b : Block} {forest : Forest}

/-- The header of a block is that of the kept bytes of a payload that is whole, and there is none
for one that is not. -/
theorem Block.headerOf_of_transcribes
    (hid : e.id = Code.simpleBlock ∨ e.id = Code.block)
    (h : e.Transcribes c vocabulary s) :
    (e.frame.declared = .known e.frame.data.length →
      BlockHead.AgreesWith (Block.headerOf e)
        (c.slice e.frame.data.start e.frame.data.length)) ∧
      (e.frame.declared ≠ .known e.frame.data.length → Block.headerOf e = .error .cutShort) := by
  have hleaf : vocabulary.isMaster e.id = false := by
    rcases hid with hid | hid <;> rw [hid] <;> decide +kernel
  have hkind : vocabulary.kind e.id = .binary := by
    rcases hid with hid | hid <;> rw [hid] <;> decide +kernel
  have hpreview : vocabulary.previewLength e.id = blockPreviewLength := by
    rcases hid with hid | hid <;> rw [hid] <;> decide +kernel
  have hcontent := h.leaf hleaf
  cases e with
  | master frame children => simp at hcontent
  | leaf frame content =>
      simp only [Element.id, Element.frame_leaf] at hkind hpreview ⊢
      obtain rfl : content = c.leafContent vocabulary frame := (Element.leaf.inj hcontent).2
      refine ⟨?_, ?_⟩
      · intro hwhole
        have hvalue : c.leafContent vocabulary frame = .value (.binary frame.data.length
            ((c.slice frame.data.start frame.data.length).take blockPreviewLength)) := by
          simp only [Contents.leafContent, hwhole, Contents.meaning, hkind, hpreview]
          rfl
        have hagrees := BlockHead.agreesWith_take (c.slice frame.data.start frame.data.length)
        rw [Contents.length_slice] at hagrees
        rw [hvalue]
        exact hagrees
      · intro hclipped
        have hcorrupt : ∃ reason, c.leafContent vocabulary frame = .corrupt reason := by
          unfold Contents.leafContent
          split
          · exact ⟨_, rfl⟩
          · rename_i declared hdeclared
            refine ⟨_, if_neg ?_⟩
            rintro rfl
            exact hclipped hdeclared
        obtain ⟨reason, hreason⟩ := hcorrupt
        simp only [hreason, Block.headerOf, Element.binary?, Element.value?]

/-- The record of a block was made from this element, which is a simple block, or stands in a
block group. -/
def Block.HeldBy (b : Block) (above : List Frame) (e : Element) : Prop :=
  b.size = e.frame.data.length ∧ b.header = Block.headerOf e ∧
    match b.kind with
    | .simple => e.id = Code.simpleBlock ∧ b.offset = e.frame.heading.start
    | .group => e.id = Code.block ∧
        ∃ group further, above = group :: further ∧ group.id = Code.blockGroup ∧
          b.offset = group.heading.start

theorem Block.HeldBy.id_eq
    {above : List Frame}
    (h : b.HeldBy above e) :
    e.id = Code.simpleBlock ∨ e.id = Code.block := by
  obtain ⟨_, _, hkind⟩ := h
  split at hkind
  · exact Or.inl hkind.1
  · exact Or.inr hkind.1

/-- The element of a block is no stand-in for other bytes. -/
theorem Block.heading_pos_of_transcribed
    {above : List Frame}
    (hid : e.id = Code.simpleBlock ∨ e.id = Code.block)
    (h : e.Transcribed c vocabulary s above) :
    0 < e.frame.heading.length := by
  refine Nat.pos_of_ne_zero fun hnone => ?_
  obtain ⟨_, reason, hplaceholder, _⟩ := h.2 hnone
  rw [hplaceholder] at hid
  rcases hid with hid | hid <;>
    simp [Element.placeholder, Element.id, Code.simpleBlock, Code.block] at hid

/-- A block of a cluster was made from a child of that, or from a child of a group in it. -/
theorem Cluster.exists_of_mem_blocks
    {holder : Element}
    {above : List Frame}
    (hholder : (above, holder) ∈ forest.nodes [])
    (h : b ∈ (Cluster.ofElement holder).blocks) :
    ∃ inside e, (inside, e) ∈ forest.nodes [] ∧ b.HeldBy inside e := by
  obtain ⟨entry, hentry, hblock⟩ := List.mem_filterMap.mp h
  obtain ⟨child, hchild, hmade⟩ := List.mem_filterMap.mp hentry
  have hnode := Forest.mem_nodes_of_child hholder hchild
  cases entry with
  | emptyGroup offset => simp [BlockEntry.block?] at hblock
  | block found =>
      obtain rfl := Option.some.inj hblock
      unfold BlockEntry.ofElement? at hmade
      split at hmade
      · rename_i hsimple
        obtain rfl := BlockEntry.block.inj (Option.some.inj hmade)
        exact ⟨_, child, hnode, rfl, rfl, hsimple, rfl⟩
      · split at hmade
        · rename_i hgroup
          cases hfound : Block.ofGroup? child with
          | none => simp [hfound] at hmade
          | some found =>
              rw [hfound] at hmade
              obtain rfl := BlockEntry.block.inj (Option.some.inj hmade)
              obtain ⟨inner, hinner, rfl⟩ := Option.map_eq_some_iff.mp hfound
              have hblockId : inner.id = Code.block := by
                simpa using List.find?_some hinner
              exact ⟨_, inner, Forest.mem_nodes_of_child hnode (List.mem_of_find?_eq_some hinner),
                rfl, rfl, hblockId, child.frame, _, rfl, hgroup, rfl⟩
        · simp at hmade

/-- A block of a catalogue was made from an element of the forest. -/
theorem Catalogue.exists_of_mem_blocks
    {segment : Segment}
    {cluster : Cluster}
    (hsegment : segment ∈ (Catalogue.ofForest forest).segments)
    (hcluster : cluster ∈ segment.clusters)
    (hblock : b ∈ cluster.blocks) :
    ∃ above e, (above, e) ∈ forest.nodes [] ∧ b.HeldBy above e := by
  obtain ⟨body, hbody, rfl⟩ := List.mem_map.mp hsegment
  obtain ⟨state, hstate, hread⟩ := List.mem_filterMap.mp hcluster
  obtain ⟨holder, hholder, rfl⟩ := List.mem_map.mp hstate
  have hnode := Forest.mem_nodes_of_child
    (Forest.mem_nodes_of_mem (Forest.mem_withId.mp hbody).1 []) (Forest.mem_withId.mp hholder).1
  have hmade : Cluster.ofElement holder = cluster := by
    unfold ClusterState.ofElement at hread
    split at hread
    · simp [ClusterState.cluster?] at hread
    · simp [ClusterState.cluster?] at hread
    · exact Option.some.inj hread
  subst hmade
  exact Cluster.exists_of_mem_blocks hnode hblock

end Extracted

namespace BlockHead

/-- **A preview never contradicts the whole block.**  Let a longer part of a payload be read, and
a shorter one.  A header of the longer part is shown by the shorter one too, when this holds the
fixed part of the block and the count byte of a lace, up to sizes that may be unknown.  Sizes
that the shorter part shows are those of the longer one, and what does not add up in the shorter
one does not in the longer one.

So the header of each block in the catalogue of a scan agrees with the payload of the element
that it was made from, whatever the length of that, and there is none for a payload that was
clipped. -/
theorem previews_agree :
    (∀ (payload : Bytes) (k k' : Nat), k ≤ k' → k' ≤ payload.length →
      (∀ head, decode (payload.take k') payload.length = .ok head →
        ∃ track, Varint.decode payload = .ok (some track) ∧
          (track.length + 3 + (if head.lacing = .none then 0 else 1) ≤ k →
            ∃ seen, decode (payload.take k) payload.length = .ok seen ∧ seen.Previews head)) ∧
        (∀ head sizes, decode (payload.take k) payload.length = .ok head →
          head.frameSizes = some sizes →
            decode (payload.take k') payload.length = .ok head) ∧
        (decode (payload.take k) payload.length = .error .laceSizes →
          decode (payload.take k') payload.length = .error .laceSizes)) ∧
      ∀ (b : Buffered) (s : Settings) (forest : Forest),
        b.Exact → (b.scan vocabulary s).1 = .ok forest →
          ∀ segment ∈ (Catalogue.ofForest forest).segments,
            ∀ cluster ∈ segment.clusters,
              ∀ block ∈ cluster.blocks,
                ∃ above e, (above, e) ∈ forest.nodes [] ∧ block.HeldBy above e ∧
                  (e.frame.declared = .known e.frame.data.length →
                    AgreesWith block.header
                      (b.device.toContents.slice e.frame.data.start e.frame.data.length)) ∧
                  (e.frame.declared ≠ .known e.frame.data.length →
                    block.header = .error .cutShort) := by
  refine ⟨?_, ?_⟩
  · intro payload k k' hle hlong
    have hsplit : payload.take k' = payload.take k ++ (payload.take k').drop k := by
      have hfront : (payload.take k').take k = payload.take k := by
        rw [List.take_take, Nat.min_eq_left hle]
      rw [← hfront, List.take_append_drop]
    have hlength : (payload.take k).length = k := by
      rw [List.length_take, Nat.min_eq_left (by omega)]
    have hsum : (payload.take k).length + ((payload.take k').drop k).length ≤ payload.length := by
      rw [List.length_drop, List.length_take, List.length_take]
      omega
    rw [hsplit]
    refine ⟨?_, ?_, ?_⟩
    · intro head hhead
      obtain ⟨track, htrack, hseen⟩ := previews_of_decode_append hsum hhead
      rw [← hsplit] at htrack
      rw [hlength] at hseen
      have hall := Varint.decode_append htrack (payload.drop k')
      rw [List.take_append_drop] at hall
      exact ⟨track, hall, hseen⟩
    · intro head sizes hhead hsizes
      exact decode_append_of_known hsum hhead hsizes
    · intro hbad
      exact decode_append_of_laceSizes hsum hbad
  · intro b s forest hb hscan segment hsegment cluster hcluster block hblock
    obtain ⟨above, e, hnode, hheld⟩ := Catalogue.exists_of_mem_blocks hsegment hcluster hblock
    obtain ⟨r, hreads, rfl⟩ := Contents.scan_eq_ok_iff.mp (hb.scan_eq hscan)
    have hread : e.Transcribed b.device.toContents vocabulary s above :=
      hreads.transcribed (Nat.le_refl _) (fun _ => rfl) _ hnode
    have hheader := hheld.2.1
    refine ⟨above, e, hnode, hheld, ?_⟩
    rw [hheader]
    exact Block.headerOf_of_transcribes hheld.id_eq
      (hread.1 (Block.heading_pos_of_transcribed hheld.id_eq hread))

/-- A size in a run of 256 full bytes, in a block of 262 bytes.  The kept bytes end in the run, so
that the size is unknown; in the whole payload it is larger than the block. -/
theorem previews_agree_xiph :
    let opening : Bytes := [0x18, 0x53, 0x80, 0x67, 0x41, 0x0F, 0x1F, 0x43, 0xB6, 0x75, 0x41, 0x09,
      0xA3, 0x41, 0x06, 0x81, 0x00, 0x00, 0x02, 0x01]
    let c : Contents := ⟨277, fun i => opening.getD i (if i < 276 then 0xFF else 0x05)⟩
    let b := Buffered.ofDevice (.faithful c) false
    let payload := c.slice 15 262
    let head : BlockHead := ⟨1, 0, 2, 2, none⟩
    let simple : Element := .leaf ⟨0xA3, ⟨12, 3⟩, .known 262, ⟨15, 262⟩, none⟩
      (.value (.binary 262 (payload.take 256)))
    let cluster : Element := .master ⟨0x1F43B675, ⟨6, 6⟩, .known 265, ⟨12, 265⟩, none⟩
      (.cons simple .nil)
    let segment : Element := .master ⟨0x18538067, ⟨0, 6⟩, .known 271, ⟨6, 271⟩, none⟩
      (.cons cluster .nil)
    let forest : Forest := .cons segment .nil
    decode (payload.take 256) 262 = .ok head ∧ decode payload 262 = .error .laceSizes ∧
      (∃ seen, decode (payload.take 5) 262 = .ok seen ∧ seen.Previews head) ∧
      b.Exact ∧ (b.scan vocabulary {}).1 = .ok forest ∧
      (Segment.ofElement segment) ∈ (Catalogue.ofForest forest).segments ∧
      (Cluster.ofElement cluster) ∈ (Segment.ofElement segment).clusters ∧
      (Block.ofSimple simple) ∈ (Cluster.ofElement cluster).blocks ∧
      (Block.ofSimple simple).header = .ok head ∧
      ∃ above e, (above, e) ∈ forest.nodes [] ∧ (Block.ofSimple simple).HeldBy above e ∧
        (e.frame.declared = .known e.frame.data.length →
          AgreesWith (.ok head)
            (b.device.toContents.slice e.frame.data.start e.frame.data.length)) := by
  intro opening c b payload head simple cluster segment forest
  have hlength : payload.length = 262 := Contents.length_slice ..
  have hhead : decode (payload.take 256) 262 = .ok head := by decide +kernel
  have hfaithful : b.Faithful := Buffered.ofDevice_faithful (Device.faithful_reliable c)
  have hexact : b.Exact := hfaithful.exact
  have hscan : (b.scan vocabulary {}).1 = .ok forest := by
    rw [hfaithful.scan_eq]
    decide +kernel
  have hsegment : Segment.ofElement segment ∈ (Catalogue.ofForest forest).segments :=
    List.mem_of_mem_head? rfl
  have hcluster : Cluster.ofElement cluster ∈ (Segment.ofElement segment).clusters :=
    List.mem_of_mem_head? rfl
  have hblock : Block.ofSimple simple ∈ (Cluster.ofElement cluster).blocks :=
    List.mem_of_mem_head? rfl
  have hheader : (Block.ofSimple simple).header = .ok head := by decide +kernel
  have hpart := (previews_agree.1 payload 5 256 (by decide) (by rw [hlength]; decide)).1 head
  rw [hlength] at hpart
  obtain ⟨track, htrack, hseen⟩ := hpart hhead
  obtain ⟨above, e, hnode, hheld, hagrees, _⟩ :=
    previews_agree.2 b {} forest hexact hscan _ hsegment _ hcluster _ hblock
  rw [hheader] at hagrees
  have hone : Varint.decode payload = .ok (some ⟨129, 1⟩) := by decide +kernel
  obtain rfl : track = ⟨129, 1⟩ := by
    rw [hone, Except.ok.injEq, Option.some.injEq] at htrack
    exact htrack.symm
  exact ⟨hhead, by decide +kernel, hseen (by decide +kernel), hexact, hscan, hsegment, hcluster,
    hblock, hheader, above, e, hnode, hheld, hagrees⟩

end BlockHead

end Matroska

end EbmlReport
