import EbmlReport.Matroska.Specification
import EbmlReport.Proofs.Locality
import EbmlReport.Proofs.Strictness
import EbmlReport.Proofs.Stream

/-!
# The tree says what the bytes say

Every element of a scan can be checked against the bytes of its own span.  Its ID and its
declared size are those of the heading that stands where it starts, and a leaf holds what
its whole payload stands for.  A scan gets there by shorter ways: it looks ahead by twelve
bytes for a heading, takes in only the leading bytes of an opaque payload, and tells from
its length alone that a number is too wide or a text too long.

Where no heading could be read there is a stand-in for the rest of the zone, with the
defect of these bytes.

**Results.**
* `Value.decode_of_lengthDefect`: a number that is refused for its length cannot be decoded,
  for the same reason.
* `Contents.payload_eq_meaning`: the shorter ways lead to what the whole payload stands for.
* `Settles.transcribed`: an element that is not entered says what its bytes say.
* `Reads.transcribed`: so does every element of a stretch.
* `Buffered.scan_transcribed`: the law for a scan.
-/

namespace EbmlReport

/-- What stands for the payload of a leaf. -/
def Content.ofPayload : Except Defect Value → Content
  | .ok read => .value read
  | .error reason => .corrupt reason

/-- What a whole payload stands for.  An opaque one is known by its length and leading
bytes, a text beyond a certain length is not taken in, and everything else is decoded. -/
def Contents.meaning (c : Contents) (v : Vocabulary) (id : Nat) (data : Span) :
    Except Defect Value :=
  let bytes := c.slice data.start data.length
  match v.kind id with
  | .binary => .ok (.binary data.length (bytes.take (v.previewLength id)))
  | .ascii =>
      if Scan.maxTextLength < data.length then .error (.oversized data.length)
      else Value.decode .ascii bytes
  | .utf8 =>
      if Scan.maxTextLength < data.length then .error (.oversized data.length)
      else Value.decode .utf8 bytes
  | kind => Value.decode kind bytes

/-- What stands for a leaf: what its payload stands for, when that is whole. -/
def Contents.leafContent (c : Contents) (v : Vocabulary) (frame : Frame) : Content :=
  match frame.declared with
  | .unknown => .corrupt .boundaryUnresolvable
  | .known declared =>
      if declared = frame.data.length then .ofPayload (c.meaning v frame.id frame.data)
      else .corrupt (.overrunsParent declared frame.data.length)

/-- The element has the heading that stands where it starts, and what stands for it is what
is to be made of its kind and its payload. -/
structure Element.Transcribes (c : Contents) (v : Vocabulary) (s : Settings) (e : Element) :
    Prop where
  heading :
    ∃ heading, Heading.decode (c.slice e.frame.heading.start
        (c.length - e.frame.heading.start)) = .ok (some heading) ∧
      heading.id = e.id ∧ heading.size = e.frame.declared ∧
      heading.length = e.frame.heading.length
  container : v.isMaster e.id = true →
    (∃ children, e = .master e.frame children) ∨
      (s.shallow = true ∧ e = .leaf e.frame .skipped) ∨
      e = .leaf e.frame (.corrupt (.tooDeep s.maxDepth))
  leaf : v.isMaster e.id = false → e = .leaf e.frame (c.leafContent v e.frame)

/-- The element is a stand-in for bytes up to `stop`, with the defect of a heading that they
should begin with. -/
def Element.StandsIn (c : Contents) (e : Element) (stop : Nat) : Prop :=
  e.stop = stop ∧
    ∃ reason, e = .placeholder e.frame.heading.start e.frame.data.length reason ∧
      Heading.decode (c.slice e.frame.heading.start e.frame.data.length) = .error reason

/-- Where the innermost of the containers ends, or else the stream. -/
def Frame.room : (above : List Frame) → (length : Nat) → Nat
  | [], length => length
  | frame :: _, _ => frame.data.stop

/-- The element, inside the given containers, says what its bytes say. -/
def Element.Transcribed (c : Contents) (v : Vocabulary) (s : Settings) (above : List Frame)
    (e : Element) : Prop :=
  (0 < e.frame.heading.length → e.Transcribes c v s) ∧
    (e.frame.heading.length = 0 → e.StandsIn c (Frame.room above c.length))

theorem Vocabulary.kind_ne_master
    {v : Vocabulary}
    {id : Nat}
    (h : v.isMaster id = false) :
    v.kind id ≠ .master := by
  unfold isMaster at h
  unfold kind
  cases hlookup : v.lookup id with
  | none => simp
  | some definition => simpa [hlookup] using h

/-- The defect that the length of a number shows is the one that decoding it would find. -/
theorem Value.decode_of_lengthDefect
    {kind : Kind}
    {bytes : Bytes}
    {reason : Defect}
    (hascii : kind ≠ .ascii)
    (hutf8 : kind ≠ .utf8)
    (h : Scan.lengthDefect? kind bytes.length = some reason) :
    Value.decode kind bytes = .error reason := by
  cases kind with
  | ascii => exact absurd rfl hascii
  | utf8 => exact absurd rfl hutf8
  | master => simp [Scan.lengthDefect?] at h
  | binary => simp [Scan.lengthDefect?] at h
  | unsigned =>
      obtain ⟨hwide, rfl⟩ : 8 < bytes.length ∧ .integerWidth bytes.length = reason := by
        simpa [Scan.lengthDefect?] using h
      simp [decode, decodeUnsigned, hwide, Except.map]
  | signed =>
      obtain ⟨hwide, rfl⟩ : 8 < bytes.length ∧ .integerWidth bytes.length = reason := by
        simpa [Scan.lengthDefect?] using h
      simp [decode, decodeSigned, hwide, Except.map]
  | float =>
      obtain ⟨hwide, rfl⟩ : 8 < bytes.length ∧ .floatWidth bytes.length = reason := by
        simpa [Scan.lengthDefect?] using h
      have hother : decodeFloat bytes = .error (.floatWidth bytes.length) := by
        unfold decodeFloat
        split <;> first | omega | rfl
      simp [decode, hother, Except.map]
  | date =>
      obtain ⟨hwide, rfl⟩ : 8 < bytes.length ∧ .dateWidth bytes.length = reason := by
        simpa [Scan.lengthDefect?] using h
      have hother : decodeDate bytes = .error (.dateWidth bytes.length) := by
        unfold decodeDate
        split <;> first | omega | rfl
      simp [decode, hother, Except.map]

namespace Contents

variable (c : Contents) (v : Vocabulary) {frame : Frame}

/-- What is told by the length of a payload, or by its leading bytes, is what the whole
payload stands for. -/
theorem payload_eq_meaning (hleaf : v.isMaster frame.id = false) :
    c.payload v frame = c.meaning v frame.id frame.data := by
  have hkind := v.kind_ne_master hleaf
  have hpreview : c.slice frame.data.start (min (v.previewLength frame.id) frame.data.length) =
      (c.slice frame.data.start frame.data.length).take (v.previewLength frame.id) := by
    rw [List.take_eq_take_min, length_slice, take_slice (Nat.min_le_right _ _)]
  unfold payload meaning
  rw [hpreview]
  generalize hbytes : c.slice frame.data.start frame.data.length = bytes
  have hlength : bytes.length = frame.data.length := by rw [← hbytes, length_slice]
  generalize v.kind frame.id = kind at hkind
  rw [← hlength]
  cases kind with
  | master => exact absurd rfl hkind
  | binary => rfl
  | ascii =>
      by_cases hlong : Scan.maxTextLength < bytes.length
      · simp [Scan.lengthDefect?, hlong]
      · simp [Scan.lengthDefect?, hlong]
  | utf8 =>
      by_cases hlong : Scan.maxTextLength < bytes.length
      · simp [Scan.lengthDefect?, hlong]
      · simp [Scan.lengthDefect?, hlong]
  | _ =>
      split
      · rename_i hdefect
        exact (Value.decode_of_lengthDefect (by decide) (by decide) hdefect).symm
      · contradiction
      · rfl

end Contents

section Elements

variable {c : Contents} {v : Vocabulary} {s : Settings} {zone : Zone} {pos : Nat}
  {heading : Heading} {seen : Bool} {element : Element} {frame : Frame} {above : List Frame}

theorem content_of_settle
    {α : Type}
    {offset : Nat}
    {reason : Defect}
    {content : Content}
    (h : (Scan.settle s offset reason : Decision α) = .settles content) :
    content = .corrupt reason := by
  unfold Scan.settle at h
  split at h
  · simp at h
  · exact (Decision.settles.inj h).symm

theorem content_of_giveUp
    {α : Type}
    {offset : Nat}
    {reason : Defect}
    {content : Content}
    (h : (Scan.giveUp s zone offset reason : Decision α) = .settles content) :
    content = .corrupt reason := by
  unfold Scan.giveUp at h
  split at h
  · simp at h
  · exact content_of_settle h

/-- An element that is given up before it is looked into is one that nothing ends. -/
theorem content_of_approach
    {content : Content}
    (h : Scan.approach v s zone frame = .settles content) :
    content = .corrupt .boundaryUnresolvable := by
  unfold Scan.approach at h
  split at h
  · simp at h
  · split at h
    · simp at h
    · split at h
      · exact content_of_giveUp h
      · simp at h

/-- A container that is not entered is passed over in a shallow scan, or stands too deep. -/
theorem content_of_entry
    {content : Content}
    (h : Scan.entry v s zone frame seen = .settles content) :
    (s.shallow = true ∧ v.isSkippable frame.id = true ∧ content = .skipped) ∨
      (s.maxDepth ≤ zone.depth ∧ content = .corrupt (.tooDeep s.maxDepth)) := by
  unfold Scan.entry at h
  split at h
  · rename_i hdeep
    split at h
    · exact Or.inr ⟨hdeep, content_of_giveUp h⟩
    · exact Or.inr ⟨hdeep, content_of_settle h⟩
  · split at h
    · rename_i hskips
      split at h
      · simp at h
      · simp only [Bool.and_eq_true] at hskips
        exact Or.inl ⟨hskips.1.1, hskips.1.2, (Decision.settles.inj h).symm⟩
    · simp at h

/-- An element is looked into as a leaf only when its length is known. -/
theorem known_of_approach (h : Scan.approach v s zone frame = .goesOn .asLeaf) :
    ∃ declared, frame.declared = .known declared := by
  unfold Scan.approach at h
  split at h
  · simp at h
  · split at h
    · simp at h
    · split at h
      · exact absurd h giveUp_ne_goesOn
      · rename_i hknown
        cases hdeclared : frame.declared with
        | known declared => exact ⟨declared, rfl⟩
        | unknown => exact absurd hdeclared hknown

/-- An element whose frame tells of a heading that was read has the heading that stands in
the stream. -/
theorem Opens.transcribes_heading
    (hopens : Opens c v zone pos heading)
    (hlength : zone.stop ≤ c.length)
    (hid : element.frame.id = heading.id)
    (hheading : element.frame.heading = ⟨pos, heading.length⟩)
    (hdeclared : element.frame.declared = heading.size) :
    ∃ heading, Heading.decode (c.slice element.frame.heading.start
        (c.length - element.frame.heading.start)) = .ok (some heading) ∧
      heading.id = element.id ∧ heading.size = element.frame.declared ∧
      heading.length = element.frame.heading.length := by
  refine ⟨heading, ?_, hid.symm, hdeclared.symm, by rw [hheading]⟩
  rw [hheading]
  exact Contents.decode_of_headingAt hopens.reads hlength

/-- A leaf holds what its payload stands for, or the defect of being clipped. -/
theorem leaf_eq_leafContent
    {declared : Nat}
    (hinside : (zone.frameAt pos heading).data.stop ≤ c.length)
    (hleaf : v.isMaster (zone.frameAt pos heading).id = false)
    (hdeclared : (zone.frameAt pos heading).declared = .known declared)
    (h : (Scan.leaf v s (zone.frameAt pos heading) .done).answer c = .ok element) :
    element = .leaf element.frame (c.leafContent v element.frame) := by
  have hsize : heading.size = .known declared := by
    rw [← hdeclared, Zone.frameAt_declared]
  rcases @Zone.frameAt_of_known zone pos heading declared hsize with
    ⟨_, hwhole, hnone⟩ | ⟨hover, hclipped, hsome⟩
  · -- The payload is whole.
    have hcontent : c.leafContent v (zone.frameAt pos heading) =
        .ofPayload (c.payload v (zone.frameAt pos heading)) := by
      unfold Contents.leafContent
      rw [hdeclared, c.payload_eq_meaning v hleaf]
      exact if_pos hwhole.symm
    rcases (leaf_eq_ok_iff hnone hinside).mp h with
      ⟨value, hpayload, rfl⟩ | ⟨_, reason, hpayload, rfl⟩
    · rw [Element.frame_leaf, hcontent, hpayload]
      rfl
    · rw [Element.frame_leaf, hcontent, hpayload]
      rfl
  · rcases leaf_shape h with ⟨reason, hreason, rfl⟩ | ⟨hwhole, _⟩
    · rw [hsome, Option.some.injEq] at hreason
      subst hreason
      simp only [Element.frame_leaf, Contents.leafContent, hdeclared, hclipped]
      rw [if_neg (by omega)]
    · rw [hsome] at hwhole
      simp at hwhole

/-- An element that is not entered says what its bytes say. -/
theorem Settles.transcribed
    (hopens : Opens c v zone pos heading)
    (hlength : zone.stop ≤ c.length)
    (h : Settles c v s zone (zone.frameAt pos heading) seen element) :
    element.Transcribes c v s := by
  obtain ⟨_, _, hstop⟩ := hopens.data_bounds
  obtain ⟨hid, hheading, hdeclared, _⟩ := h.keeps
  rw [Zone.frameAt_heading] at hheading
  rw [Zone.frameAt_declared] at hdeclared
  refine ⟨hopens.transcribes_heading hlength (by rw [hid, Zone.frameAt_id]) hheading hdeclared,
    ?_, ?_⟩
  · intro hmaster
    rw [Element.id, hid] at hmaster
    cases h with
    | givenUp happroach =>
        rw [(unknown_of_approach happroach).1] at hmaster
        simp at hmaster
    | leaf happroach hleaf =>
        rw [not_isMaster_of_approach happroach] at hmaster
        simp at hmaster
    | shut happroach hentry =>
        rcases content_of_entry hentry with ⟨hshallow, _, rfl⟩ | ⟨_, rfl⟩
        · exact Or.inr (Or.inl ⟨hshallow, rfl⟩)
        · exact Or.inr (Or.inr rfl)
  · intro hmaster
    rw [Element.id, hid] at hmaster
    cases h with
    | givenUp happroach =>
        obtain ⟨_, hunknown⟩ := unknown_of_approach happroach
        rw [content_of_approach happroach]
        simp only [Element.frame_leaf, Contents.leafContent, hunknown]
    | leaf happroach hleaf =>
        obtain ⟨declared, hknown⟩ := known_of_approach happroach
        exact leaf_eq_leafContent (Nat.le_trans hstop hlength) hmaster hknown hleaf
    | shut happroach hentry =>
        rw [isMaster_of_approach happroach] at hmaster
        simp at hmaster

/-- A container that was entered says what its bytes say. -/
theorem Opens.contained_transcribed
    {kept : Bool}
    {contents : Stretch}
    (hopens : Opens c v zone pos heading)
    (hlength : zone.stop ≤ c.length)
    (happroach : Scan.approach v s zone (zone.frameAt pos heading) = .goesOn .asMaster)
    (hentry : Scan.entry v s zone (zone.frameAt pos heading) seen = .goesOn kept) :
    ((zone.frameAt pos heading).contained kept contents).Transcribes c v s := by
  have hmaster := isMaster_of_approach happroach
  refine ⟨hopens.transcribes_heading hlength ?_ ?_ ?_, ?_, ?_⟩
  · rw [Frame.contained_frame, Frame.closedAt_id, Zone.frameAt_id]
  · rw [Frame.contained_frame, Frame.closedAt_heading, Zone.frameAt_heading]
  · rw [Frame.contained_frame, Frame.closedAt_declared, Zone.frameAt_declared]
  · intro _
    cases kept with
    | true => exact Or.inl ⟨contents.elements, rfl⟩
    | false => exact Or.inr (Or.inl ⟨((bounds_of_entry hentry).2 rfl).1, rfl⟩)
  · intro hleaf
    rw [Element.id, Frame.contained_frame, Frame.closedAt_id, hmaster] at hleaf
    simp at hleaf

theorem Element.transcribed_of_heading
    (h : element.Transcribes c v s)
    (hheading : 0 < element.frame.heading.length) :
    element.Transcribed c v s above :=
  ⟨fun _ => h, fun hnone => absurd hheading (by omega)⟩

/-- Every element of a stretch says what its bytes say. -/
theorem Reads.transcribed
    {r : Stretch}
    (h : Reads c v s zone pos seen r)
    (hlength : zone.stop ≤ c.length)
    (hroom : zone.isOpen = false → zone.stop = Frame.room above c.length) :
    ∀ x ∈ r.elements.nodes above, x.2.Transcribed c v s x.1 := by
  induction h generalizing above with
  | ended hend => simp [Forest.nodes]
  | closed hinside hreads hopen hcloses => simp [Forest.nodes]
  | @unreadable zone pos seen reason hinside hreads hdeclared hlenient =>
      intro x hmem
      obtain rfl : x = (above, .placeholder pos (zone.stop - pos) reason) := by
        simpa [Element.placeholder, Forest.cons, Forest.nodes] using hmem
      refine ⟨fun hheading => absurd hheading (Nat.lt_irrefl 0), fun _ => ⟨?_, reason, rfl, ?_⟩⟩
      · rw [← hroom hdeclared]
        simp only [Element.stop, Element.placeholder, Element.frame_leaf, Span.stop]
        omega
      · exact Contents.decode_of_headingAt_error hinside hreads
  | @leaf zone pos seen heading element rest hopens hsettles hrest ih =>
      obtain ⟨frame, content, rfl⟩ := hsettles.exists_leaf
      have hheading : 0 < (Element.leaf frame content).frame.heading.length := by
        obtain ⟨htwo, _⟩ := hopens.bounds
        rw [hsettles.keeps.2.1, Zone.frameAt_heading]
        exact Nat.lt_of_lt_of_le Nat.two_pos htwo
      intro x hmem
      rw [Forest.cons, Forest.nodes, List.mem_cons] at hmem
      rcases hmem with rfl | hmem
      · exact Element.transcribed_of_heading (hsettles.transcribed hopens hlength) hheading
      · exact ih hlength hroom x hmem
  | @entered zone pos seen kept heading frame contents rest hopens hframe happroach hentry
      hcontents hrest ihContents ihRest =>
      subst hframe
      obtain ⟨htwo, _⟩ := hopens.bounds
      obtain ⟨_, _, hstop⟩ := hopens.data_bounds
      have hheading :
          0 < ((zone.frameAt pos heading).contained kept contents).frame.heading.length := by
        rw [Frame.contained_frame, Frame.closedAt_heading, Zone.frameAt_heading]
        exact Nat.lt_of_lt_of_le Nat.two_pos htwo
      have hroomInside : (zone.inside (zone.frameAt pos heading)).isOpen = false →
          (zone.inside (zone.frameAt pos heading)).stop =
            Frame.room ((zone.frameAt pos heading).closedAt contents.stop :: above) c.length := by
        intro hdeclared
        rw [Zone.inside_isOpen, beq_eq_false_iff_ne] at hdeclared
        rw [Zone.inside_stop, Frame.room, Frame.closedAt, if_neg hdeclared]
      intro x hmem
      rw [Forest.nodes_cons, List.mem_cons, List.mem_append] at hmem
      rcases hmem with rfl | hmem | hmem
      · exact Element.transcribed_of_heading
          (hopens.contained_transcribed hlength happroach hentry) hheading
      · cases kept with
        | true => exact ihContents (Nat.le_trans hstop hlength) hroomInside x hmem
        | false => simp [Frame.contained, Element.children, Forest.nodes] at hmem
      · exact ihRest hlength hroom x hmem

end Elements

namespace Buffered

/-- An element of a scan whose heading was read has the ID, the declared size and the length
of the heading that stands where it starts.  When it is a container, it has children, or was
passed over in a shallow scan, or stands too deep; when it is none, it holds what its whole
payload stands for, unless that was clipped or of unknown size.  Every other element stands in
for all bytes up to the end of its container, with the defect of these bytes. -/
theorem scan_transcribed
    {b : Buffered}
    {v : Vocabulary}
    {s : Settings}
    {forest : Forest}
    {above : List Frame}
    {e : Element}
    (hb : b.Exact)
    (h : (b.scan v s).1 = .ok forest)
    (hmem : (above, e) ∈ forest.nodes []) :
    (0 < e.frame.heading.length → e.Transcribes b.device.toContents v s) ∧
      (e.frame.heading.length = 0 →
        e.StandsIn b.device.toContents (Frame.room above b.length)) := by
  obtain ⟨r, hreads, rfl⟩ := Contents.scan_eq_ok_iff.mp (hb.scan_eq h)
  exact hreads.transcribed (Nat.le_refl _) (fun _ => rfl) _ hmem

/-- A cluster with a timestamp of nine bytes, and a byte behind it that begins no heading: the
first has the defect that decoding all nine bytes gives, the second a stand-in. -/
theorem scan_transcribed_wide :
    let b := ofBytes
      [0x18, 0x53, 0x80, 0x67, 0x91, 0x1F, 0x43, 0xB6, 0x75, 0x8C,
        0xE7, 0x89, 0x00, 0x00, 0x00, 0x00, 0x00, 0x00, 0x00, 0x00, 0x05, 0x00]
    let segment : Frame := ⟨0x18538067, ⟨0, 5⟩, .known 17, ⟨5, 17⟩, none⟩
    let cluster : Frame := ⟨0x1F43B675, ⟨5, 5⟩, .known 12, ⟨10, 12⟩, none⟩
    let wide : Element :=
      .leaf ⟨0xE7, ⟨10, 2⟩, .known 9, ⟨12, 9⟩, none⟩ (.corrupt (.integerWidth 9))
    let rest : Element := .placeholder 21 1 .idUnmarked
    let forest : Forest :=
      .master segment (.master cluster (.cons wide (.cons rest .nil)) .nil) .nil
    b.Exact ∧ (b.scan Matroska.vocabulary {}).1 = .ok forest ∧
      ([cluster, segment], wide) ∈ forest.nodes [] ∧
      ([cluster, segment], rest) ∈ forest.nodes [] ∧
      0 < wide.frame.heading.length ∧ wide.Transcribes b.device.toContents Matroska.vocabulary {} ∧
      rest.frame.heading.length = 0 ∧ rest.StandsIn b.device.toContents 22 := by
  intro b segment cluster wide rest forest
  have hexact : b.Exact := (ofBytes_faithful _).exact
  have hscan : (b.scan Matroska.vocabulary {}).1 = .ok forest := by decide +kernel
  have hwide : ([cluster, segment], wide) ∈ forest.nodes [] := by decide +kernel
  have hrest : ([cluster, segment], rest) ∈ forest.nodes [] := by decide +kernel
  have hheading : 0 < wide.frame.heading.length := by decide
  refine ⟨hexact, hscan, hwide, hrest, hheading, ?_, rfl, ?_⟩
  · exact (scan_transcribed hexact hscan hwide).1 hheading
  · exact (scan_transcribed hexact hscan hrest).2 rfl

end Buffered

end EbmlReport
