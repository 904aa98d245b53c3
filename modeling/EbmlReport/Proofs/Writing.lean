import EbmlReport.Matroska.Specification
import EbmlReport.Proofs.Headings
import EbmlReport.Proofs.Reading
import EbmlReport.Proofs.Stream

/-!
# Reading undoes writing

A draft says what is to be written: elements side by side, with the widths of their IDs
and sizes, and for each container whether its size is left unknown.  `Draft.encode` are
its bytes and `Draft.forest` the elements that stand in them.

A container of unknown size is found again when no child of it closes it and the next
heading in the same declared container does.  That heading may come after the end of
several containers, so `Draft.Bounded` hands it down to all of them.

**Results.**
* `Contents.headingAt_of_holds`: a written heading is read where it stands.
* `Draft.reads`: a stretch that holds a draft is read as its elements.
* `Buffered.scan_encode`: a scan of a written draft gives its elements.
-/

namespace EbmlReport

/-- Elements to be written side by side. -/
inductive Draft
  | nil
  | leaf (id : Varint) (sizeLength : Nat) (payload : Bytes) (value : Value) (rest : Draft)
  /-- A container, which is open when its size is written as unknown. -/
  | master (id : Varint) (isOpen : Bool) (sizeLength : Nat) (children rest : Draft)
deriving DecidableEq, Repr

/-- The frame of an element at `pos` with that heading and so many bytes of payload. -/
def Heading.frame (h : Heading) (pos length : Nat) : Frame where
  id := h.id
  heading := ⟨pos, h.length⟩
  declared := h.size
  data := ⟨pos + h.length, length⟩
  error := none

/-- The value of a leaf with that ID and payload.  Of an opaque payload the length and
a preview are kept. -/
def Vocabulary.valueOf (v : Vocabulary) (id : Nat) (payload : Bytes) : Except Defect Value :=
  match v.kind id with
  | .binary => .ok (.binary payload.length (payload.take (v.previewLength id)))
  | kind => Value.decode kind payload

namespace Draft

/-- The heading of an element whose payload has that length. -/
def heading (id : Varint) (isOpen : Bool) (sizeLength length : Nat) : Heading where
  id := id.value
  idLength := id.length
  size := if isOpen then .unknown else .known length
  sizeLength := sizeLength

/-- The bytes of a draft. -/
def encode : Draft → Bytes
  | nil => []
  | leaf id sizeLength payload _ rest =>
      (heading id false sizeLength payload.length).encode ++ (payload ++ rest.encode)
  | master id isOpen sizeLength children rest =>
      (heading id isOpen sizeLength children.encode.length).encode ++
        (children.encode ++ rest.encode)

/-- The elements of a draft that is written at `pos`. -/
def forest : Draft → (pos : Nat) → Forest
  | nil, _ => .nil
  | leaf id sizeLength payload value rest, pos =>
      let frame := (heading id false sizeLength payload.length).frame pos payload.length
      .leaf frame (.value value) (rest.forest frame.data.stop)
  | master id isOpen sizeLength children rest, pos =>
      let length := children.encode.length
      let frame := (heading id isOpen sizeLength length).frame pos length
      .master frame (children.forest frame.data.start) (rest.forest frame.data.stop)

/-- The IDs of a draft, without those below. -/
def ids : Draft → List Nat
  | nil => []
  | leaf id _ _ _ rest => id.value :: rest.ids
  | master id _ _ _ rest => id.value :: rest.ids

/-- A draft that can be written and fits a vocabulary: each heading is well formed, the
payload of each leaf has a value, and containers are nested less than `maxDepth` deep. -/
def Legal (v : Vocabulary) (maxDepth : Nat) : Draft → (depth : Nat) → Prop
  | nil, _ => True
  | leaf id sizeLength payload value rest, depth =>
      (heading id false sizeLength payload.length).Legal ∧
        v.isMaster id.value = false ∧
        v.valueOf id.value payload = .ok value ∧
        (v.kind id.value = .ascii ∨ v.kind id.value = .utf8 →
          payload.length ≤ Scan.maxTextLength) ∧
        rest.Legal v maxDepth depth
  | master id isOpen sizeLength children rest, depth =>
      (heading id isOpen sizeLength children.encode.length).Legal ∧
        v.isMaster id.value = true ∧
        depth < maxDepth ∧
        children.Legal v maxDepth (depth + 1) ∧
        rest.Legal v maxDepth depth

/-- The ends of open containers show.  No child of one closes it, and the next heading
before the end of the declared container around it does, if there is any; behind the
draft that is `after`. -/
def Bounded (v : Vocabulary) : Draft → (path : List Nat) → (after : Option Nat) → Prop
  | nil, _, _ => True
  | leaf _ _ _ _ rest, path, after => rest.Bounded v path after
  | master id isOpen _ children rest, path, after =>
      let next := rest.ids.head?.or after
      (isOpen = true →
        (∀ child ∈ children.ids, v.closes (id.value :: path) child = false) ∧
          ∀ follower ∈ next, v.closes (id.value :: path) follower = true) ∧
        children.Bounded v (id.value :: path) (if isOpen then next else none) ∧
        rest.Bounded v path after

instance decidableLegal (v : Vocabulary) (maxDepth : Nat) :
    (d : Draft) → (depth : Nat) → Decidable (d.Legal v maxDepth depth)
  | nil, _ => inferInstanceAs (Decidable True)
  | leaf _ _ _ _ rest, depth =>
      have := decidableLegal v maxDepth rest depth
      inferInstanceAs (Decidable (_ ∧ _ ∧ _ ∧ _ ∧ _))
  | master _ _ _ children rest, depth =>
      have := decidableLegal v maxDepth children (depth + 1)
      have := decidableLegal v maxDepth rest depth
      inferInstanceAs (Decidable (_ ∧ _ ∧ _ ∧ _ ∧ _))

instance decidableBounded (v : Vocabulary) :
    (d : Draft) → (path : List Nat) → (after : Option Nat) → Decidable (d.Bounded v path after)
  | nil, _, _ => inferInstanceAs (Decidable True)
  | leaf _ _ _ _ rest, path, after => decidableBounded v rest path after
  | master id isOpen _ children rest, path, after =>
      have := decidableBounded v children (id.value :: path)
        (if isOpen then rest.ids.head?.or after else none)
      have := decidableBounded v rest path after
      inferInstanceAs (Decidable (_ ∧ _ ∧ _))

end Draft

/-- The bytes stand in the contents at `pos`. -/
def Contents.Holds (c : Contents) (pos : Nat) (bytes : Bytes) : Prop :=
  c.slice pos bytes.length = bytes

/-- Where reading a zone comes to its end: there is nothing left of it, or the heading
there has the ID `after` and closes it. -/
inductive Zone.EndsAt (c : Contents) (v : Vocabulary) (zone : Zone) (pos : Nat) :
    (after : Option Nat) → Prop
  | exhausted (hstop : zone.stop = pos) : zone.EndsAt c v pos none
  | before
      {heading : Heading}
      (hinside : pos < zone.stop)
      (hreads : c.headingAt zone.stop pos = .ok heading)
      (hopen : zone.isOpen = true)
      (hcloses : v.closes zone.path heading.id = true) :
      zone.EndsAt c v pos (some heading.id)

namespace Contents

variable {c : Contents} {pos : Nat}

theorem holds_append {front back : Bytes} :
    c.Holds pos (front ++ back) ↔ c.Holds pos front ∧ c.Holds (pos + front.length) back := by
  unfold Holds
  rw [List.length_append, ← slice_append]
  constructor
  · intro h
    exact List.append_inj h (length_slice ..)
  · rintro ⟨hfront, hback⟩
    rw [hfront, hback]

/-- A written heading is read where it stands. -/
theorem headingAt_of_holds
    {stop : Nat}
    {h : Heading}
    (hh : h.Legal)
    (hholds : c.Holds pos h.encode)
    (hinside : pos + h.length ≤ stop) :
    c.headingAt stop pos = .ok h := by
  have hmax := hh.le_maxLength
  obtain ⟨more, hmore⟩ : ∃ more, min Heading.maxLength (stop - pos) = h.length + more :=
    ⟨min Heading.maxLength (stop - pos) - h.length, by omega⟩
  unfold Holds at hholds
  rw [Heading.length_encode] at hholds
  rw [headingAt, hmore, ← slice_append, hholds, Scan.heading, Heading.decode_encode hh]

theorem slice_of_holds
    {bytes : Bytes}
    {length : Nat}
    (h : c.Holds pos bytes)
    (hlength : length ≤ bytes.length) :
    c.slice pos length = bytes.take length := by
  have htake := c.take_drop_slice pos bytes.length (by omega : 0 + length ≤ bytes.length)
  rw [h, List.drop_zero, Nat.add_zero] at htake
  exact htake.symm

end Contents

section Elements

variable {c : Contents} {v : Vocabulary} {s : Settings} {zone : Zone} {pos length : Nat}
  {h : Heading}

/-- A payload that has a value is not too long. -/
theorem lengthDefect?_eq_none
    {id : Nat}
    {payload : Bytes}
    {value : Value}
    (hvalue : v.valueOf id payload = .ok value)
    (htext : v.kind id = .ascii ∨ v.kind id = .utf8 → payload.length ≤ Scan.maxTextLength) :
    Scan.lengthDefect? (v.kind id) payload.length = none := by
  unfold Vocabulary.valueOf at hvalue
  cases hkind : v.kind id with
  | master => rfl
  | binary => rfl
  | ascii =>
      have hshort := htext (Or.inl hkind)
      exact if_neg (Nat.not_lt.mpr hshort)
  | utf8 =>
      have hshort := htext (Or.inr hkind)
      exact if_neg (Nat.not_lt.mpr hshort)
  | unsigned =>
      by_cases hlong : 8 < payload.length
      · simp [hkind, Value.decode, Value.decodeUnsigned, hlong, Except.map] at hvalue
      · exact if_neg hlong
  | signed =>
      by_cases hlong : 8 < payload.length
      · simp [hkind, Value.decode, Value.decodeSigned, hlong, Except.map] at hvalue
      · exact if_neg hlong
  | float =>
      by_cases hlong : 8 < payload.length
      · simp only [hkind, Value.decode, Value.decodeFloat] at hvalue
        split at hvalue
        · omega
        · omega
        · omega
        · simp [Except.map] at hvalue
      · exact if_neg hlong
  | date =>
      by_cases hlong : 8 < payload.length
      · simp only [hkind, Value.decode, Value.decodeDate] at hvalue
        split at hvalue
        · omega
        · omega
        · simp [Except.map] at hvalue
      · exact if_neg hlong

/-- A payload that has a value is read where it stands. -/
theorem leaf_of_holds
    {frame : Frame}
    {payload : Bytes}
    {value : Value}
    (herror : frame.error = none)
    (hdata : frame.data.length = payload.length)
    (hholds : c.Holds frame.data.start payload)
    (hinside : frame.data.stop ≤ c.length)
    (hvalue : v.valueOf frame.id payload = .ok value)
    (htext :
      v.kind frame.id = .ascii ∨ v.kind frame.id = .utf8 →
        payload.length ≤ Scan.maxTextLength) :
    (Scan.leaf v s frame .done).answer c = .ok (.leaf frame (.value value)) := by
  have hlength := lengthDefect?_eq_none hvalue htext
  rw [Span.stop, hdata] at hinside
  have hwhole : c.slice frame.data.start payload.length = payload := hholds
  unfold Vocabulary.valueOf at hvalue
  unfold Scan.leaf
  simp only [herror, hdata, hlength]
  cases hkind : v.kind frame.id with
  | binary =>
      simp only [hkind, Except.ok.injEq] at hvalue
      have hpreview := Contents.slice_of_holds hholds (Nat.min_le_right (v.previewLength frame.id) _)
      rw [List.take_eq_take_min] at hvalue
      refine Inquiry.answer_fetch_eq_ok.mpr ⟨by omega, ?_⟩
      rw [hpreview, hvalue]
      rfl
  | _ =>
      simp only [hkind] at hvalue
      refine Inquiry.answer_fetch_eq_ok.mpr ⟨hinside, ?_⟩
      rw [hwhole, hvalue]
      rfl

theorem Zone.frameAt_eq_frame
    (hsize : h.size = .known length)
    (hfits : pos + h.length + length ≤ zone.stop) :
    zone.frameAt pos h = h.frame pos length := by
  unfold frameAt Heading.frame
  rw [hsize]
  exact if_pos (by omega)

/-- A container that was read to the end of what was written in it has its frame. -/
theorem Zone.closedAt_eq_frame
    (hsize : h.size = .unknown ∨ h.size = .known length)
    (hfits : pos + h.length + length ≤ zone.stop) :
    (zone.frameAt pos h).closedAt (pos + h.length + length) = h.frame pos length := by
  rcases hsize with hunknown | hknown
  · unfold frameAt Frame.closedAt Heading.frame
    simp only [hunknown, if_pos, Nat.add_sub_cancel_left]
  · have hdeclared : (h.frame pos length).declared = .known length := hknown
    rw [frameAt_eq_frame hknown hfits, Frame.closedAt_of_known _ hdeclared]

/-- The element whose heading was written at `pos` is there to be read. -/
theorem Opens.of_holds
    (hh : h.Legal)
    (hholds : c.Holds pos h.encode)
    (hinside : pos + h.length ≤ zone.stop)
    (hstays : zone.isOpen = true → v.closes zone.path h.id = false) :
    Opens c v zone pos h where
  inside := by
    have htwo := hh.two_le
    omega
  reads := Contents.headingAt_of_holds hh hholds hinside
  stays := by
    cases hopen : zone.isOpen with
    | true => exact hstays hopen
    | false => rfl

/-- A written leaf is read as a leaf with its value. -/
theorem Settles.of_holds
    {payload : Bytes}
    {value : Value}
    {seen : Bool}
    (hsize : h.size = .known payload.length)
    (hfits : pos + h.length + payload.length ≤ zone.stop)
    (hstop : zone.stop ≤ c.length)
    (hholds : c.Holds (pos + h.length) payload)
    (hmaster : v.isMaster h.id = false)
    (hvalue : v.valueOf h.id payload = .ok value)
    (htext : v.kind h.id = .ascii ∨ v.kind h.id = .utf8 → payload.length ≤ Scan.maxTextLength) :
    Settles c v s zone (zone.frameAt pos h) seen
      (.leaf (h.frame pos payload.length) (.value value)) := by
  rw [Zone.frameAt_eq_frame hsize hfits]
  refine .leaf ?_ (leaf_of_holds rfl rfl hholds (Nat.le_trans hfits hstop) hvalue htext)
  have hid : (h.frame pos payload.length).id = h.id := rfl
  have hdeclared : (h.frame pos payload.length).declared ≠ .unknown := by
    rw [show (h.frame pos payload.length).declared = h.size from rfl, hsize]
    simp
  simp only [Scan.approach, hid, hmaster, if_neg hdeclared, Bool.false_eq_true, if_false]
  rfl

/-- A written container that does not stand too deep is read with its contents. -/
theorem Reads.of_holds
    {maxDepth : Nat}
    {recovery : Recovery}
    {contents rest : Forest}
    {stop : Nat}
    (hopens : Opens c v zone pos h)
    (hsize : h.size = .unknown ∨ h.size = .known length)
    (hfits : pos + h.length + length ≤ zone.stop)
    (hmaster : v.isMaster h.id = true)
    (hdepth : zone.depth < maxDepth)
    (hcontents :
      Reads c v ⟨false, maxDepth, recovery⟩ (zone.inside (zone.frameAt pos h)) (pos + h.length)
        false ⟨contents, pos + h.length + length, false⟩)
    (hrest :
      Reads c v ⟨false, maxDepth, recovery⟩ zone (pos + h.length + length) false
        ⟨rest, stop, false⟩) :
    Reads c v ⟨false, maxDepth, recovery⟩ zone pos false
      ⟨.master (h.frame pos length) contents rest, stop, false⟩ := by
  have herror : (zone.frameAt pos h).error = none := by
    rcases hsize with hunknown | hknown
    · exact (Zone.frameAt_of_unknown hunknown).2
    · rw [Zone.frameAt_eq_frame hknown hfits]
      rfl
  have happroach :
      Scan.approach v ⟨false, maxDepth, recovery⟩ zone (zone.frameAt pos h) =
        .goesOn .asMaster := by
    simp only [Scan.approach, herror, Zone.frameAt_id, hmaster, if_true]
  have hentry :
      Scan.entry v ⟨false, maxDepth, recovery⟩ zone (zone.frameAt pos h) (zone.carries false) =
        .goesOn true := by
    simp only [Scan.entry, if_neg (Nat.not_le.mpr hdepth), Bool.false_and, Bool.false_eq_true,
      if_false]
  have hclosed := Zone.closedAt_eq_frame hsize hfits
  have hstart := Zone.frameAt_data_start zone pos h
  have hbehind : ((zone.frameAt pos h).closedAt (pos + h.length + length)).data.stop =
      pos + h.length + length := by
    rw [hclosed]
    rfl
  have hread := Reads.entered hopens rfl happroach hentry (by rw [hstart]; exact hcontents)
    (by rw [hbehind]; exact hrest)
  simpa only [Frame.contained, if_true, hclosed, Forest.cons] using hread

end Elements

namespace Draft

variable {c : Contents} {v : Vocabulary} {zone : Zone} {pos maxDepth : Nat} {after : Option Nat}
  {id : Varint} {isOpen : Bool} {sizeLength length : Nat}

@[simp] theorem heading_id : (heading id isOpen sizeLength length).id = id.value := rfl

theorem heading_size :
    (heading id isOpen sizeLength length).size = .unknown ∨
      (heading id isOpen sizeLength length).size = .known length := by
  cases isOpen with
  | true => exact Or.inl rfl
  | false => exact Or.inr rfl

/-- The first heading of a draft is read where the draft stands. -/
theorem exists_heading
    {d : Draft}
    {depth stop first : Nat}
    (hfirst : d.ids.head? = some first)
    (hlegal : d.Legal v maxDepth depth)
    (hholds : c.Holds pos d.encode)
    (hinside : pos + d.encode.length ≤ stop) :
    pos < stop ∧ ∃ h : Heading, h.id = first ∧ c.headingAt stop pos = .ok h := by
  have hread : ∀ (h : Heading) (back : Bytes), h.Legal → d.encode = h.encode ++ back →
      h.id = first → pos < stop ∧ ∃ h : Heading, h.id = first ∧ c.headingAt stop pos = .ok h := by
    intro h back hh hencode hid
    rw [hencode] at hholds hinside
    rw [List.length_append, Heading.length_encode] at hinside
    have htwo := hh.two_le
    exact ⟨by omega, h, hid,
      Contents.headingAt_of_holds hh (Contents.holds_append.mp hholds).1 (by omega)⟩
  cases d with
  | nil => simp [ids] at hfirst
  | leaf id sizeLength payload value rest =>
      exact hread _ _ hlegal.1 rfl (by simpa [ids] using hfirst)
  | master id isOpen sizeLength children rest =>
      exact hread _ _ hlegal.1 rfl (by simpa [ids] using hfirst)

/-- An open zone inside another ends before what is written next in that one, or else
where that one ends. -/
theorem endsAt_inside
    {rest : Draft}
    {inner : Zone}
    {depth : Nat}
    (hlegal : rest.Legal v maxDepth depth)
    (hholds : c.Holds pos rest.encode)
    (hinside : pos + rest.encode.length ≤ zone.stop)
    (hends : zone.EndsAt c v (pos + rest.encode.length) after)
    (hstop : inner.stop = zone.stop)
    (hopen : inner.isOpen = true)
    (hcloses : ∀ follower ∈ rest.ids.head?.or after, v.closes inner.path follower = true) :
    inner.EndsAt c v pos (rest.ids.head?.or after) := by
  cases hfirst : rest.ids.head? with
  | some first =>
      rw [hfirst] at hcloses
      obtain ⟨hbefore, h, rfl, hreads⟩ := exists_heading hfirst hlegal hholds hinside
      rw [← hstop] at hbefore hreads
      exact .before hbefore hreads hopen (hcloses _ rfl)
  | none =>
      rw [hfirst, Option.none_or] at hcloses
      have hnil : rest.encode = [] := by
        cases rest with
        | nil => rfl
        | leaf => simp [ids] at hfirst
        | master => simp [ids] at hfirst
      rw [hnil, List.length_nil, Nat.add_zero] at hends
      cases hends with
      | exhausted hend => exact .exhausted (hstop.trans hend)
      | before hbefore hreads _ _ =>
          rw [← hstop] at hbefore hreads
          exact .before hbefore hreads hopen (hcloses _ rfl)

theorem inside_isOpen :
    (zone.inside (zone.frameAt pos (heading id isOpen sizeLength length))).isOpen = isOpen := by
  rw [Zone.inside_isOpen, Zone.frameAt_declared]
  cases isOpen <;> rfl

theorem inside_stop
    (hfits : pos + (heading id isOpen sizeLength length).length + length ≤ zone.stop) :
    (zone.inside (zone.frameAt pos (heading id isOpen sizeLength length))).stop =
      if isOpen then zone.stop
      else pos + (heading id isOpen sizeLength length).length + length := by
  rw [Zone.inside_stop]
  cases isOpen with
  | true =>
      have hunknown := (@Zone.frameAt_of_unknown zone pos (heading id true sizeLength length) rfl).1
      rw [Span.stop, hunknown, Zone.frameAt_data_start, if_pos rfl]
      omega
  | false =>
      have hframe :=
        @Zone.frameAt_eq_frame zone pos length (heading id false sizeLength length) rfl hfits
      rw [hframe]
      rfl

/-- The zone inside a container of a draft. -/
theorem inside_path :
    (zone.inside (zone.frameAt pos (heading id isOpen sizeLength length))).path =
      id.value :: zone.path := by
  rw [Zone.inside_path, Zone.frameAt_id, heading_id]

/-- A stretch that holds a draft is read as its elements. -/
theorem reads
    {d : Draft}
    {recovery : Recovery}
    (hholds : c.Holds pos d.encode)
    (hinside : pos + d.encode.length ≤ zone.stop)
    (hstop : zone.stop ≤ c.length)
    (hlegal : d.Legal v maxDepth zone.depth)
    (hbounded : d.Bounded v zone.path after)
    (hstays : zone.isOpen = true → ∀ id ∈ d.ids, v.closes zone.path id = false)
    (hends : zone.EndsAt c v (pos + d.encode.length) after) :
    Reads c v ⟨false, maxDepth, recovery⟩ zone pos false
      ⟨d.forest pos, pos + d.encode.length, false⟩ := by
  induction d generalizing zone pos after with
  | nil =>
      cases hends with
      | exhausted hend => exact .ended (Nat.le_of_eq hend)
      | before hbefore hreads hopen hcloses => exact .closed hbefore hreads hopen hcloses
  | leaf id sizeLength payload value rest ih =>
      obtain ⟨hh, hmaster, hvalue, htext, hlegal⟩ := hlegal
      simp only [encode, Contents.holds_append, List.length_append, Heading.length_encode,
        ← Nat.add_assoc] at hholds hinside hends ⊢
      obtain ⟨hheading, hpayload, hholds⟩ := hholds
      have hopens : Opens c v zone pos (heading id false sizeLength payload.length) :=
        .of_holds hh hheading (by omega) fun hopen => hstays hopen _ List.mem_cons_self
      have hsettles :
          Settles c v ⟨false, maxDepth, recovery⟩ zone
            (zone.frameAt pos (heading id false sizeLength payload.length)) (zone.carries false)
            (.leaf ((heading id false sizeLength payload.length).frame pos payload.length)
              (.value value)) :=
        .of_holds rfl (by omega) hstop hpayload hmaster hvalue htext
      have hrest := @ih zone _ after hholds hinside hstop hlegal hbounded
        (fun hopen other hother => hstays hopen other (List.mem_cons_of_mem _ hother)) hends
      have hread := Reads.leaf hopens hsettles hrest
      exact hread
  | master id isOpen sizeLength children rest ihChildren ihRest =>
      obtain ⟨hh, hmaster, hdepth, hlegalChildren, hlegalRest⟩ := hlegal
      obtain ⟨hcloses, hboundedChildren, hboundedRest⟩ := hbounded
      simp only [encode, Contents.holds_append, List.length_append, Heading.length_encode,
        ← Nat.add_assoc] at hholds hinside hends ⊢
      obtain ⟨hheading, hchildren, hholds⟩ := hholds
      have hfits : pos + (heading id isOpen sizeLength children.encode.length).length +
          children.encode.length ≤ zone.stop := by omega
      have hopens : Opens c v zone pos (heading id isOpen sizeLength children.encode.length) :=
        .of_holds hh hheading (by omega) fun hopen => hstays hopen _ List.mem_cons_self
      have hrest := @ihRest zone _ after hholds hinside hstop hlegalRest hboundedRest
        (fun hopen other hother => hstays hopen other (List.mem_cons_of_mem _ hother)) hends
      refine Reads.of_holds hopens heading_size hfits hmaster hdepth ?_ hrest
      have hopenInside := @inside_isOpen zone pos id isOpen sizeLength children.encode.length
      have hstopInside := @inside_stop zone pos id isOpen sizeLength _ hfits
      have hpathInside := @inside_path zone pos id isOpen sizeLength children.encode.length
      generalize zone.inside (zone.frameAt pos
        (heading id isOpen sizeLength children.encode.length)) = inner at *
      -- The contents of an open container end before whatever is written next.
      refine @ihChildren inner _ (if isOpen then rest.ids.head?.or after else none) hchildren
        ?_ ?_ ?_ ?_ ?_ ?_
      · rw [hstopInside]
        split
        · exact hfits
        · exact Nat.le_refl _
      · rw [hstopInside]
        split
        · exact hstop
        · exact Nat.le_trans hfits hstop
      · rw [Zone.depth, hpathInside]
        exact hlegalChildren
      · rw [hpathInside]
        exact hboundedChildren
      · rw [hopenInside, hpathInside]
        intro hopen
        exact (hcloses hopen).1
      · cases isOpen with
        | true =>
            refine endsAt_inside hlegalRest hholds hinside hends hstopInside hopenInside ?_
            rw [hpathInside]
            exact (hcloses rfl).2
        | false => exact .exhausted hstopInside

end Draft

namespace Buffered

/-- A full scan of a written draft gives its elements, whatever is done about defects. -/
theorem scan_encode
    {b : Buffered}
    {v : Vocabulary}
    {maxDepth : Nat}
    {recovery : Recovery}
    {d : Draft}
    (hb : b.Faithful)
    (hcontents : b.device.slice 0 b.length = d.encode)
    (hlegal : d.Legal v maxDepth 0)
    (hbounded : d.Bounded v [] none) :
    (b.scan v ⟨false, maxDepth, recovery⟩).1 = .ok (d.forest 0) := by
  have hlength : d.encode.length = b.length := by
    rw [← hcontents, Contents.length_slice]
  have hholds : b.device.toContents.Holds 0 d.encode := by
    unfold Contents.Holds
    rw [hlength]
    exact hcontents
  rw [hb.scan_eq, Contents.scan_eq_ok_iff]
  refine ⟨⟨d.forest 0, 0 + d.encode.length, false⟩, ?_, rfl⟩
  refine Draft.reads hholds ?_ (Nat.le_refl _) hlegal hbounded (by simp) (.exhausted ?_)
  · rw [hlength, Nat.zero_add]
    exact Nat.le_refl _
  · rw [hlength, Nat.zero_add]
    rfl

/-- A segment, a cluster and a group of unknown size: the cues end the group and the
cluster, and the end of the stream ends the segment. -/
theorem scan_encode_cues :
    let d : Draft :=
      .leaf ⟨0xEC, 1⟩ 2 [0x00, 0x00] (.binary 2 [0x00, 0x00])
        (.master ⟨0x18538067, 4⟩ true 8
          (.master ⟨0x1F43B675, 4⟩ true 1
            (.leaf ⟨0xE7, 1⟩ 1 [0x05] (.unsigned 5)
              (.master ⟨0xA0, 1⟩ true 2 (.leaf ⟨0x9B, 1⟩ 1 [0x01, 0x00] (.unsigned 256) .nil) .nil))
            (.master ⟨0x1C53BB6B, 4⟩ false 1
              (.master ⟨0xBB, 1⟩ false 3 (.leaf ⟨0xB3, 1⟩ 1 [0x07] (.unsigned 7) .nil) .nil) .nil))
          .nil)
    let b := ofBytes
      [0xEC, 0x40, 0x02, 0x00, 0x00,
        0x18, 0x53, 0x80, 0x67, 0x01, 0xFF, 0xFF, 0xFF, 0xFF, 0xFF, 0xFF, 0xFF,
        0x1F, 0x43, 0xB6, 0x75, 0xFF, 0xE7, 0x81, 0x05, 0xA0, 0x7F, 0xFF, 0x9B, 0x82, 0x01, 0x00,
        0x1C, 0x53, 0xBB, 0x6B, 0x87, 0xBB, 0x20, 0x00, 0x03, 0xB3, 0x81, 0x07]
    b.Faithful ∧ b.device.slice 0 b.length = d.encode ∧ d.Legal Matroska.vocabulary 3 0 ∧
      d.Bounded Matroska.vocabulary [] none ∧
      (b.scan Matroska.vocabulary ⟨false, 3, .strict⟩).1 = .ok (d.forest 0) := by
  intro d b
  have hfaithful : b.Faithful := ofBytes_faithful _
  have hcontents : b.device.slice 0 b.length = d.encode := by decide +kernel
  have hlegal : d.Legal Matroska.vocabulary 3 0 := by decide +kernel
  have hbounded : d.Bounded Matroska.vocabulary [] none := by decide +kernel
  exact ⟨hfaithful, hcontents, hlegal, hbounded,
    scan_encode hfaithful hcontents hlegal hbounded⟩

end Buffered

end EbmlReport
