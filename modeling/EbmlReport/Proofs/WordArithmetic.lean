import EbmlReport.Matroska.Specification
import EbmlReport.Proofs.Headings
import EbmlReport.Proofs.Reading
import EbmlReport.Proofs.Stream

/-!
# Scans in words

Offsets and lengths are words of 64 bits, and the length of a heading is a byte.  A scan adds and
subtracts them without a check.  Here is the same scan with every operation checked: a sum has to
fit its word, a difference may not be negative, a slice has to lie inside the bytes it is cut
from, and a piece that is asked for inside the stream.  Before each element, the position may not
be behind the end of the zone, nor that end behind the end of the stream.  Where a check fails,
the checked scan ends at once and without a result.

No check ever fails.  That rests on what is between a position and the end of its zone: a heading
is read from bytes in front of that end, so its payload begins there at the latest, and a
container is as deep as there are headings in front of it, at most.

**Results.**
* `Checked.frameAt_eq`, `Checked.leaf_confirmed`, `Checked.element_confirmed`: the parts of a scan.
* `Checked.siblings_confirmed`: what reading one element preserves, and so a whole run.
* `Inquiry.Confirmed.run`: whatever a stream delivers, a confirmed inquiry finds no check failed.
* `Buffered.checkedScan_eq_scan`: the law for a stream.
-/

namespace EbmlReport

/-- An inquiry that has no result where a check fails. -/
abbrev Inquiry.Checked (α : Type) : Type := Inquiry (Option α)

namespace Checked

variable {α β : Type}

/-- Words are below this. -/
def wordLimit : Nat := 2 ^ 64

/-- Bytes are below this. -/
def byteLimit : Nat := 2 ^ 8

/-- The sum, if it is below the limit. -/
def add? (limit a b : Nat) : Option Nat :=
  if a + b < limit then some (a + b) else none

/-- The difference, if it is not negative. -/
def sub? (a b : Nat) : Option Nat :=
  if b ≤ a then some (a - b) else none

/-- The sum of words, or the largest word. -/
def saturatingAdd (a b : Nat) : Nat :=
  min (a + b) (wordLimit - 1)

/-- The bytes behind the first `count`, if there are so many. -/
def drop? (bytes : Bytes) (count : Nat) : Option Bytes :=
  if count ≤ bytes.length then some (bytes.drop count) else none

/-- The first `count` bytes, if there are so many. -/
def take? (bytes : Bytes) (count : Nat) : Option Bytes :=
  if count ≤ bytes.length then some (bytes.take count) else none

/-- Goes on with what an operation gives. -/
def given (result : Option β) (next : β → Inquiry.Checked α) : Inquiry.Checked α :=
  match result with
  | some value => next value
  | none => .done none

/-- Goes on where a condition holds. -/
def demand (p : Prop) [Decidable p] (next : Inquiry.Checked α) : Inquiry.Checked α :=
  if p then next else .done none

section Parts

variable (v : Vocabulary) (s : Settings) (size : Nat)

/-- Asks for bytes inside a stream of the given size.  Where they begin there may be a window to
fill, up to the end of the stream. -/
def fetch (offset length : Nat) (next : Bytes → Inquiry.Checked α) : Inquiry.Checked α :=
  given (add? wordLimit offset length) fun stop =>
    demand (stop ≤ size) <|
      given (sub? size offset) fun _ => .fetch offset length next

/-- Asks for at most `most` bytes in front of `limit`. -/
def fetchUpTo (offset most limit : Nat) (next : Bytes → Inquiry.Checked α) : Inquiry.Checked α :=
  fetch size offset (min (min limit size) (saturatingAdd offset most) - offset) next

/-- The heading at the start of `bytes`. -/
def heading (bytes : Bytes) : Option (Except Defect Heading) :=
  match Heading.decodeId bytes with
  | .error reason => some (.error reason)
  | .ok none => some (.error .cutShort)
  | .ok (some id) => do
      let rest ← drop? bytes id.length
      match Heading.decodeSize rest with
      | .error reason => some (.error reason)
      | .ok none => some (.error .cutShort)
      | .ok (some (declared, sizeLength)) =>
          let _ ← add? byteLimit id.length sizeLength
          some (.ok ⟨id.value, id.length, declared, sizeLength⟩)

/-- The offset one past a span. -/
def stop (span : Span) : Option Nat :=
  add? wordLimit span.start span.length

/-- The frame of an element whose heading was read at `pos`. -/
def frameAt (zone : Zone) (pos : Nat) (heading : Heading) : Option Frame := do
  let start ← stop ⟨pos, heading.length⟩
  let available ← sub? zone.stop start
  match heading.size with
  | .known length =>
      if length ≤ available then
        some ⟨heading.id, ⟨pos, heading.length⟩, heading.size, ⟨start, length⟩, none⟩
      else
        some ⟨heading.id, ⟨pos, heading.length⟩, heading.size, ⟨start, available⟩,
          some (.overrunsParent length available)⟩
  | .unknown =>
      some ⟨heading.id, ⟨pos, heading.length⟩, heading.size, ⟨start, available⟩, none⟩

/-- The zone inside a container. -/
def inside (zone : Zone) (frame : Frame) : Option Zone := do
  let _ ← add? wordLimit zone.depth 1
  let dataStop ← stop frame.data
  some ⟨frame.id :: zone.path, frame.declared == .unknown, dataStop⟩

/-- The frame of a container once its zone has been read up to `stop`. -/
def closedAt (frame : Frame) (stop : Nat) : Option Frame :=
  if frame.declared = .unknown then do
    let length ← sub? stop frame.data.start
    some { frame with data := ⟨frame.data.start, length⟩ }
  else some frame

/-- Reads text up to the first zero byte. -/
def text (bytes : Bytes) : Option (Except Defect Value) := do
  let front ← take? bytes (bytes.findIdx (· == 0))
  match String.fromUTF8? front.toByteArray with
  | some string => some (.ok (.text string))
  | none => some (.error .notUtf8)

/-- Reads a whole payload of the given kind. -/
def decode (kind : Kind) (bytes : Bytes) : Option (Except Defect Value) :=
  match kind with
  | .ascii => text bytes
  | .utf8 => text bytes
  | kind => some (Value.decode kind bytes)

/-- Reads the payload of a leaf. -/
def leaf (frame : Frame) (next : Element → Inquiry.Checked α) : Inquiry.Checked α :=
  match frame.error with
  | some reason => next (.leaf { frame with error := none } (.corrupt reason))
  | none =>
      let length := frame.data.length
      match v.kind frame.id, Scan.lengthDefect? (v.kind frame.id) length with
      | _, some reason => Scan.finishLeaf s frame (.error reason) next
      | .binary, none =>
          given (stop frame.data) fun dataStop =>
            fetchUpTo size frame.data.start (v.previewLength frame.id) dataStop fun preview =>
              Scan.finishLeaf s frame (.ok (.binary length preview)) next
      | kind, none =>
          fetch size frame.data.start length fun bytes =>
            given (decode kind bytes) fun payload => Scan.finishLeaf s frame payload next

/-- Reads the element of the zone that has the given frame.  Its contents are read by `below`, and
what comes behind it is read by `proceed`. -/
def element (zone : Zone) (frame : Frame) (seen : Bool)
    (proceed : Element → (seen : Bool) → Inquiry.Checked α)
    (below : Zone → (pos : Nat) → (seen : Bool) → (Stretch → Inquiry.Checked α) →
      Inquiry.Checked α) : Inquiry.Checked α :=
  match Scan.approach v s zone frame with
  | .fails offset reason => .fail offset reason
  | .settles content => proceed (.leaf frame content) seen
  | .goesOn .asLeaf => .checkpoint <| leaf v s size frame fun element => proceed element seen
  | .goesOn .asMaster =>
      .checkpoint <|
        match Scan.entry v s zone frame seen with
        | .fails offset reason => .fail offset reason
        | .settles content => proceed (.leaf frame content) seen
        | .goesOn kept =>
            given (inside zone frame) fun inner =>
              below inner frame.data.start (Scan.seenInside v s frame seen) fun contents =>
                given (closedAt frame contents.stop) fun closed =>
                  proceed
                    (if kept then .master closed contents.elements else .leaf closed .skipped)
                    contents.seen

/-- Reads the elements of a zone from `pos` on and hands them to `next`.  It is a failed check,
too, when the fuel ends before the zone does. -/
def siblings : (fuel : Nat) → (zone : Zone) → (pos : Nat) → (seen : Bool) →
    (next : Stretch → Inquiry.Checked α) → Inquiry.Checked α
  | 0, zone, pos, seen, next =>
      demand (pos = zone.stop ∧ zone.stop ≤ size) <| next ⟨.nil, pos, seen⟩
  | fuel + 1, zone, pos, seen, next =>
      demand (pos ≤ zone.stop ∧ zone.stop ≤ size) <|
        if zone.stop ≤ pos then next ⟨.nil, pos, seen⟩
        else
          .checkpoint <| fetchUpTo size pos Heading.maxLength zone.stop fun bytes =>
            given (heading bytes) fun
              | .error reason =>
                  if zone.isOpen then .fail pos .boundaryUnresolvable
                  else if s.isStrict then .fail pos reason
                  else
                    given (sub? zone.stop pos) fun length =>
                      let rest := Element.placeholder pos length reason
                      next ⟨.cons rest .nil, zone.stop, seen⟩
              | .ok heading =>
                  if zone.isOpen && v.closes zone.path heading.id then next ⟨.nil, pos, seen⟩
                  else
                    given (frameAt zone pos heading) fun frame =>
                      element v s size zone frame (seen && !zone.path.isEmpty)
                        (fun element seen =>
                          given (stop element.frame.data) fun pos =>
                            siblings fuel zone pos seen fun rest =>
                              next { rest with elements := .cons element rest.elements })
                        (fun zone pos seen next => siblings fuel zone pos seen next)

/-- Reads a whole stream. -/
def whole : Inquiry.Checked Forest :=
  siblings v s size size ⟨[], false, size⟩ 0 false fun stretch => .done (some stretch.elements)

end Parts

end Checked

/-- The elements read from a stream by the checked scan, and the stream afterwards. -/
def Buffered.checkedScan (b : Buffered) (v : Vocabulary) (s : Settings) :
    Except Failure (Option Forest) × Buffered :=
  (Checked.whole v s b.length).run b

/-- The checked inquiry asks what the other one does and has its result, as long as each answer
has the length that was asked for. -/
inductive Inquiry.Confirmed {α : Type} : Inquiry.Checked α → Inquiry α → Prop
  | done (result : α) : Confirmed (.done (some result)) (.done result)
  | fail (offset : Nat) (reason : Defect) : Confirmed (.fail offset reason) (.fail offset reason)
  | checkpoint
      {checked : Inquiry.Checked α} {plain : Inquiry α}
      (hnext : Confirmed checked plain) :
      Confirmed (.checkpoint checked) (.checkpoint plain)
  | fetch
      {offset length : Nat} {checked : Bytes → Inquiry.Checked α} {plain : Bytes → Inquiry α}
      (hnext : ∀ bytes : Bytes, bytes.length = length → Confirmed (checked bytes) (plain bytes)) :
      Confirmed (.fetch offset length checked) (.fetch offset length plain)

namespace Checked

variable {α β : Type}

section Operations

variable {limit a b count size offset length most : Nat} {bytes : Bytes}

theorem add?_of_lt (h : a + b < limit) : add? limit a b = some (a + b) :=
  if_pos h

theorem sub?_of_le (h : b ≤ a) : sub? a b = some (a - b) :=
  if_pos h

theorem drop?_of_le (h : count ≤ bytes.length) : drop? bytes count = some (bytes.drop count) :=
  if_pos h

theorem take?_of_le (h : count ≤ bytes.length) : take? bytes count = some (bytes.take count) :=
  if_pos h

@[simp] theorem given_some (value : β) (next : β → Inquiry.Checked α) :
    given (some value) next = next value := rfl

theorem demand_of {p : Prop} [Decidable p] {next : Inquiry.Checked α} (h : p) :
    demand p next = next :=
  if_pos h

variable {checked : Bytes → Inquiry.Checked α} {plain : Bytes → Inquiry α}

/-- A piece inside the stream is asked for. -/
theorem fetch_confirmed
    (hsize : size < wordLimit)
    (hinside : offset + length ≤ size)
    (hnext : ∀ bytes : Bytes, bytes.length = length →
      Inquiry.Confirmed (checked bytes) (plain bytes)) :
    Inquiry.Confirmed (fetch size offset length checked) (.fetch offset length plain) := by
  rw [fetch, add?_of_lt (Nat.lt_of_le_of_lt hinside hsize), given_some, demand_of hinside,
    sub?_of_le (Nat.le_trans (Nat.le_add_right _ _) hinside), given_some]
  exact .fetch hnext

/-- Cutting a piece off at a limit inside the stream leaves it inside, also when its end is beyond
the largest word. -/
theorem fetchUpTo_confirmed
    {stop : Nat}
    (hsize : size < wordLimit)
    (hoffset : offset ≤ stop)
    (hstop : stop ≤ size)
    (hnext : ∀ bytes : Bytes, bytes.length = min most (stop - offset) →
      Inquiry.Confirmed (checked bytes) (plain bytes)) :
    Inquiry.Confirmed (fetchUpTo size offset most stop checked)
      (.fetch offset (min most (stop - offset)) plain) := by
  have hlength : min (min stop size) (saturatingAdd offset most) - offset =
      min most (stop - offset) := by
    rw [saturatingAdd]
    omega
  rw [fetchUpTo, hlength]
  exact fetch_confirmed hsize (by omega) hnext

end Operations

section Parts

variable {v : Vocabulary} {s : Settings} {size : Nat} {zone : Zone} {pos : Nat} {frame : Frame}
  {seen : Bool}

/-- The size of an element is read behind its ID, and both are short. -/
theorem heading_eq (bytes : Bytes) : heading bytes = some (Scan.heading bytes) := by
  unfold heading Scan.heading Heading.decode
  cases hid : Heading.decodeId bytes with
  | error reason => rfl
  | ok found =>
      cases found with
      | none => rfl
      | some id =>
          obtain ⟨hdecode, hshort⟩ := Heading.decodeId_eq_some_iff.mp hid
          obtain ⟨_, _, hlength⟩ := Varint.decode_bounds hdecode
          simp only [drop?_of_le hlength, Option.bind_eq_bind, Option.bind_some]
          cases hsize : Heading.decodeSize (bytes.drop id.length) with
          | error reason => rfl
          | ok found =>
              rcases found with _ | ⟨declared, sizeLength⟩
              · rfl
              · obtain ⟨size, hdecode, _, rfl⟩ := Heading.decodeSize_eq_some_iff.mp hsize
                obtain ⟨_, hwidth, _⟩ := Varint.decode_bounds hdecode
                have hsum : id.length + size.length < byteLimit := by
                  rw [Heading.maxIdLength] at hshort
                  rw [byteLimit]
                  omega
                simp only [add?_of_lt hsum, Option.bind_some]

/-- A heading in front of the end of its zone has its payload there, too. -/
theorem frameAt_eq
    {heading : Heading}
    (hstop : zone.stop < wordLimit)
    (hinside : pos + heading.length ≤ zone.stop) :
    frameAt zone pos heading = some (zone.frameAt pos heading) := by
  rw [frameAt, stop, add?_of_lt (Nat.lt_of_le_of_lt hinside hstop), Option.bind_eq_bind,
    Option.bind_some, sub?_of_le hinside, Option.bind_some, Zone.frameAt]
  cases heading.size with
  | known length => dsimp only; split <;> rfl
  | unknown => rfl

theorem inside_eq
    (hdepth : zone.depth + 1 < wordLimit)
    (hstop : frame.data.stop < wordLimit) :
    inside zone frame = some (zone.inside frame) := by
  rw [inside, add?_of_lt hdepth, stop, add?_of_lt hstop]
  rfl

theorem closedAt_eq
    {stop : Nat}
    (hstop : frame.data.start ≤ stop) :
    closedAt frame stop = some (frame.closedAt stop) := by
  rw [closedAt, sub?_of_le hstop, Frame.closedAt]
  split <;> rfl

theorem text_eq (bytes : Bytes) : text bytes = some ((Value.decodeText bytes).map .text) := by
  have hfront : bytes.takeWhile (· != 0) = bytes.take (bytes.findIdx (· == 0)) := by
    rw [List.takeWhile_eq_take_findIdx_not]
    simp [bne]
  rw [text, take?_of_le List.findIdx_le_length, Value.decodeText, hfront, Option.bind_eq_bind,
    Option.bind_some]
  cases String.fromUTF8? (bytes.take (bytes.findIdx (· == 0))).toByteArray <;> rfl

theorem decode_eq (kind : Kind) (bytes : Bytes) :
    decode kind bytes = some (Value.decode kind bytes) := by
  cases kind with
  | ascii => exact text_eq bytes
  | utf8 => exact text_eq bytes
  | _ => rfl

end Parts

section Runs

variable {v : Vocabulary} {s : Settings} {size fuel : Nat} {zone : Zone} {pos : Nat}
  {frame : Frame} {seen : Bool}

section Leaves

variable {checked : Element → Inquiry.Checked α} {plain : Element → Inquiry α}

theorem finishLeaf_confirmed
    {payload : Except Defect Value}
    (hnext : ∀ element, element.stop = frame.data.stop →
      Inquiry.Confirmed (checked element) (plain element)) :
    Inquiry.Confirmed (Scan.finishLeaf s frame payload checked)
      (Scan.finishLeaf s frame payload plain) := by
  cases payload with
  | ok value => exact hnext _ rfl
  | error reason =>
      simp only [Scan.finishLeaf]
      split
      · exact .fail _ _
      · exact hnext _ rfl

/-- Of a leaf only what lies inside its payload is asked for. -/
theorem leaf_confirmed
    (hsize : size < wordLimit)
    (hdata : frame.data.stop ≤ size)
    (hnext : ∀ element, element.stop = frame.data.stop →
      Inquiry.Confirmed (checked element) (plain element)) :
    Inquiry.Confirmed (leaf v s size frame checked) (Scan.leaf v s frame plain) := by
  have hlength : frame.data.stop - frame.data.start = frame.data.length := by
    rw [Span.stop, Nat.add_sub_cancel_left]
  unfold leaf Scan.leaf
  cases frame.error with
  | some reason => exact hnext _ rfl
  | none =>
      dsimp only
      generalize v.kind frame.id = kind
      cases Scan.lengthDefect? kind frame.data.length with
      | some reason => exact finishLeaf_confirmed hnext
      | none =>
          by_cases hbinary : kind = .binary
          · subst hbinary
            have hstop : stop frame.data = some frame.data.stop :=
              add?_of_lt (Nat.lt_of_le_of_lt hdata hsize)
            simp only [hstop, given_some, ← hlength]
            exact fetchUpTo_confirmed hsize (Nat.le_add_right _ _) hdata fun bytes _ =>
              finishLeaf_confirmed hnext
          · cases kind <;> try contradiction
            all_goals
              refine fetch_confirmed hsize hdata fun bytes _ => ?_
              rw [decode_eq, given_some]
              exact finishLeaf_confirmed hnext

end Leaves

variable {next : Stretch → Inquiry.Checked α} {plain : Stretch → Inquiry α}

/-- A container ends where its contents do, or with its payload. -/
theorem contained_bounds
    {contents : Stretch}
    (kept : Bool)
    (hlow : frame.data.start ≤ contents.stop)
    (hhigh : contents.stop ≤ frame.data.stop) :
    frame.data.start ≤ (frame.contained kept contents).stop ∧
      (frame.contained kept contents).stop ≤ frame.data.stop := by
  rw [Element.stop, Frame.contained_frame]
  cases hdeclared : frame.declared with
  | known length =>
      rw [Frame.closedAt_of_known contents.stop hdeclared]
      exact ⟨Nat.le_add_right _ _, Nat.le_refl _⟩
  | unknown =>
      rw [Frame.closedAt_stop_of_unknown hdeclared hlow]
      exact ⟨hlow, hhigh⟩

/-- An element is read with no check failed, when that holds of what is below and behind it. -/
theorem element_confirmed
    {proceed : Element → Bool → Inquiry.Checked α}
    {below : Zone → Nat → Bool → (Stretch → Inquiry.Checked α) → Inquiry.Checked α}
    (hsize : size < wordLimit)
    (hdepth : zone.depth + 1 < wordLimit)
    (hdata : frame.data.stop ≤ size)
    (hproceed : ∀ element seen,
      frame.data.start ≤ element.stop → element.stop ≤ frame.data.stop →
        Inquiry.Confirmed (proceed element seen) (Scan.proceed v s fuel zone plain element seen))
    (hbelow : ∀ seen next plain,
      (∀ r : Stretch, frame.data.start ≤ r.stop → r.stop ≤ frame.data.stop →
        Inquiry.Confirmed (next r) (plain r)) →
      Inquiry.Confirmed (below (zone.inside frame) frame.data.start seen next)
        (Scan.siblings v s fuel (zone.inside frame) frame.data.start seen plain)) :
    Inquiry.Confirmed (element v s size zone frame seen proceed below)
      (Scan.element v s fuel zone frame seen plain) := by
  have hstart : frame.data.start ≤ frame.data.stop := Nat.le_add_right _ _
  unfold element Scan.element
  cases Scan.approach v s zone frame with
  | fails offset reason => exact .fail _ _
  | settles content => exact hproceed _ _ hstart (Nat.le_refl _)
  | goesOn how =>
      cases how with
      | asLeaf =>
          refine .checkpoint (leaf_confirmed hsize hdata fun element hstop => ?_)
          exact hproceed _ _ (hstop ▸ hstart) (Nat.le_of_eq hstop)
      | asMaster =>
          refine .checkpoint ?_
          cases Scan.entry v s zone frame seen with
          | fails offset reason => exact .fail _ _
          | settles content => exact hproceed _ _ hstart (Nat.le_refl _)
          | goesOn kept =>
              dsimp only
              rw [inside_eq hdepth (Nat.lt_of_le_of_lt hdata hsize), given_some]
              refine hbelow _ _ _ fun contents hlow hhigh => ?_
              rw [closedAt_eq hlow, given_some]
              obtain ⟨hlow, hhigh⟩ := contained_bounds kept hlow hhigh
              exact hproceed _ _ hlow hhigh

/-- Reading a zone inside the stream fails no check, when what comes after it does not.  A zone
is as deep as there are headings in front of it, at most. -/
theorem siblings_confirmed
    (hsize : size < wordLimit)
    (hstop : zone.stop ≤ size)
    (hpos : pos ≤ zone.stop)
    (hdepth : zone.depth ≤ pos)
    (hfuel : zone.stop ≤ pos + fuel)
    (hnext : ∀ r : Stretch, pos ≤ r.stop → r.stop ≤ zone.stop →
      Inquiry.Confirmed (next r) (plain r)) :
    Inquiry.Confirmed (siblings v s size fuel zone pos seen next)
      (Scan.siblings v s fuel zone pos seen plain) := by
  induction fuel generalizing zone pos seen next plain with
  | zero =>
      rw [siblings, Scan.siblings, demand_of ⟨Nat.le_antisymm hpos hfuel, hstop⟩]
      exact hnext _ (Nat.le_refl _) hpos
  | succ fuel ih =>
      rw [siblings, Scan.siblings, demand_of ⟨hpos, hstop⟩]
      split
      · exact hnext _ (Nat.le_refl _) hpos
      · refine .checkpoint (fetchUpTo_confirmed hsize hpos hstop fun bytes hbytes => ?_)
        rw [heading_eq, given_some]
        cases hfound : Scan.heading bytes with
        | error reason =>
            dsimp only
            split
            · exact .fail _ _
            · split
              · exact .fail _ _
              · rw [sub?_of_le hpos, given_some]
                exact hnext _ hpos (Nat.le_refl _)
        | ok heading =>
            obtain ⟨htwo, _, hlength⟩ := Heading.decode_bounds (Scan.heading_eq_ok hfound)
            have hinside : pos + heading.length ≤ zone.stop := by omega
            have hstart := zone.frameAt_data_start pos heading
            have hdata := @Zone.frameAt_data_length_le zone pos heading
            dsimp only
            split
            · exact hnext _ (Nat.le_refl _) hpos
            · rw [frameAt_eq (Nat.lt_of_le_of_lt hstop hsize) hinside, given_some]
              have hend : (zone.frameAt pos heading).data.stop ≤ zone.stop := by
                rw [Span.stop]
                omega
              refine element_confirmed hsize (by omega) (Nat.le_trans hend hstop) ?_ ?_
              · intro element seen hlow hhigh
                have helement : stop element.frame.data = some element.stop :=
                  add?_of_lt (by change element.stop < wordLimit; omega)
                rw [helement, given_some]
                refine ih hstop (by omega) (by omega) (by omega) fun rest hrest hrest' => ?_
                exact hnext _ (by dsimp only; omega) hrest'
              · intro seen next plain hnext
                refine ih (Nat.le_trans hend hstop) (Nat.le_add_right _ _) ?_ ?_ hnext
                · rw [Zone.depth, Zone.inside_path, List.length_cons, ← Zone.depth]
                  omega
                · rw [Zone.inside_stop]
                  omega

end Runs

end Checked

namespace Buffered

variable {b : Buffered} {offset length : Nat} {bytes : Bytes}

theorem length_of_held? (h : b.held? offset length = some bytes) : bytes.length = length := by
  simp only [held?] at h
  split at h
  · rename_i hroom
    obtain rfl := Option.some.inj h
    simp only [Array.length_toList, Array.size_extract]
    omega
  · cases h

/-- A read gives as many bytes as it is asked for, whatever the window and the device hold. -/
theorem length_of_read (h : (b.read offset length).1 = .ok bytes) : bytes.length = length := by
  unfold read at h
  split at h
  · cases h
  · split at h
    · rename_i held hheld
      obtain rfl := Except.ok.inj h
      exact length_of_held? hheld
    · split at h
      · rw [fetch_eq_slice h, Contents.length_slice]
      · rcases refill_cases b offset length with
          ⟨cause, _, hrefill⟩ | ⟨fetched, moved, _, _, hrefill⟩
        · rw [hrefill] at h
          cases h
        · rw [hrefill] at h
          cases hheld : moved.held? offset length with
          | none =>
              rw [hheld] at h
              cases h
          | some held =>
              rw [hheld] at h
              obtain rfl := Except.ok.inj h
              exact length_of_held? hheld

end Buffered

/-- Whatever a stream delivers, a confirmed inquiry finds no check failed and does to the stream
what the plain one does. -/
theorem Inquiry.Confirmed.run
    {α : Type}
    {checked : Inquiry.Checked α}
    {plain : Inquiry α}
    (h : Confirmed checked plain)
    (b : Buffered) :
    checked.run b = ((plain.run b).1.map some, (plain.run b).2) := by
  induction h generalizing b with
  | done result => rfl
  | fail offset reason => rfl
  | checkpoint hnext ih =>
      simp only [Inquiry.run]
      split
      · rfl
      · exact ih b
  | @fetch offset length checked plain hnext ih =>
      simp only [Inquiry.run]
      cases hread : b.read offset length with
      | mk outcome after =>
          cases outcome with
          | error cause => rfl
          | ok bytes =>
              have hlength : bytes.length = length :=
                Buffered.length_of_read (b := b) (by rw [hread])
              exact ih bytes hlength after

namespace Buffered

/-- **No operation of a scan on offsets and lengths can go wrong.**  Let a stream have any length
that a word can hold, and do whatever it likes.  Then the scan that checks every operation finds
no check failed, and it is the scan. -/
theorem checkedScan_eq_scan
    (b : Buffered)
    (v : Vocabulary)
    (s : Settings)
    (hlength : b.length < 2 ^ 64) :
    (b.checkedScan v s).1 ≠ .ok none ∧
      b.checkedScan v s = ((b.scan v s).1.map some, (b.scan v s).2) := by
  have hwhole : Inquiry.Confirmed (Checked.whole v s b.length) (Scan.whole v s b.length) :=
    Checked.siblings_confirmed hlength (Nat.le_refl _) (Nat.zero_le _) (Nat.le_refl _)
      (by simp) fun stretch _ _ => .done stretch.elements
  have hrun : b.checkedScan v s = ((b.scan v s).1.map some, (b.scan v s).2) := hwhole.run b
  refine ⟨fun hfailed => ?_, hrun⟩
  rw [hrun] at hfailed
  cases hscan : (b.scan v s).1 <;> rw [hscan] at hfailed <;> cases hfailed

/-- The longest stream there is, with an element that declares the largest size there is and
nothing but zeros behind it. -/
theorem checkedScan_eq_scan_longest :
    let c : Contents :=
      ⟨2 ^ 64 - 1, fun i => [0xEC, 0x01, 0xFF, 0xFF, 0xFF, 0xFF, 0xFF, 0xFF, 0xFE].getD i 0⟩
    let b := ofDevice (.faithful c) false
    let s : Settings := ⟨false, 64, .bestEffort⟩
    b.length < 2 ^ 64 ∧
      (b.scan Matroska.vocabulary s).1 = .ok (.ofList
        [.leaf ⟨0xEC, ⟨0, 9⟩, .known (2 ^ 56 - 2), ⟨9, 2 ^ 56 - 2⟩, none⟩
            (.value (.binary (2 ^ 56 - 2) (.replicate 16 0))),
          .placeholder (2 ^ 56 + 7) (2 ^ 64 - 2 ^ 56 - 8) .idUnmarked]) ∧
      (b.checkedScan Matroska.vocabulary s).1 ≠ .ok none ∧
      b.checkedScan Matroska.vocabulary s =
        ((b.scan Matroska.vocabulary s).1.map some, (b.scan Matroska.vocabulary s).2) := by
  intro c b s
  have hb : b.Faithful := ofDevice_faithful (Device.faithful_reliable c)
  have hlength : b.length < 2 ^ 64 := by decide
  have hscan : c.scan Matroska.vocabulary s = .ok (.ofList
      [.leaf ⟨0xEC, ⟨0, 9⟩, .known (2 ^ 56 - 2), ⟨9, 2 ^ 56 - 2⟩, none⟩
          (.value (.binary (2 ^ 56 - 2) (.replicate 16 0))),
        .placeholder (2 ^ 56 + 7) (2 ^ 64 - 2 ^ 56 - 8) .idUnmarked]) := by
    decide +kernel
  exact ⟨hlength, (hb.scan_eq _ _).trans hscan, b.checkedScan_eq_scan _ _ hlength⟩

end Buffered

/-- One byte more than words can count, and a check fails: the end of a container of unknown size
does not fit. -/
example :
    (Checked.whole Matroska.vocabulary ⟨false, 64, .bestEffort⟩ (2 ^ 64)).answer
      ⟨2 ^ 64, fun i => [0x18, 0x53, 0x80, 0x67, 0xFF].getD i 0⟩ = .ok none := by
  decide +kernel

end EbmlReport
