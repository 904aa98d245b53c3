import EbmlReport.Scan

/-!
# Buffered streams read what the contents hold

A buffered stream answers questions from its window, and the window is filled by
fetches that may come in several pieces.  None of this shows in the bytes: as long as
the window agrees with the contents, a read that succeeds gives a slice of the
contents, and the window still agrees afterwards.

A stream is faithful when its device delivers something for every call inside the
contents and nobody cancels.  Such a stream answers an inquiry just as its contents do.

**Results.**
* `Buffered.Exact.of_read`: a successful read is a slice of the contents.
* `Buffered.Exact.answer_of_run`: an inquiry that a stream answers has the same result
  on the contents, whatever the device does.
* `Buffered.Faithful.run_eq_answer`: on a faithful stream the two results are equal.
-/

namespace EbmlReport

namespace Contents

variable (c : Contents)

@[simp] theorem slice_zero (offset : Nat) : c.slice offset 0 = [] := rfl

/-- A piece of a slice is a slice. -/
theorem take_drop_slice
    (offset length : Nat)
    {skipped taken : Nat}
    (h : skipped + taken ≤ length) :
    ((c.slice offset length).drop skipped).take taken = c.slice (offset + skipped) taken := by
  unfold slice
  rw [← List.map_drop, List.drop_range', ← List.map_take,
    List.take_range'_of_length_ge (by omega), Nat.mul_one]

end Contents

namespace Device

variable (d : Device)

/-- The call of that number brings something, wherever inside the contents it is made. -/
def Delivers (call : Nat) : Prop :=
  ∀ offset wanted, 0 < wanted → offset + wanted ≤ d.length →
    ∃ most, 0 < most ∧ d.reply call offset wanted = .delivers most

/-- No call inside the contents fails or comes back empty, and no call cancels the
scan.  Calls may still deliver less than they were asked for. -/
structure Reliable : Prop where
  delivers :
    ∀ call offset wanted, 0 < wanted → offset + wanted ≤ d.length →
      ∃ most, 0 < most ∧ d.reply call offset wanted = .delivers most
  quiet : ∀ call, d.cancelsAt call = false

/-- The device that delivers what it is asked for is reliable. -/
theorem faithful_reliable (c : Contents) : (faithful c).Reliable :=
  ⟨fun _ _ wanted hwanted _ => ⟨wanted, hwanted, rfl⟩, fun _ => rfl⟩

/-- What a pull brings is a slice of the contents, in however many calls it came. -/
theorem pull_eq_slice
    {fuel call offset wanted : Nat}
    {bytes : Bytes}
    (hfuel : wanted ≤ fuel)
    (h : (d.pull fuel call offset wanted).outcome = .ok bytes) :
    bytes = d.slice offset wanted := by
  induction fuel generalizing call offset wanted bytes with
  | zero =>
      obtain rfl : wanted = 0 := by omega
      simpa [pull] using h.symm
  | succ fuel ih =>
      by_cases hwanted : wanted = 0
      · subst hwanted
        simpa using h.symm
      · simp only [pull, if_neg hwanted] at h
        split at h
        · simp at h
        · rename_i most _
          split at h
          · simp at h
          · -- The call delivered `count` bytes; the rest is pulled by the calls after it.
            rename_i hcount
            generalize hc : min most (min wanted (d.length - offset)) = count at h hcount
            have hle : count ≤ wanted := by omega
            cases hrest :
                (d.pull fuel (call + 1) (offset + count) (wanted - count)).outcome with
            | error cause =>
                rw [hrest] at h
                simp [Except.map] at h
            | ok rest =>
                rw [hrest] at h
                simp only [Except.map, Except.ok.injEq] at h
                have hslice := ih (by omega) hrest
                rw [← h, hslice, d.slice_append, Nat.add_sub_cancel' hle]

/-- A piece inside the contents is brought when each of the calls for it delivers. -/
theorem pull_delivered
    {fuel call offset wanted : Nat}
    (hfuel : wanted ≤ fuel)
    (hinside : offset + wanted ≤ d.length)
    (h : ∀ made, call ≤ made → made < call + (d.pull fuel call offset wanted).calls.length →
      d.Delivers made) :
    (d.pull fuel call offset wanted).outcome = .ok (d.slice offset wanted) := by
  induction fuel generalizing call offset wanted with
  | zero =>
      obtain rfl : wanted = 0 := by omega
      simp
  | succ fuel ih =>
      by_cases hwanted : wanted = 0
      · subst hwanted
        simp
      · have hfirst : d.Delivers call := by
          refine h call (Nat.le_refl _) (Nat.lt_add_of_pos_right ?_)
          simp only [pull, if_neg hwanted]
          split
          · exact Nat.one_pos
          · split
            · exact Nat.one_pos
            · exact Nat.succ_pos _
        obtain ⟨most, hmost, hreply⟩ := hfirst offset wanted (by omega) hinside
        have hcount : min most (min wanted (d.length - offset)) ≠ 0 := by omega
        have hle : min most (min wanted (d.length - offset)) ≤ wanted := by omega
        simp only [pull, if_neg hwanted, hreply, if_neg hcount, List.length_cons] at h ⊢
        rw [ih (by omega) (by omega) fun made hlow hhigh => h made (by omega) (by omega)]
        simp only [Except.map]
        rw [d.slice_append, Nat.add_sub_cancel' hle]

/-- A reliable device brings every piece that lies inside the contents. -/
theorem Reliable.pull_outcome
    {d : Device}
    (hd : d.Reliable)
    {fuel call offset wanted : Nat}
    (hfuel : wanted ≤ fuel)
    (hinside : offset + wanted ≤ d.length) :
    (d.pull fuel call offset wanted).outcome = .ok (d.slice offset wanted) :=
  d.pull_delivered hfuel hinside fun made _ _ => hd.delivers made

/-- A reliable device never cancels while it is pulled from. -/
theorem Reliable.pull_cancelled
    {d : Device}
    (hd : d.Reliable)
    (fuel call offset wanted : Nat) :
    (d.pull fuel call offset wanted).cancelled = false := by
  induction fuel generalizing call offset wanted with
  | zero => rfl
  | succ fuel ih =>
      by_cases hwanted : wanted = 0
      · simp [pull, hwanted]
      · simp only [pull, if_neg hwanted]
        split
        · exact hd.quiet call
        · split
          · exact hd.quiet call
          · simp [hd.quiet call, ih]

end Device

namespace Buffered

/-- The window holds bytes of the contents, from where it starts. -/
def Exact (b : Buffered) : Prop :=
  b.window.toList = b.device.slice b.windowStart b.window.size

/-- A stream that can be read to its end: its window is right, its device reliable, and
the scan over it is not cancelled. -/
structure Faithful (b : Buffered) : Prop where
  exact : b.Exact
  reliable : b.device.Reliable
  live : b.cancelled = false

/-- A stream that has not been read yet holds nothing wrong. -/
theorem ofDevice_exact (d : Device) (cancelled : Bool) : (ofDevice d cancelled).Exact := rfl

/-- A reliable device makes a faithful stream. -/
theorem ofDevice_faithful {d : Device} (hd : d.Reliable) : (ofDevice d false).Faithful :=
  ⟨ofDevice_exact d false, hd, rfl⟩

/-- A stream over bytes in memory. -/
def ofBytes (bytes : Bytes) : Buffered :=
  ofDevice (.faithful (.ofBytes bytes)) false

theorem ofBytes_faithful (bytes : Bytes) : (ofBytes bytes).Faithful :=
  ofDevice_faithful (Device.faithful_reliable _)

variable {b : Buffered} {offset length : Nat} {bytes : Bytes}

@[simp] theorem fetch_device : (b.fetch offset length).2.device = b.device := rfl

theorem fetch_eq_slice (h : (b.fetch offset length).1 = .ok bytes) :
    bytes = b.device.slice offset length :=
  b.device.pull_eq_slice (Nat.le_refl length) h

/-- Bytes found in the window are those of the contents. -/
theorem Exact.of_held?
    (hb : b.Exact)
    (h : b.held? offset length = some bytes) :
    bytes = b.device.slice offset length := by
  simp only [held?] at h
  split at h
  · rename_i hin
    obtain ⟨hstart, hroom⟩ := hin
    have hb' : b.window.toList = b.device.slice b.windowStart b.window.size := hb
    simp only [Option.some.injEq] at h
    rw [← h, Array.toList_extract, List.extract_eq_take_drop, hb', Nat.add_sub_cancel_left,
      b.device.take_drop_slice _ _ hroom, Nat.add_sub_cancel' hstart]
  · simp at h

/-- A window that was moved to bytes fetched there agrees with the contents. -/
theorem exact_of_window
    (hstart : b.windowStart = offset)
    (hwindow : b.window = bytes.toArray)
    (hbytes : bytes = b.device.slice offset length) :
    b.Exact := by
  have hlength : bytes.length = length := by rw [hbytes]; simp
  unfold Exact
  rw [hwindow, hstart]
  simp only [List.size_toArray, hlength]
  exact hbytes

/-- A fetch changes neither the window nor the device. -/
theorem Exact.fetch (hb : b.Exact) (offset length : Nat) : (b.fetch offset length).2.Exact :=
  hb

/-- To move the window is to fetch as much as it can hold.  The fetch may be refused, and what
it brought may be too short for the piece. -/
theorem refill_cases (b : Buffered) (offset length : Nat) :
    (∃ cause,
      (b.fetch offset (min windowLength (b.length - offset))).1 = .error cause ∧
        b.refill offset length =
          (.error cause, (b.fetch offset (min windowLength (b.length - offset))).2)) ∨
      ∃ fetched moved,
        (b.fetch offset (min windowLength (b.length - offset))).1 = .ok fetched ∧
          moved = { (b.fetch offset (min windowLength (b.length - offset))).2 with
            windowStart := offset, window := fetched.toArray } ∧
          b.refill offset length =
            ((moved.held? offset length).elim (.error .windowShort) .ok, moved) := by
  unfold Buffered.refill
  cases b.fetch offset (min windowLength (b.length - offset)) with
  | mk outcome after =>
      cases outcome with
      | error cause => exact Or.inl ⟨cause, rfl, rfl⟩
      | ok fetched =>
          refine Or.inr ⟨fetched, _, rfl, rfl, ?_⟩
          dsimp only
          split
          · rename_i heq
            rw [heq]
            rfl
          · rename_i heq
            rw [heq]
            rfl

/-- Whether or not the window can be moved, it agrees with the contents afterwards. -/
theorem Exact.refill
    (hb : b.Exact)
    (offset length : Nat) :
    (b.refill offset length).2.Exact ∧
      (b.refill offset length).2.device = b.device ∧
      ∀ bytes, (b.refill offset length).1 = .ok bytes →
        bytes = b.device.slice offset length := by
  unfold Buffered.refill
  cases hfetch : b.fetch offset (min windowLength (b.length - offset)) with
  | mk outcome after =>
      have hafter : after = (b.fetch offset (min windowLength (b.length - offset))).2 := by
        rw [hfetch]
      cases outcome with
      | error cause =>
          refine ⟨?_, ?_, ?_⟩
          · rw [hafter]
            exact hb.fetch _ _
          · rw [hafter]
            exact fetch_device
          · intro bytes h
            simp at h
      | ok fetched =>
          have hslice := fetch_eq_slice (b := b) (by rw [hfetch])
          have hdevice : after.device = b.device := by
            rw [hafter]
            exact fetch_device
          have hmoved :
              Exact { after with windowStart := offset, window := fetched.toArray } :=
            exact_of_window rfl rfl (by rw [hslice, hdevice])
          dsimp only
          split
          · rename_i taken htaken
            refine ⟨hmoved, hdevice, ?_⟩
            intro bytes h
            simp only [Except.ok.injEq] at h
            rw [← h, hmoved.of_held? htaken, hdevice]
          · refine ⟨hmoved, hdevice, ?_⟩
            intro bytes h
            simp at h

/-- A read leaves the window right, and what it gives, if anything, are bytes of the
contents. -/
theorem Exact.of_read
    (hb : b.Exact)
    (offset length : Nat) :
    (b.read offset length).2.Exact ∧
      (b.read offset length).2.device = b.device ∧
      ∀ bytes, (b.read offset length).1 = .ok bytes →
        offset + length ≤ b.length ∧ bytes = b.device.slice offset length := by
  unfold Buffered.read
  split
  · refine ⟨hb, rfl, ?_⟩
    intro bytes h
    simp at h
  · rename_i hinside
    split
    · rename_i held hheld
      refine ⟨hb, rfl, ?_⟩
      intro bytes h
      simp only [Except.ok.injEq] at h
      exact ⟨by omega, by rw [← h, hb.of_held? hheld]⟩
    · split
      · refine ⟨hb.fetch _ _, fetch_device, ?_⟩
        intro bytes h
        exact ⟨by omega, fetch_eq_slice h⟩
      · obtain ⟨hexact, hdevice, hbytes⟩ := hb.refill offset length
        refine ⟨hexact, hdevice, ?_⟩
        intro bytes h
        exact ⟨by omega, hbytes bytes h⟩

/-- The result that a stream gives to an inquiry is the answer of its contents. -/
theorem Exact.answer_of_run
    {α : Type}
    (hb : b.Exact)
    {q : Inquiry α}
    {result : α}
    (h : (q.run b).1 = .ok result) :
    q.answer b.device.toContents = .ok result := by
  induction q generalizing b with
  | done value =>
      simpa [Inquiry.run, Inquiry.answer] using h
  | fail offset reason =>
      simp [Inquiry.run] at h
  | checkpoint next ih =>
      simp only [Inquiry.run] at h
      split at h
      · simp at h
      · exact ih hb h
  | fetch offset length next ih =>
      obtain ⟨hexact, hdevice, hbytes⟩ := hb.of_read offset length
      simp only [Inquiry.run] at h
      cases hread : b.read offset length with
      | mk outcome after =>
          rw [hread] at h hexact hdevice hbytes
          cases outcome with
          | error cause => simp at h
          | ok bytes =>
              obtain ⟨hinside, hslice⟩ := hbytes bytes rfl
              have hinside' : offset + length ≤ b.device.length := hinside
              have hnext := ih bytes hexact h
              rw [hslice, hdevice] at hnext
              simpa only [Inquiry.answer, if_neg (Nat.not_lt.mpr hinside')] using hnext

/-- A stream that fetches inside the contents gets its bytes and stays faithful. -/
theorem Faithful.fetch
    (hb : b.Faithful)
    (offset length : Nat) :
    (b.fetch offset length).2.Faithful ∧
      (offset + length ≤ b.length →
        (b.fetch offset length).1 = .ok (b.device.slice offset length)) := by
  refine ⟨⟨hb.exact.fetch _ _, hb.reliable, ?_⟩, ?_⟩
  · simp only [Buffered.fetch, hb.live, hb.reliable.pull_cancelled, Bool.or_false]
  · intro hinside
    exact hb.reliable.pull_outcome (Nat.le_refl length) hinside

/-- A faithful stream can move its window to any piece shorter than a window, and the
window then holds the piece. -/
theorem Faithful.refill
    (hb : b.Faithful)
    (hinside : offset + length ≤ b.length)
    (hshort : length < windowLength) :
    (b.refill offset length).2.Faithful ∧
      (b.refill offset length).1 = .ok (b.device.slice offset length) := by
  obtain ⟨hafter, houtcome⟩ := hb.fetch offset (min windowLength (b.length - offset))
  have hfetched := houtcome (by omega)
  obtain ⟨hexact, hdevice, hbytes⟩ := hb.exact.refill offset length
  unfold Buffered.refill at hexact hdevice hbytes ⊢
  cases hfetch : b.fetch offset (min windowLength (b.length - offset)) with
  | mk outcome after =>
      rw [hfetch] at hafter hfetched hexact hdevice hbytes
      dsimp only at hfetched
      subst hfetched
      have hheld : ∃ taken, held? { after with
            windowStart := offset
            window := (b.device.slice offset (min windowLength (b.length - offset))).toArray }
          offset length = some taken := by
        simp only [held?, List.size_toArray, Contents.length_slice]
        rw [if_pos (by omega)]
        exact ⟨_, rfl⟩
      obtain ⟨taken, htaken⟩ := hheld
      simp only [htaken] at hexact hdevice hbytes ⊢
      exact ⟨⟨hexact, hafter.reliable, hafter.live⟩, by rw [hbytes taken rfl]⟩

/-- On a faithful stream a read fails only outside the contents. -/
theorem Faithful.read
    (hb : b.Faithful)
    (offset length : Nat) :
    (b.read offset length).2.Faithful ∧
      (b.read offset length).1 =
        if b.length < offset + length then .error (.outOfBounds offset length b.length)
        else .ok (b.device.slice offset length) := by
  unfold Buffered.read
  split
  · exact ⟨hb, rfl⟩
  · rename_i hinside
    split
    · rename_i held hheld
      exact ⟨hb, by rw [hb.exact.of_held? hheld]⟩
    · split
      · obtain ⟨hafter, houtcome⟩ := hb.fetch offset length
        exact ⟨hafter, houtcome (by omega)⟩
      · exact hb.refill (by omega) (by omega)

/-- A faithful stream answers every inquiry as its contents do. -/
theorem Faithful.run_eq_answer
    {α : Type}
    (hb : b.Faithful)
    (q : Inquiry α) :
    (q.run b).1 = q.answer b.device.toContents := by
  induction q generalizing b with
  | done value => rfl
  | fail offset reason => rfl
  | checkpoint next ih =>
      simp only [Inquiry.run, Inquiry.answer, hb.live, Bool.false_eq_true, if_false]
      exact ih hb
  | fetch offset length next ih =>
      obtain ⟨hafter, houtcome⟩ := hb.read offset length
      obtain ⟨_, hdevice, _⟩ := hb.exact.of_read offset length
      simp only [Inquiry.run, Inquiry.answer]
      cases hread : b.read offset length with
      | mk outcome after =>
          rw [hread] at hafter houtcome hdevice
          dsimp only at hafter houtcome hdevice
          have hlength : b.length = b.device.length := rfl
          rw [hlength] at houtcome
          split at houtcome
          · rename_i houtside
            rw [houtcome, if_pos houtside]
          · rename_i hinside
            rw [houtcome, if_neg hinside, ← hdevice]
            exact ih _ hafter

/-- A scan of a stream has the result that a scan of its contents has. -/
theorem Exact.scan_eq
    {v : Vocabulary}
    {s : Settings}
    {forest : Forest}
    (hb : b.Exact)
    (h : (b.scan v s).1 = .ok forest) :
    b.device.toContents.scan v s = .ok forest :=
  hb.answer_of_run h

/-- A scan of a faithful stream is the scan of its contents. -/
theorem Faithful.scan_eq (hb : b.Faithful) (v : Vocabulary) (s : Settings) :
    (b.scan v s).1 = b.device.toContents.scan v s :=
  hb.run_eq_answer _

end Buffered

end EbmlReport
