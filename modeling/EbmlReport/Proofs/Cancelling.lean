import EbmlReport.Matroska.Specification
import EbmlReport.Proofs.Stream

/-!
# Cancelling a scan

The user may cancel a scan while one of its fetches is under way.  What was asked for
still arrives, or fails as it would have; then the scan comes to a checkpoint, or to its
end without asking for anything more.  That is so because a scan never asks twice without
a checkpoint in between (`Inquiry.Guarded`).

Each run is compared with the same run with nobody who cancels.  Up to the fetch during
which the scan is cancelled the two cannot be told apart.

**Results.**
* `Scan.whole_guarded`: before each question of a scan there is a checkpoint.
* `Buffered.Fetches.read`: what one read does to the log, the count of calls and the
  cancellation of a stream.
* `Inquiry.Guarded.run_cancelled`: a cancelled run makes no fetch after the one during
  which it was cancelled.
* `Buffered.scan_cancelled`: the law for scans.
-/

namespace EbmlReport

namespace Device

variable {d : Device} {made last : Nat}

/-- The same device, with nobody who cancels. -/
def quiet (d : Device) : Device :=
  { d with cancelsAt := fun _ => false }

/-- No call behind `made`, up to `last`, cancels the scan. -/
def QuietBetween (d : Device) (made last : Nat) : Prop :=
  ∀ call, made < call → call ≤ last → d.cancelsAt call = false

theorem quietBetween_self : d.QuietBetween made made := by
  intro call hlow hhigh
  omega

theorem quietBetween_succ : d.QuietBetween made (made + 1) ↔ d.cancelsAt (made + 1) = false := by
  constructor
  · intro h
    exact h (made + 1) (Nat.lt_succ_self made) (Nat.le_refl _)
  · intro h call hlow hhigh
    obtain rfl : call = made + 1 := by omega
    exact h

/-- A stretch of calls is quiet when its two parts are. -/
theorem quietBetween_iff (middle : Nat) (hfront : made ≤ middle) (hback : middle ≤ last) :
    d.QuietBetween made last ↔ d.QuietBetween made middle ∧ d.QuietBetween middle last := by
  constructor
  · intro h
    exact ⟨fun call hlow hhigh => h call hlow (by omega),
      fun call hlow hhigh => h call (by omega) hhigh⟩
  · rintro ⟨hquiet, hquiet'⟩ call hlow hhigh
    rcases Nat.lt_or_ge middle call with hlater | hearlier
    · exact hquiet' call hlater hhigh
    · exact hquiet call hlow hearlier

@[simp] theorem quiet_toContents : d.quiet.toContents = d.toContents := rfl

@[simp] theorem quiet_reply : d.quiet.reply = d.reply := rfl

@[simp] theorem quiet_cancelsAt (call : Nat) : d.quiet.cancelsAt call = false := rfl

/-- Being cancelled does not disturb a pull. -/
theorem pull_quiet (d : Device) (fuel call offset wanted : Nat) :
    d.quiet.pull fuel call offset wanted =
      { d.pull fuel call offset wanted with cancelled := false } := by
  induction fuel generalizing call offset wanted with
  | zero => rfl
  | succ fuel ih =>
      simp only [pull, ih, quiet_toContents, quiet_reply, quiet_cancelsAt, Bool.or_self]
      split
      · rfl
      · split
        · rfl
        · split
          · rfl
          · rfl

/-- A pull cancels the scan when one of its calls does. -/
theorem pull_cancelled_eq_false_iff (d : Device) (made fuel offset wanted : Nat) :
    (d.pull fuel (made + 1) offset wanted).cancelled = false ↔
      d.QuietBetween made (made + (d.pull fuel (made + 1) offset wanted).calls.length) := by
  induction fuel generalizing made offset wanted with
  | zero => exact iff_of_true rfl quietBetween_self
  | succ fuel ih =>
      simp only [pull]
      split
      · exact iff_of_true rfl quietBetween_self
      · split
        · exact quietBetween_succ.symm
        · split
          · exact quietBetween_succ.symm
          · -- The call that delivered something comes before those that fetch the rest.
            simp only [Bool.or_eq_false_iff, List.length_cons, ih, ← quietBetween_succ,
              ← Nat.add_assoc, Nat.add_right_comm _ _ 1]
            exact (quietBetween_iff _ (Nat.le_succ made) (Nat.le_add_right _ _)).symm

end Device

namespace Buffered

/-- The same stream, not cancelled and with nobody who cancels. -/
def quieted (b : Buffered) : Buffered :=
  { b with device := b.device.quiet, cancelled := false }

variable {b : Buffered}

theorem fetch_quieted (b : Buffered) (offset length : Nat) :
    b.quieted.fetch offset length =
      ((b.fetch offset length).1, (b.fetch offset length).2.quieted) := by
  simp only [Buffered.fetch, quieted, Device.pull_quiet, Bool.or_self]

theorem held?_quieted (b : Buffered) (offset length : Nat) :
    b.quieted.held? offset length = b.held? offset length := rfl

theorem refill_quieted (b : Buffered) (offset length : Nat) :
    b.quieted.refill offset length =
      ((b.refill offset length).1, (b.refill offset length).2.quieted) := by
  have hfetch := b.fetch_quieted offset (min windowLength (b.length - offset))
  unfold Buffered.refill
  rw [show b.quieted.length = b.length from rfl, hfetch]
  cases b.fetch offset (min windowLength (b.length - offset)) with
  | mk outcome after =>
      cases outcome with
      | error cause => rfl
      | ok bytes =>
          have hmoved :
              ({ after.quieted with windowStart := offset, window := bytes.toArray } : Buffered) =
                quieted { after with windowStart := offset, window := bytes.toArray } := rfl
          dsimp only
          rw [hmoved, held?_quieted]
          split
          · rfl
          · rfl

/-- Being cancelled does not disturb a read. -/
theorem read_quieted (b : Buffered) (offset length : Nat) :
    b.quieted.read offset length =
      ((b.read offset length).1, (b.read offset length).2.quieted) := by
  unfold Buffered.read
  rw [show b.quieted.length = b.length from rfl, held?_quieted]
  split
  · rfl
  · split
    · rfl
    · split
      · exact fetch_quieted b offset length
      · exact refill_quieted b offset length

/-- The fetches made between two states of a stream, first one first. -/
def fetchesSince (b after : Buffered) : List Fetch :=
  (after.log.take (after.log.length - b.log.length)).reverse

/-- How many read calls fetches took. -/
def readCalls (fetches : List Fetch) : Nat :=
  (fetches.flatMap Fetch.calls).length

/-- How a stream is left by fetches that were made on it, first one first. -/
structure Fetches (b : Buffered) (fetches : List Fetch) (after : Buffered) : Prop where
  device : after.device = b.device
  log : after.log = fetches.reverse ++ b.log
  calls : after.callCount = b.callCount + readCalls fetches
  live : after.cancelled = false ↔
    b.cancelled = false ∧ b.device.QuietBetween b.callCount after.callCount

@[simp] theorem readCalls_nil : readCalls [] = 0 := rfl

@[simp] theorem readCalls_cons (fetch : Fetch) (rest : List Fetch) :
    readCalls (fetch :: rest) = fetch.calls.length + readCalls rest := by
  simp [readCalls]

@[simp] theorem readCalls_append (front back : List Fetch) :
    readCalls (front ++ back) = readCalls front + readCalls back := by
  simp [readCalls]

namespace Fetches

variable {middle after : Buffered} {fetches later : List Fetch}

protected theorem refl (b : Buffered) : b.Fetches [] b where
  device := rfl
  log := rfl
  calls := rfl
  live := (and_iff_left Device.quietBetween_self).symm

protected theorem trans
    (hfront : b.Fetches fetches middle)
    (hback : middle.Fetches later after) :
    b.Fetches (fetches ++ later) after where
  device := hback.device.trans hfront.device
  log := by rw [hback.log, hfront.log, List.reverse_append, List.append_assoc]
  calls := by rw [hback.calls, hfront.calls, readCalls_append, Nat.add_assoc]
  live := by
    have hmiddle := hfront.calls
    have hafter := hback.calls
    have hquiet : b.device.QuietBetween b.callCount after.callCount ↔ _ :=
      Device.quietBetween_iff middle.callCount (by omega) (by omega)
    rw [hback.live, hfront.live, hfront.device, and_assoc, hquiet]

/-- The fetches are those that the log tells. -/
theorem fetchesSince_eq (h : b.Fetches fetches after) : b.fetchesSince after = fetches := by
  rw [fetchesSince, h.log, List.length_append, Nat.add_sub_cancel, List.take_left,
    List.reverse_reverse]

protected theorem unique
    (h : b.Fetches fetches after)
    (h' : b.Fetches later after) :
    fetches = later :=
  h.fetchesSince_eq.symm.trans h'.fetchesSince_eq

protected theorem quieted (h : b.Fetches fetches after) :
    b.quieted.Fetches fetches after.quieted where
  device := congrArg Device.quiet h.device
  log := h.log
  calls := h.calls
  live := iff_of_true rfl ⟨rfl, fun _ _ _ => rfl⟩

/-- A fetch of no bytes leaves no trace, any other is one entry of the log. -/
theorem fetch (b : Buffered) (offset length : Nat) :
    ∃ fetches, fetches.length ≤ 1 ∧ b.Fetches fetches (b.fetch offset length).2 := by
  have hlive := b.device.pull_cancelled_eq_false_iff b.callCount length offset length
  by_cases hlength : length = 0
  · subst hlength
    refine ⟨[], Nat.zero_le 1, rfl, ?_, ?_, ?_⟩
    · simp [Buffered.fetch]
    · simp [Buffered.fetch]
    · simp only [Buffered.fetch, Bool.or_eq_false_iff, hlive]
  · refine ⟨[⟨offset, length, (b.device.pull length (b.callCount + 1) offset length).calls⟩],
      Nat.le_refl 1, rfl, ?_, ?_, ?_⟩
    · simp only [Buffered.fetch, if_neg hlength, List.reverse_singleton, List.singleton_append]
    · simp [Buffered.fetch]
    · simp only [Buffered.fetch, Bool.or_eq_false_iff, hlive]

/-- Where the window is does not matter. -/
theorem move
    (h : b.Fetches fetches after)
    (windowStart : Nat)
    (window : Array UInt8) :
    b.Fetches fetches { after with windowStart, window } :=
  ⟨h.device, h.log, h.calls, h.live⟩

theorem refill (b : Buffered) (offset length : Nat) :
    ∃ fetches, fetches.length ≤ 1 ∧ b.Fetches fetches (b.refill offset length).2 := by
  obtain ⟨fetches, hcount, hfetch⟩ := fetch b offset (min windowLength (b.length - offset))
  refine ⟨fetches, hcount, ?_⟩
  unfold Buffered.refill
  cases hfetched : b.fetch offset (min windowLength (b.length - offset)) with
  | mk outcome after =>
      rw [hfetched] at hfetch
      cases outcome with
      | error cause => exact hfetch
      | ok bytes =>
          dsimp only
          split
          · exact hfetch.move _ _
          · exact hfetch.move _ _

/-- A read makes one fetch at most. -/
theorem read (b : Buffered) (offset length : Nat) :
    ∃ fetches, fetches.length ≤ 1 ∧ b.Fetches fetches (b.read offset length).2 := by
  unfold Buffered.read
  split
  · exact ⟨[], Nat.zero_le 1, Fetches.refl b⟩
  · split
    · exact ⟨[], Nat.zero_le 1, Fetches.refl b⟩
    · split
      · exact fetch b offset length
      · exact refill b offset length

/-- An inquiry makes its fetches one behind the other. -/
theorem run {α : Type} (q : Inquiry α) (b : Buffered) :
    ∃ fetches, b.Fetches fetches (q.run b).2 := by
  induction q generalizing b with
  | done result => exact ⟨[], Fetches.refl b⟩
  | fail offset reason => exact ⟨[], Fetches.refl b⟩
  | checkpoint next ih =>
      simp only [Inquiry.run]
      split
      · exact ⟨[], Fetches.refl b⟩
      · exact ih b
  | fetch offset length next ih =>
      obtain ⟨fetches, _, hread⟩ := read b offset length
      simp only [Inquiry.run]
      split
      · rename_i heq
        rw [heq] at hread
        exact ⟨fetches, hread⟩
      · rename_i bytes after heq
        rw [heq] at hread
        obtain ⟨later, hlater⟩ := ih bytes after
        exact ⟨fetches ++ later, hread.trans hlater⟩

end Fetches

end Buffered

namespace Inquiry

variable {α : Type}

/-- Every question has a checkpoint behind the question in front of it; `passed` tells
whether there was one since the last question. -/
def Guarded : (passed : Bool) → Inquiry α → Prop
  | _, done _ => True
  | _, fail _ _ => True
  | _, checkpoint next => next.Guarded true
  | passed, fetch _ _ next => passed = true ∧ ∀ bytes, (next bytes).Guarded false

namespace Guarded

variable {q : Inquiry α} {b : Buffered} {front rest : List Fetch} {fetch : Fetch}

/-- An inquiry that passes a checkpoint first may also come behind one. -/
theorem mono {passed : Bool} (h : q.Guarded false) : q.Guarded passed := by
  cases q with
  | done result => trivial
  | fail offset reason => trivial
  | checkpoint next => exact h
  | fetch offset length next => exact absurd h.1 Bool.false_ne_true

/-- Of a stream that is cancelled already nothing more is asked.  The inquiry comes to a
checkpoint, or to an end that no stream can change. -/
theorem run_of_cancelled
    (h : q.Guarded false)
    (hcancelled : b.cancelled = true) :
    (q.run b).2 = b ∧
      ((q.run b).1 = .error .cancelled ∨ ∀ other : Buffered, (q.run b).1 = (q.run other).1) := by
  cases q with
  | done result => exact ⟨rfl, Or.inr fun _ => rfl⟩
  | fail offset reason => exact ⟨rfl, Or.inr fun _ => rfl⟩
  | checkpoint next =>
      rw [run, if_pos hcancelled]
      exact ⟨rfl, Or.inl rfl⟩
  | fetch offset length next => exact absurd h.1 Bool.false_ne_true

end Guarded

end Inquiry

namespace Buffered

/-- The scan over `b` is cancelled by a read call of `fetch`, and not by a call of the
fetches `front` that are made before. -/
structure CancelledDuring (b : Buffered) (front : List Fetch) (fetch : Fetch) : Prop where
  before : b.device.QuietBetween b.callCount (b.callCount + readCalls front)
  during :
    ∃ call, b.callCount + readCalls front < call ∧
      call ≤ b.callCount + readCalls (front ++ [fetch]) ∧ b.device.cancelsAt call = true

namespace CancelledDuring

variable {b after : Buffered} {here front : List Fetch} {fetch : Fetch}

/-- A scan that is cancelled later on is not yet cancelled now. -/
theorem live
    (h : b.CancelledDuring (here ++ front) fetch)
    (hhere : b.Fetches here after)
    (hlive : b.cancelled = false) :
    after.cancelled = false := by
  have hcalls := hhere.calls
  refine hhere.live.mpr ⟨hlive, ?_⟩
  intro call hlow hhigh
  refine h.before call hlow ?_
  rw [readCalls_append]
  omega

/-- The fetches made by now need not be counted any more. -/
theorem step
    (h : b.CancelledDuring (here ++ front) fetch)
    (hhere : b.Fetches here after) :
    after.CancelledDuring front fetch := by
  obtain ⟨hbefore, hduring⟩ := h
  have hcalls : ∀ later, after.callCount + readCalls later =
      b.callCount + readCalls (here ++ later) := by
    intro later
    rw [hhere.calls, readCalls_append, Nat.add_assoc]
  rw [List.append_assoc] at hduring
  constructor
  · rw [hhere.device, hcalls]
    intro call hlow hhigh
    have hlater := hhere.calls
    exact hbefore call (by omega) hhigh
  · rw [hhere.device, hcalls, hcalls]
    exact hduring

/-- Once its fetch has been made the scan is cancelled. -/
theorem cancelled
    (h : b.CancelledDuring [] fetch)
    (hhere : b.Fetches [fetch] after) :
    after.cancelled = true := by
  cases hlive : after.cancelled with
  | true => rfl
  | false =>
      obtain ⟨call, hlow, hhigh, hcancels⟩ := h.during
      have hquiet := (hhere.live.mp hlive).2 call hlow (hhere.calls ▸ hhigh)
      simp [hquiet] at hcancels

end CancelledDuring

end Buffered

namespace Inquiry.Guarded

variable {α : Type} {q : Inquiry α} {b : Buffered} {front rest : List Fetch} {fetch : Fetch}

/-- A run makes no fetch behind the one during which it was cancelled, and it is cancelled
or has the result that it would have had. -/
theorem run_cancelled
    {passed : Bool}
    (h : q.Guarded passed)
    (hlive : b.cancelled = false)
    (hfetches : b.quieted.Fetches (front ++ fetch :: rest) (q.run b.quieted).2)
    (hcancelled : b.CancelledDuring front fetch) :
    b.Fetches (front ++ [fetch]) (q.run b).2 ∧
      ((q.run b).1 = .error .cancelled ∨ (q.run b).1 = (q.run b.quieted).1) := by
  induction q generalizing passed b front with
  | done result => simpa using hfetches.unique (.refl _)
  | fail offset reason => simpa using hfetches.unique (.refl _)
  | checkpoint next ih =>
      have hquieted : b.quieted.cancelled = false := rfl
      simp only [run, hlive, hquieted, Bool.false_eq_true, if_false] at hfetches ⊢
      exact ih h hlive hfetches hcancelled
  | fetch offset length next ih =>
      obtain ⟨here, hcount, hread⟩ := Buffered.Fetches.read b offset length
      simp only [run, Buffered.read_quieted] at hfetches ⊢
      cases hresult : b.read offset length with
      | mk outcome after =>
          rw [hresult] at hread hfetches
          cases outcome with
          | error cause =>
              -- The fetch failed for reasons of its own, and it was the last one anyway.
              obtain rfl := hfetches.unique hread.quieted
              simp only [List.length_append, List.length_cons] at hcount
              obtain rfl : front = [] := List.eq_nil_of_length_eq_zero (by omega)
              obtain rfl : rest = [] := List.eq_nil_of_length_eq_zero (by omega)
              exact ⟨hread, Or.inr rfl⟩
          | ok bytes =>
              obtain ⟨later, hlater⟩ := Buffered.Fetches.run (next bytes) after.quieted
              have hall := hfetches.unique (hread.quieted.trans hlater)
              have hgoesOn : ∀ behind, front = here ++ behind → later = behind ++ fetch :: rest →
                  b.Fetches (front ++ [fetch]) ((next bytes).run after).2 ∧
                    (((next bytes).run after).1 = .error .cancelled ∨
                      ((next bytes).run after).1 = ((next bytes).run after.quieted).1) := by
                rintro behind rfl rfl
                obtain ⟨hmade, hresult⟩ :=
                  ih bytes (h.2 bytes) (hcancelled.live hread hlive) hlater
                    (hcancelled.step hread)
                rw [List.append_assoc]
                exact ⟨hread.trans hmade, hresult⟩
              rcases List.append_eq_append_iff.mp hall with
                ⟨more, hhere, hmore⟩ | ⟨behind, hfront, hbehind⟩
              · cases more with
                | nil => exact hgoesOn [] (by rw [hhere, List.append_nil, List.append_nil]) hmore.symm
                | cons found more =>
                    obtain ⟨rfl, rfl⟩ := List.cons.inj hmore
                    subst hhere
                    simp only [List.length_append, List.length_cons] at hcount
                    obtain rfl : front = [] := List.eq_nil_of_length_eq_zero (by omega)
                    obtain rfl : more = [] := List.eq_nil_of_length_eq_zero (by omega)
                    obtain ⟨hstays, hresult⟩ :=
                      (h.2 bytes).run_of_cancelled (hcancelled.cancelled hread)
                    dsimp only
                    rw [hstays]
                    exact ⟨hread, hresult.imp_right fun hsame => hsame _⟩
              · exact hgoesOn behind hfront hbehind

end Inquiry.Guarded

namespace Scan

variable {v : Vocabulary} {s : Settings} {α : Type}

theorem finishLeaf_guarded
    {frame : Frame}
    {payload : Except Defect Value}
    {next : Element → Inquiry α}
    (hnext : ∀ element, (next element).Guarded false) :
    (finishLeaf s frame payload next).Guarded false := by
  unfold finishLeaf
  split
  · exact hnext _
  · split
    · trivial
    · exact hnext _

/-- A leaf asks once at most. -/
theorem leaf_guarded
    {frame : Frame}
    {next : Element → Inquiry α}
    (hnext : ∀ element, (next element).Guarded false) :
    (leaf v s frame next).Guarded true := by
  simp only [leaf]
  split
  · exact (hnext _).mono
  · split
    · exact (finishLeaf_guarded hnext).mono
    · exact ⟨rfl, fun _ => finishLeaf_guarded hnext⟩
    · exact ⟨rfl, fun _ => finishLeaf_guarded hnext⟩

/-- The elements of a zone are read with a checkpoint in front of each question. -/
theorem siblings_guarded
    {fuel : Nat}
    {zone : Zone}
    {pos : Nat}
    {seen : Bool}
    {next : Stretch → Inquiry α}
    (hnext : ∀ stretch, (next stretch).Guarded false) :
    (siblings v s fuel zone pos seen next).Guarded false := by
  induction fuel generalizing zone pos seen next with
  | zero => exact hnext _
  | succ fuel ih =>
      have hproceed : ∀ (element : Element) (seen : Bool),
          (siblings v s fuel zone element.stop seen fun rest =>
            next { rest with elements := .cons element rest.elements }).Guarded false :=
        fun element seen => ih fun rest => hnext _
      simp only [siblings]
      split
      · exact hnext _
      · refine ⟨rfl, ?_⟩
        intro bytes
        dsimp only
        cases heading bytes with
        | error reason =>
            dsimp only
            split
            · trivial
            · split
              · trivial
              · exact hnext _
        | ok found =>
            dsimp only
            split
            · exact hnext _
            · cases approach v s zone (zone.frameAt pos found) with
              | fails offset reason => trivial
              | settles content => exact hproceed _ _
              | goesOn how =>
                  cases how with
                  | asLeaf => exact leaf_guarded fun element => hproceed element _
                  | asMaster =>
                      simp only [Inquiry.Guarded]
                      split
                      · trivial
                      · exact (hproceed _ _).mono
                      · exact (ih fun contents => hproceed _ _).mono

/-- A scan passes a checkpoint before each question. -/
theorem whole_guarded (v : Vocabulary) (s : Settings) (length : Nat) :
    (whole v s length).Guarded false :=
  siblings_guarded fun _ => trivial

end Scan

/-- **A cancelled scan stops.**  When a scan is cancelled before it begins, and there is
something to read, it ends at once.  When it is cancelled during one of its fetches it
makes all fetches up to this one and no other, and it is cancelled or has the result that
it would have had. -/
theorem Buffered.scan_cancelled (b : Buffered) (v : Vocabulary) (s : Settings) :
    (b.cancelled = true → 0 < b.length → b.scan v s = (.error .cancelled, b)) ∧
      (b.cancelled = false → ∀ front fetch rest,
        b.fetchesSince (b.quieted.scan v s).2 = front ++ fetch :: rest →
        b.CancelledDuring front fetch →
          b.fetchesSince (b.scan v s).2 = front ++ [fetch] ∧
            ((b.scan v s).1 = .error .cancelled ∨
              (b.scan v s).1 = (b.quieted.scan v s).1)) := by
  constructor
  · intro hcancelled hlength
    obtain ⟨length, hlength⟩ := Nat.exists_eq_succ_of_ne_zero (Nat.ne_of_gt hlength)
    simp [Buffered.scan, Scan.whole, Scan.siblings, hlength, Inquiry.run, hcancelled]
  · intro hlive front fetch rest hfetches hcancelled
    obtain ⟨fetches, hquiet⟩ := Buffered.Fetches.run (Scan.whole v s b.length) b.quieted
    have hall : fetches = front ++ fetch :: rest :=
      hquiet.fetchesSince_eq.symm.trans hfetches
    rw [hall] at hquiet
    obtain ⟨hmade, hresult⟩ := (Scan.whole_guarded v s b.length).run_cancelled hlive hquiet hcancelled
    exact ⟨hmade.fetchesSince_eq, hresult⟩

/-- A device that delivers two bytes at a time: it takes three read calls to fetch a file of
five bytes, and the scan is cancelled at the second of them. -/
theorem Buffered.scan_cancelled_at_second_call :
    let d : Device :=
      { Contents.ofBytes [0xEC, 0x81, 0x00, 0xEC, 0x80] with
        unusable := none
        reply := fun _ _ _ => .delivers 2
        cancelsAt := fun call => call == 2 }
    let b := Buffered.ofDevice d false
    let fetch : Fetch := ⟨0, 5, [⟨0, 5⟩, ⟨2, 3⟩, ⟨4, 1⟩]⟩
    b.cancelled = false ∧
      b.fetchesSince (b.quieted.scan Matroska.vocabulary {}).2 = [] ++ fetch :: [] ∧
      b.CancelledDuring [] fetch ∧
      b.fetchesSince (b.scan Matroska.vocabulary {}).2 = [] ++ [fetch] ∧
      (b.scan Matroska.vocabulary {}).1 = .error .cancelled := by
  intro d b fetch
  have hfetches :
      b.fetchesSince (b.quieted.scan Matroska.vocabulary {}).2 = [] ++ fetch :: [] := by
    decide +kernel
  have hcancelled : b.CancelledDuring [] fetch :=
    ⟨Device.quietBetween_self, 2, by decide, by decide, rfl⟩
  obtain ⟨hmade, _⟩ :=
    (scan_cancelled b Matroska.vocabulary {}).2 rfl [] fetch [] hfetches hcancelled
  exact ⟨rfl, hfetches, hcancelled, hmade, by decide +kernel⟩

end EbmlReport
