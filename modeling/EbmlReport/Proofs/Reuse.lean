import EbmlReport.Matroska.Specification
import EbmlReport.Proofs.Cancelling
import EbmlReport.Proofs.Window

/-!
# Nothing is carried over from scan to scan

A reader can be used for any number of scans.  Of each one it keeps what is in its window,
which containers were open where the scan came to its end, and whether a skippable
container had been opened by then.  A scan may come to its end anywhere, since a read call
may be refused or a defect found inside many containers.

None of this reaches the next scan.  The window holds nothing but bytes of the contents.
The open containers are forgotten before the scan begins, and the flag is set anew at each
element of the top level.

**Results.**
* `Inquiry.run_undisturbed`: an inquiry that is neither cancelled nor refused a read call
  is answered as the contents answer it.
* `Scan.siblings_at_top`: at the top level the flag is not looked at.
* `Reader.Used.aligned`: after any scans the window agrees with the contents.
* `Reader.scan_of_used`: a used reader scans as a fresh one does.
-/

namespace EbmlReport

/-- A stream with what the last scan over it has left behind. -/
structure Reader where
  stream : Buffered
  /-- The containers that were open where the scan came to its end, innermost first. -/
  path : List Nat
  /-- A skippable container had been opened by then. -/
  seen : Bool

namespace Reader

/-- A reader that has not been used yet. -/
def fresh (d : Device) (cancelled : Bool) : Reader :=
  ⟨.ofDevice d cancelled, [], false⟩

/-- The reader as a scan takes it over: no container is open any more. -/
def cleared (reader : Reader) : Reader :=
  { reader with path := [] }

/-- The elements that a scan reads, and the stream afterwards. -/
def scan (reader : Reader) (v : Vocabulary) (s : Settings) :
    Except Failure Forest × Buffered :=
  let begun := reader.cleared
  (Scan.siblings v s begun.stream.length ⟨begun.path, false, begun.stream.length⟩ 0 begun.seen
    fun stretch => .done stretch.elements).run begun.stream

/-- The readers that come of scans over a device.  A scan may leave any containers open
and the flag either way, according to where it came to its end. -/
inductive Used (d : Device) (cancelled : Bool) : Reader → Prop
  | fresh : Used d cancelled (.fresh d cancelled)
  | again
      {reader : Reader}
      (hbefore : Used d cancelled reader)
      (v : Vocabulary) (s : Settings) (path : List Nat) (seen : Bool) :
      Used d cancelled ⟨(reader.scan v s).2, path, seen⟩

/-- The scan is not cancelled, and each of its read calls brings something. -/
structure Undisturbed (reader : Reader) (v : Vocabulary) (s : Settings) : Prop where
  live : (reader.scan v s).2.cancelled = false
  delivers :
    ∀ call, reader.stream.callCount < call → call ≤ (reader.scan v s).2.callCount →
      reader.stream.device.Delivers call

end Reader

namespace Buffered

variable {b : Buffered} {offset length : Nat}

/-- A fetch brings its piece when each of its calls delivers. -/
theorem fetch_delivered
    (hinside : offset + length ≤ b.length)
    (h : ∀ call, b.callCount < call → call ≤ (b.fetch offset length).2.callCount →
      b.device.Delivers call) :
    (b.fetch offset length).1 = .ok (b.device.slice offset length) := by
  refine b.device.pull_delivered (Nat.le_refl length) hinside ?_
  intro call hlow hhigh
  refine h call hlow ?_
  simp only [Buffered.fetch]
  omega

/-- Moving the window takes the calls of its fetch. -/
theorem refill_callCount (b : Buffered) (offset length : Nat) :
    (b.refill offset length).2.callCount =
      (b.fetch offset (min windowLength (b.length - offset))).2.callCount := by
  rcases b.refill_cases offset length with ⟨_, _, hrefill⟩ | ⟨_, _, _, rfl, hrefill⟩
  · rw [hrefill]
  · rw [hrefill]

theorem Aligned.refill_delivered
    (hb : b.Aligned)
    (hinside : offset + length ≤ b.length)
    (hshort : length < windowLength)
    (h : ∀ call, b.callCount < call → call ≤ (b.refill offset length).2.callCount →
      b.device.Delivers call) :
    (b.refill offset length).1 = .ok (b.device.slice offset length) := by
  obtain ⟨_, _, hbytes⟩ := hb.exact.refill offset length
  have hfetched : (b.fetch offset (min windowLength (b.length - offset))).1 =
      .ok (b.device.slice offset (min windowLength (b.length - offset))) := by
    refine fetch_delivered (by omega) ?_
    intro call hlow hhigh
    exact h call hlow (by rw [refill_callCount]; exact hhigh)
  rcases b.refill_cases offset length with
    ⟨cause, hrefused, _⟩ | ⟨fetched, moved, hfetch, hmoved, hrefill⟩
  · exact absurd (hfetched.symm.trans hrefused) (by simp)
  · obtain rfl := Except.ok.inj (hfetched.symm.trans hfetch)
    obtain ⟨taken, htaken⟩ : ∃ taken, moved.held? offset length = some taken :=
      held?_moved hinside hshort (by rw [hmoved]) (by rw [hmoved])
    rw [htaken] at hrefill
    have hok : (b.refill offset length).1 = .ok taken := congrArg Prod.fst hrefill
    rw [hok, hbytes taken hok]

/-- A read inside the stream brings its piece when each of its calls delivers. -/
theorem Aligned.read_delivered
    (hb : b.Aligned)
    (hinside : offset + length ≤ b.length)
    (h : ∀ call, b.callCount < call → call ≤ (b.read offset length).2.callCount →
      b.device.Delivers call) :
    (b.read offset length).1 = .ok (b.device.slice offset length) := by
  unfold Buffered.read at h ⊢
  rw [if_neg (Nat.not_lt.mpr hinside)] at h ⊢
  cases hheld : b.held? offset length with
  | some held =>
      dsimp only
      rw [hb.exact.of_held? hheld]
  | none =>
      simp only [hheld] at h ⊢
      split
      · rename_i hlong
        rw [if_pos hlong] at h
        exact fetch_delivered hinside h
      · rename_i hlong
        rw [if_neg hlong] at h
        exact hb.refill_delivered hinside (Nat.lt_of_not_le hlong) h

end Buffered

section Runs

variable {α : Type} {b : Buffered}

/-- Whatever is asked of a stream, its window agrees with the contents afterwards. -/
theorem Buffered.Aligned.run
    (hb : b.Aligned)
    (q : Inquiry α) :
    (q.run b).2.Aligned ∧ (q.run b).2.device = b.device := by
  induction q generalizing b with
  | done result => exact ⟨hb, rfl⟩
  | fail offset reason => exact ⟨hb, rfl⟩
  | checkpoint next ih =>
      simp only [Inquiry.run]
      split
      · exact ⟨hb, rfl⟩
      · exact ih hb
  | fetch offset length next ih =>
      obtain ⟨haligned, hdevice⟩ := hb.serve (.exactly offset length)
      simp only [Buffered.serve] at haligned hdevice
      simp only [Inquiry.run]
      split
      · rename_i cause after heq
        rw [heq] at haligned hdevice
        exact ⟨haligned, hdevice⟩
      · rename_i bytes after heq
        rw [heq] at haligned hdevice
        obtain ⟨hfinal, hsame⟩ := ih bytes haligned
        exact ⟨hfinal, hsame.trans hdevice⟩

/-- Calls are only ever added, and a scan that was cancelled stays so. -/
theorem Buffered.run_forward (q : Inquiry α) (b : Buffered) :
    b.callCount ≤ (q.run b).2.callCount ∧
      ((q.run b).2.cancelled = false → b.cancelled = false) := by
  obtain ⟨fetches, hfetches⟩ := Fetches.run q b
  have hcalls := hfetches.calls
  exact ⟨by omega, fun hlive => (hfetches.live.mp hlive).1⟩

/-- An inquiry that is not cancelled, and whose read calls all deliver, is answered as the
contents answer it. -/
theorem Inquiry.run_undisturbed
    {q : Inquiry α}
    (hb : b.Aligned)
    (hlive : (q.run b).2.cancelled = false)
    (hdelivers : ∀ call, b.callCount < call → call ≤ (q.run b).2.callCount →
      b.device.Delivers call) :
    (q.run b).1 = q.answer b.device.toContents := by
  induction q generalizing b with
  | done result => rfl
  | fail offset reason => rfl
  | checkpoint next ih =>
      obtain ⟨_, hstays⟩ := Buffered.run_forward (checkpoint next) b
      simp only [run, hstays hlive, Bool.false_eq_true, if_false] at hlive hdelivers ⊢
      exact ih hb hlive hdelivers
  | fetch offset length next ih =>
      by_cases houtside : b.length < offset + length
      · have hlength : b.device.length < offset + length := houtside
        simp only [run, Buffered.read_out_of_bounds houtside, answer, if_pos hlength]
        rfl
      · have hinside : offset + length ≤ b.length := Nat.le_of_not_lt houtside
        have hlength : ¬ b.device.length < offset + length := houtside
        obtain ⟨haligned, hdevice⟩ := hb.serve (.exactly offset length)
        obtain ⟨_, _, hread⟩ := Buffered.Fetches.read b offset length
        have hcalls := hread.calls
        have hdelivered := hb.read_delivered hinside
        simp only [Buffered.serve] at haligned hdevice
        simp only [run, answer, if_neg hlength] at hlive hdelivers ⊢
        cases hresult : b.read offset length with
        | mk outcome after =>
            rw [hresult] at haligned hdevice hcalls hdelivered hlive hdelivers
            cases outcome with
            | error cause => exact absurd (hdelivered hdelivers) (by simp)
            | ok bytes =>
                dsimp only at haligned hdevice hcalls hdelivered hlive hdelivers ⊢
                obtain ⟨hforward, _⟩ := Buffered.run_forward (next bytes) after
                have hbytes : bytes = b.device.slice offset length := by
                  refine Except.ok.inj (hdelivered ?_)
                  intro call hlow hhigh
                  exact hdelivers call hlow (Nat.le_trans hhigh hforward)
                rw [← hbytes, ← hdevice]
                refine ih bytes haligned hlive ?_
                intro call hlow hhigh
                rw [hdevice]
                exact hdelivers call (by omega) hhigh

end Runs

/-- At the top level it does not matter whether a skippable container has been opened. -/
theorem Scan.siblings_at_top
    {α : Type}
    (v : Vocabulary)
    (s : Settings)
    (fuel : Nat)
    (isOpen : Bool)
    (stop pos : Nat)
    (seen : Bool)
    (next : Forest → Inquiry α) :
    siblings v s fuel ⟨[], isOpen, stop⟩ pos seen (fun stretch => next stretch.elements) =
      siblings v s fuel ⟨[], isOpen, stop⟩ pos false fun stretch => next stretch.elements := by
  cases fuel with
  | zero => rfl
  | succ fuel => simp only [siblings, List.isEmpty_nil, Bool.not_true, Bool.and_false]

namespace Reader

variable {d : Device} {cancelled : Bool} {reader : Reader} {v : Vocabulary} {s : Settings}

/-- What a reader has kept of earlier scans, but for its window, plays no part. -/
theorem scan_eq (reader : Reader) (v : Vocabulary) (s : Settings) :
    reader.scan v s = reader.stream.scan v s := by
  have hflag := Scan.siblings_at_top v s reader.stream.length false reader.stream.length 0
    reader.seen .done
  exact congrArg (fun q => q.run reader.stream) hflag

/-- However often a reader was used, its window agrees with the contents. -/
theorem Used.aligned (h : Used d cancelled reader) :
    reader.stream.Aligned ∧ reader.stream.device = d := by
  induction h with
  | fresh => exact ⟨Buffered.ofDevice_aligned d cancelled, rfl⟩
  | again hbefore v s path seen ih =>
      obtain ⟨haligned, hdevice⟩ := ih
      obtain ⟨hafter, hsame⟩ := haligned.run (Scan.whole v s _)
      rw [scan_eq]
      exact ⟨hafter, hsame.trans hdevice⟩

/-- A reader whose device never cancels is not cancelled. -/
theorem Used.live
    (h : Used d false reader)
    (hquiet : ∀ call, d.cancelsAt call = false) :
    reader.stream.cancelled = false := by
  induction h with
  | fresh => rfl
  | again hbefore v s path seen ih =>
      obtain ⟨fetches, hfetches⟩ := Buffered.Fetches.run (Scan.whole v s _) _
      rw [scan_eq]
      refine hfetches.live.mpr ⟨ih, ?_⟩
      intro call _ _
      rw [hbefore.aligned.2]
      exact hquiet call

/-- The scan is undisturbed when nobody cancels and every call from now on delivers. -/
theorem Used.undisturbed
    (h : Used d false reader)
    (hquiet : ∀ call, d.cancelsAt call = false)
    (hlater : ∀ call, reader.stream.callCount < call → d.Delivers call) :
    reader.Undisturbed v s where
  live := (h.again v s [] false).live hquiet
  delivers call hlate _ := by
    rw [h.aligned.2]
    exact hlater call hlate

/-- An undisturbed scan is the scan of the contents. -/
theorem Undisturbed.scan_eq
    (h : reader.Undisturbed v s)
    (haligned : reader.stream.Aligned) :
    (reader.scan v s).1 = reader.stream.device.toContents.scan v s := by
  obtain ⟨hlive, hdelivers⟩ := h
  rw [Reader.scan_eq] at hlive hdelivers ⊢
  exact Inquiry.run_undisturbed haligned hlive hdelivers

/-- After any scans, whatever became of them, and wherever they left off, a scan that is not
disturbed gives what a fresh reader of the same contents gives. -/
theorem scan_of_used
    (hused : Used d cancelled reader)
    (hscan : reader.Undisturbed v s) :
    (reader.scan v s).1 = ((fresh (.faithful d.toContents) false).scan v s).1 := by
  obtain ⟨haligned, hdevice⟩ := hused.aligned
  have hfaithful : (fresh (.faithful d.toContents) false).stream.Faithful :=
    Buffered.ofDevice_faithful (Device.faithful_reliable _)
  rw [hscan.scan_eq haligned, hdevice, Reader.scan_eq (fresh _ _), hfaithful.scan_eq]
  rfl

/-- A device that fails at its first call, and then a scan with a vocabulary that does not
list block groups: it comes to nothing in the second cluster, which it passes over but has
to read for its end. -/
theorem scan_of_used_failed_twice :
    let d : Device :=
      { Contents.ofBytes
          [0x18, 0x53, 0x80, 0x67, 0xFF, 0x1F, 0x43, 0xB6, 0x75, 0xFF, 0xE7, 0x81, 0x05,
            0x1F, 0x43, 0xB6, 0x75, 0xFF, 0xA0, 0xFF, 0x9B, 0x81, 0x07] with
        unusable := none
        reply := fun call _ wanted =>
          if call = 1 then .fails (.device "no medium") else .delivers wanted
        cancelsAt := fun _ => false }
    let coarse : Vocabulary :=
      .ofTable
        [⟨0x18538067, "Segment", .master, .root⟩,
          ⟨0x1F43B675, "Cluster", .master, .within [0x18538067]⟩] [0x1F43B675] []
    let s : Settings := { shallow := true }
    let first := (fresh d false).scan coarse s
    let second := (Reader.mk first.2 [] false).scan coarse s
    let reader : Reader := ⟨second.2, [0x1F43B675, 0x18538067], true⟩
    first.1 = .error (.stream (.device "no medium")) ∧
      second.1 = .error (.format 18 .boundaryUnresolvable) ∧
      Used d false reader ∧ reader.Undisturbed Matroska.vocabulary s ∧
      (reader.scan Matroska.vocabulary s).1 =
        ((fresh (.faithful d.toContents) false).scan Matroska.vocabulary s).1 := by
  intro d coarse s first second reader
  have hfirst : first.1 = .error (.stream (.device "no medium")) := by decide +kernel
  have hsecond : second.1 = .error (.format 18 .boundaryUnresolvable) := by decide +kernel
  have hcalls : reader.stream.callCount = 2 := by decide +kernel
  have hused : Used d false reader := .again (.again .fresh _ _ _ _) _ _ _ _
  have hlater : ∀ call, reader.stream.callCount < call → d.Delivers call := by
    intro call hlate place count hcount _
    rw [hcalls] at hlate
    exact ⟨count, hcount, if_neg (by omega)⟩
  have hscan : reader.Undisturbed Matroska.vocabulary s :=
    hused.undisturbed (fun _ => rfl) hlater
  exact ⟨hfirst, hsecond, hused, hscan, scan_of_used hused hscan⟩

end Reader

end EbmlReport
