import EbmlReport.Proofs.Stream

/-!
# The window does not show

A buffered stream may be asked for pieces in any order: forwards and backwards, pieces
that overlap, that are empty, or that reach out of the window.  Its device may refuse
single calls in between.  Each request is answered from the contents all the same, and one
that fails leaves the window as it was, so that the requests after it are answered as
well as those before.

What a request comes to is told by `Buffered.Gives`: the bytes of the contents, or the
cause with which the device refused a read call.  A stream has no third way to fail at a
piece that lies inside it; in particular a window that was refilled holds the piece for
which that was done.

**Results.**
* `Device.pull_refused`: a pull fails for the last call that it made.
* `Buffered.Aligned.read_gives`: a read inside the stream brings its piece, or is refused.
* `Buffered.Aligned.serveAll`: however many requests are served, the window lies inside
  the contents and agrees with them.
* `Buffered.serve_after_requests`: the law for a stream that was opened afresh.
-/

namespace EbmlReport

namespace Device

variable {d : Device}

/-- A read call that brings nothing: the device fails, or has come to its end too early. -/
inductive Refuses (d : Device) (call offset wanted : Nat) : StreamError → Prop
  | fails
      {cause : StreamError}
      (hreply : d.reply call offset wanted = .fails cause) :
      Refuses d call offset wanted cause
  | comesEmpty
      (hreply : d.reply call offset wanted = .delivers 0) :
      Refuses d call offset wanted .endedEarly

/-- A pull that lies inside the contents fails for the last call that it made. -/
theorem pull_refused
    {fuel call offset wanted : Nat}
    {cause : StreamError}
    (hfuel : wanted ≤ fuel)
    (hinside : offset + wanted ≤ d.length)
    (h : (d.pull fuel call offset wanted).outcome = .error cause) :
    0 < (d.pull fuel call offset wanted).calls.length ∧
      ∃ place count,
        d.Refuses (call + (d.pull fuel call offset wanted).calls.length - 1) place count
          cause := by
  induction fuel generalizing call offset wanted with
  | zero => simp [pull] at h
  | succ fuel ih =>
      by_cases hwanted : wanted = 0
      · subst hwanted
        simp at h
      · simp only [pull, if_neg hwanted] at h ⊢
        cases hreply : d.reply call offset wanted with
        | fails found =>
            simp only [hreply, Except.error.injEq] at h ⊢
            subst h
            exact ⟨Nat.one_pos, offset, wanted, .fails hreply⟩
        | delivers most =>
            simp only [hreply] at h ⊢
            split at h
            · rename_i hcount
              obtain rfl : most = 0 := by omega
              simp only [Except.error.injEq] at h
              subst h
              rw [if_pos hcount]
              exact ⟨Nat.one_pos, offset, wanted, .comesEmpty hreply⟩
            · -- The call delivered something, so it was one of the calls after it.
              rename_i hcount
              rw [if_neg hcount]
              generalize hc : min most (min wanted (d.length - offset)) = count at h hcount ⊢
              cases hrest :
                  (d.pull fuel (call + 1) (offset + count) (wanted - count)).outcome with
              | ok rest => simp [hrest, Except.map] at h
              | error found =>
                  simp only [hrest, Except.map, Except.error.injEq] at h
                  subst h
                  obtain ⟨hmade, place, missing, hrefused⟩ := ih (by omega) (by omega) hrest
                  refine ⟨by simp, place, missing, ?_⟩
                  rw [List.length_cons]
                  have hlast : ∀ made, 0 < made → call + (made + 1) - 1 = call + 1 + made - 1 := by
                    omega
                  rw [hlast _ hmade]
                  exact hrefused

end Device

/-- A request for bytes: an exact piece, or as much of one as there is before a limit. -/
inductive Request
  | exactly (offset length : Nat)
  | within (offset most limit : Nat)
deriving DecidableEq, Repr

namespace Request

/-- Where the bytes asked for begin. -/
def start : Request → Nat
  | exactly offset _ => offset
  | within offset _ _ => offset

/-- Where the bytes asked for end, in a stream of the given length. -/
def stop (size : Nat) : Request → Nat
  | exactly offset length => offset + length
  | within offset most limit => max offset (min (min limit size) (offset + most))

/-- A sum of offsets may be cut off anywhere from the length of the stream on. -/
theorem stop_within_eq
    {size top offset most limit : Nat}
    (h : size ≤ top) :
    (within offset most limit).stop size =
      max offset (min (min limit size) (min (offset + most) top)) := by
  simp only [stop]
  omega

theorem start_le_stop (size : Nat) (request : Request) : request.start ≤ request.stop size := by
  cases request with
  | exactly offset length => exact Nat.le_add_right _ _
  | within offset most limit => exact Nat.le_max_left _ _

end Request

namespace Buffered

/-- The window lies inside the contents and holds their bytes. -/
structure Aligned (b : Buffered) : Prop where
  exact : b.Exact
  inside : b.windowStart + b.window.size ≤ b.length

/-- What a piece inside a stream is answered with: its bytes, with a window that may have
moved, or the cause with which the device refused the last read call, with the window left
as it was. -/
inductive Gives (b : Buffered) (offset length : Nat) : Except StreamError Bytes × Buffered → Prop
  | bytes
      {after : Buffered}
      (hdevice : after.device = b.device)
      (haligned : after.Aligned) :
      Gives b offset length (.ok (b.device.slice offset length), after)
  | refusal
      {cause : StreamError} {after : Buffered}
      (hdevice : after.device = b.device)
      (hwindow : after.window = b.window)
      (hstart : after.windowStart = b.windowStart)
      (hcalled : b.callCount < after.callCount)
      (hrefused : ∃ place count, b.device.Refuses after.callCount place count cause) :
      Gives b offset length (.error cause, after)

/-- Serves one request. -/
def serve (b : Buffered) : Request → Except StreamError Bytes × Buffered
  | .exactly offset length => b.read offset length
  | .within offset most limit => b.readWithin offset most limit

/-- The stream after requests that were served one behind the other. -/
def serveAll (b : Buffered) (requests : List Request) : Buffered :=
  requests.foldl (fun b request => (b.serve request).2) b

theorem serveAll_concat (b : Buffered) (requests : List Request) (request : Request) :
    b.serveAll (requests ++ [request]) = ((b.serveAll requests).serve request).2 := by
  rw [serveAll, List.foldl_append]
  rfl

theorem ofDevice_aligned (d : Device) (cancelled : Bool) : (ofDevice d cancelled).Aligned :=
  ⟨ofDevice_exact d cancelled, Nat.zero_le _⟩

section Reads

variable {b : Buffered} {offset length : Nat}

theorem Aligned.of_same
    {after : Buffered}
    (hb : b.Aligned)
    (hdevice : after.device = b.device)
    (hwindow : after.window = b.window)
    (hstart : after.windowStart = b.windowStart) :
    after.Aligned := by
  obtain ⟨hexact, hinside⟩ := hb
  constructor
  · unfold Exact at hexact ⊢
    rw [hdevice, hwindow, hstart]
    exact hexact
  · unfold Buffered.length at hinside ⊢
    rw [hdevice, hwindow, hstart]
    exact hinside

namespace Gives

variable {result : Except StreamError Bytes × Buffered}

/-- Whatever comes of a piece, the window agrees with the contents afterwards. -/
theorem aligned
    (h : b.Gives offset length result)
    (hb : b.Aligned) :
    result.2.Aligned ∧ result.2.device = b.device := by
  cases h with
  | bytes hdevice haligned => exact ⟨haligned, hdevice⟩
  | refusal hdevice hwindow hstart _ _ => exact ⟨hb.of_same hdevice hwindow hstart, hdevice⟩

theorem eq_slice
    {bytes : Bytes}
    (h : b.Gives offset length result)
    (hok : result.1 = .ok bytes) :
    bytes = b.device.slice offset length := by
  cases h with
  | bytes _ _ => exact (Except.ok.inj hok).symm
  | refusal _ _ _ _ _ => simp at hok

theorem refused
    {cause : StreamError}
    (h : b.Gives offset length result)
    (herror : result.1 = .error cause) :
    result.2.window = b.window ∧ result.2.windowStart = b.windowStart ∧
      b.callCount < result.2.callCount ∧
      ∃ place count, b.device.Refuses result.2.callCount place count cause := by
  cases h with
  | bytes _ _ => simp at herror
  | refusal _ hwindow hstart hcalled hrefused =>
      obtain rfl := Except.error.inj herror
      exact ⟨hwindow, hstart, hcalled, hrefused⟩

/-- A piece for which no read call is refused is brought. -/
theorem eq_ok
    (h : b.Gives offset length result)
    (hnever : ∀ call, b.callCount < call → call ≤ result.2.callCount →
      ∀ place count cause, ¬ b.device.Refuses call place count cause) :
    result.1 = .ok (b.device.slice offset length) := by
  cases h with
  | bytes _ _ => rfl
  | refusal _ _ _ hcalled hrefused =>
      obtain ⟨place, count, hrefused⟩ := hrefused
      exact absurd hrefused (hnever _ hcalled (Nat.le_refl _) place count _)

end Gives

/-- A fetch fails for the last call that it made, and leaves the window where it is. -/
theorem fetch_refused
    {cause : StreamError}
    (hinside : offset + length ≤ b.length)
    (h : (b.fetch offset length).1 = .error cause) :
    b.callCount < (b.fetch offset length).2.callCount ∧
      ∃ place count,
        b.device.Refuses (b.fetch offset length).2.callCount place count cause := by
  obtain ⟨hmade, hrefused⟩ := Device.pull_refused (Nat.le_refl length) hinside h
  simp only [Buffered.fetch]
  refine ⟨by omega, ?_⟩
  rwa [Nat.add_right_comm, Nat.add_sub_cancel] at hrefused

theorem Aligned.fetch_gives
    (hb : b.Aligned)
    (hinside : offset + length ≤ b.length) :
    b.Gives offset length (b.fetch offset length) := by
  cases hfetch : b.fetch offset length with
  | mk outcome after =>
      have hafter : after = (b.fetch offset length).2 := by rw [hfetch]
      cases outcome with
      | ok bytes =>
          have hslice : bytes = b.device.slice offset length := fetch_eq_slice (by rw [hfetch])
          rw [hslice]
          exact .bytes (by rw [hafter]; rfl) (by rw [hafter]; exact hb.of_same rfl rfl rfl)
      | error cause =>
          obtain ⟨hcalled, hrefused⟩ := fetch_refused hinside (by rw [hfetch])
          rw [← hafter] at hcalled hrefused
          exact .refusal (by rw [hafter]; rfl) (by rw [hafter]; rfl) (by rw [hafter]; rfl)
            hcalled hrefused

/-- A window that was moved to a piece shorter than itself holds that piece. -/
theorem held?_moved
    {after : Buffered}
    (hinside : offset + length ≤ b.length)
    (hshort : length < windowLength)
    (hwindow : after.window = (b.device.slice offset (min windowLength (b.length - offset))).toArray)
    (hstart : after.windowStart = offset) :
    ∃ taken, after.held? offset length = some taken := by
  simp only [held?, hwindow, hstart, List.size_toArray, Contents.length_slice]
  rw [if_pos (by omega)]
  exact ⟨_, rfl⟩

/-- A refill brings its piece, or is refused; that the new window comes up short does not
happen. -/
theorem Aligned.refill_gives
    (hb : b.Aligned)
    (hinside : offset + length ≤ b.length)
    (hshort : length < windowLength) :
    b.Gives offset length (b.refill offset length) := by
  have hfetched : b.Gives offset (min windowLength (b.length - offset))
      (b.fetch offset (min windowLength (b.length - offset))) :=
    hb.fetch_gives (by omega)
  unfold Buffered.refill
  generalize b.fetch offset (min windowLength (b.length - offset)) = fetched at hfetched
  cases hfetched with
  | refusal hdevice hwindow hstart hcalled hrefused =>
      exact .refusal hdevice hwindow hstart hcalled hrefused
  | @bytes after hdevice haligned =>
      dsimp only
      generalize hmoved : ({ after with
        windowStart := offset
        window := (b.device.slice offset (min windowLength (b.length - offset))).toArray } :
          Buffered) = moved
      have hmovedDevice : moved.device = b.device := by
        rw [← hmoved]
        exact hdevice
      have hstart : moved.windowStart = offset := by rw [← hmoved]
      have hwindow : moved.window =
          (b.device.slice offset (min windowLength (b.length - offset))).toArray := by
        rw [← hmoved]
      have hexact : moved.Exact :=
        exact_of_window hstart hwindow (by rw [hmovedDevice])
      have hmovedAligned : moved.Aligned := by
        refine ⟨hexact, ?_⟩
        unfold Buffered.length at hinside ⊢
        rw [hmovedDevice, hstart, hwindow, List.size_toArray, Contents.length_slice]
        simp only [Buffered.length]
        omega
      obtain ⟨taken, htaken⟩ := held?_moved hinside hshort hwindow hstart
      simp only [htaken]
      rw [hexact.of_held? htaken, hmovedDevice]
      exact .bytes hmovedDevice hmovedAligned

/-- A read inside the stream brings its piece, or is refused. -/
theorem Aligned.read_gives
    (hb : b.Aligned)
    (hinside : offset + length ≤ b.length) :
    b.Gives offset length (b.read offset length) := by
  unfold Buffered.read
  rw [if_neg (Nat.not_lt.mpr hinside)]
  split
  · rename_i held hheld
    rw [hb.exact.of_held? hheld]
    exact .bytes rfl hb
  · split
    · exact hb.fetch_gives hinside
    · rename_i hlong
      exact hb.refill_gives hinside (Nat.lt_of_not_le hlong)

/-- A read out of bounds does nothing to the stream. -/
theorem read_out_of_bounds (houtside : b.length < offset + length) :
    b.read offset length = (.error (.outOfBounds offset length b.length), b) := by
  unfold Buffered.read
  rw [if_pos houtside]

/-- Every request is a read of the piece that it names. -/
theorem serve_eq_read (b : Buffered) (request : Request) :
    b.serve request =
      b.read request.start (request.stop b.length - request.start) := by
  cases request with
  | exactly offset length =>
      simp only [serve, Request.start, Request.stop, Nat.add_sub_cancel_left]
  | within offset most limit =>
      have hlength : min (min limit b.length) (offset + most) - offset =
          max offset (min (min limit b.length) (offset + most)) - offset := by omega
      simp only [serve, Buffered.readWithin, Request.start, Request.stop, hlength]

/-- A request that stays inside the stream brings its bytes, or is refused. -/
theorem Aligned.serve_gives
    {request : Request}
    (hb : b.Aligned)
    (hinside : request.stop b.length ≤ b.length) :
    b.Gives request.start (request.stop b.length - request.start) (b.serve request) := by
  have hforward := Request.start_le_stop b.length request
  rw [serve_eq_read]
  exact hb.read_gives (by omega)

/-- One request leaves the window right. -/
theorem Aligned.serve (hb : b.Aligned) (request : Request) :
    (b.serve request).2.Aligned ∧ (b.serve request).2.device = b.device := by
  have hforward := Request.start_le_stop b.length request
  by_cases hinside : request.stop b.length ≤ b.length
  · exact (hb.serve_gives hinside).aligned hb
  · rw [serve_eq_read, read_out_of_bounds (by omega)]
    exact ⟨hb, rfl⟩

/-- However many requests were served, the window is right. -/
theorem Aligned.serveAll (hb : b.Aligned) (requests : List Request) :
    (b.serveAll requests).Aligned ∧ (b.serveAll requests).device = b.device := by
  induction requests generalizing b with
  | nil => exact ⟨hb, rfl⟩
  | cons request requests ih =>
      obtain ⟨haligned, hdevice⟩ := hb.serve request
      obtain ⟨hafter, hsame⟩ := ih haligned
      exact ⟨hafter, hsame.trans hdevice⟩

end Reads

/-- A stream that was opened afresh and has served any requests holds a piece of the
contents in its window.  It answers the next request as follows.  Out of bounds it fails
without a fetch.  What it brings are the bytes of the contents, and where a piece within a
limit ends does not depend on whether the sum of its offset and length is cut off at some
number from the length of the stream on.  When it fails, the window stays, and inside the
stream it fails only for the last read call that was made, which the device refused.  So it
succeeds inside the stream when no read call of it is refused. -/
theorem serve_after_requests
    (d : Device)
    (cancelled : Bool)
    (before : List Request)
    (request : Request) :
    let b := (ofDevice d cancelled).serveAll before
    let after := (b.serve request).2
    let start := request.start
    let stop := request.stop d.length
    b.window.toList = d.slice b.windowStart b.window.size ∧
      b.windowStart + b.window.size ≤ d.length ∧
      (∀ offset most limit top, request = .within offset most limit → d.length ≤ top →
        stop = max offset (min (min limit d.length) (min (offset + most) top))) ∧
      (d.length < stop →
        b.serve request = (.error (.outOfBounds start (stop - start) d.length), b)) ∧
      (∀ bytes, (b.serve request).1 = .ok bytes →
        stop ≤ d.length ∧ bytes = d.slice start (stop - start)) ∧
      (∀ cause, (b.serve request).1 = .error cause →
        after.window = b.window ∧ after.windowStart = b.windowStart ∧
          (stop ≤ d.length → b.callCount < after.callCount ∧
            ∃ place count, d.Refuses after.callCount place count cause)) ∧
      (stop ≤ d.length →
        (∀ call, b.callCount < call → call ≤ after.callCount →
          ∀ place count cause, ¬ d.Refuses call place count cause) →
        (b.serve request).1 = .ok (d.slice start (stop - start))) := by
  intro b after start stop
  obtain ⟨haligned, hdevice⟩ := (ofDevice_aligned d cancelled).serveAll before
  replace haligned : b.Aligned := haligned
  replace hdevice : b.device = d := hdevice
  have hlength : b.length = d.length := by rw [Buffered.length, hdevice]
  have hforward : start ≤ stop := Request.start_le_stop d.length request
  have houtside : d.length < stop →
      b.serve request = (.error (.outOfBounds start (stop - start) d.length), b) := by
    intro hlate
    rw [serve_eq_read, read_out_of_bounds (by rw [hlength]; omega), hlength]
  have hgives : stop ≤ d.length → b.Gives start (stop - start) (b.serve request) := by
    intro hinside
    have hserved : b.Gives start (request.stop b.length - start) (b.serve request) :=
      haligned.serve_gives (by rw [hlength]; exact hinside)
    rwa [hlength] at hserved
  rw [← hdevice] at hgives houtside ⊢
  refine ⟨haligned.exact, haligned.inside, ?_, houtside, ?_, ?_, ?_⟩
  · rintro offset most limit top hrequest htop
    rw [← Request.stop_within_eq htop, ← hrequest, hdevice]
  · intro bytes hbytes
    by_cases hinside : stop ≤ b.device.length
    · exact ⟨hinside, (hgives hinside).eq_slice hbytes⟩
    · simp [houtside (Nat.lt_of_not_le hinside)] at hbytes
  · intro cause hcause
    by_cases hinside : stop ≤ b.device.length
    · obtain ⟨hwindow, hstart, hcalls⟩ := (hgives hinside).refused hcause
      exact ⟨hwindow, hstart, fun _ => hcalls⟩
    · have hsame : after = b := congrArg Prod.snd (houtside (Nat.lt_of_not_le hinside))
      rw [hsame]
      exact ⟨rfl, rfl, fun hless => absurd hless hinside⟩
  · intro hinside hnever
    exact (hgives hinside).eq_ok hnever

/-- A device that delivers two bytes at a time and fails at its second call: the request that
meets the failure leaves the window where it was, and is answered when it is repeated. -/
theorem serve_after_refused_call :
    let d : Device :=
      { Contents.ofBytes [1, 2, 3, 4, 5] with
        unusable := none
        reply := fun call _ _ =>
          if call = 2 then .fails (.device "no medium") else .delivers 2
        cancelsAt := fun _ => false }
    let before := (ofDevice d false).serveAll [.exactly 3 2]
    let b := (ofDevice d false).serveAll [.exactly 3 2, .within 1 3 4]
    (before.serve (.within 1 3 4)).1 = .error (.device "no medium") ∧
      before.windowStart = 3 ∧ before.window.toList = [4, 5] ∧
      b.windowStart = 3 ∧ b.window.toList = [4, 5] ∧
      (∀ call, b.callCount < call → ∀ place count cause, ¬ d.Refuses call place count cause) ∧
      (b.serve (.within 1 3 4)).1 = .ok [2, 3, 4] := by
  intro d before b
  have hfailed : (before.serve (.within 1 3 4)).1 = .error (.device "no medium") := by
    decide +kernel
  have hstart : before.windowStart = 3 := by decide +kernel
  have hwindow : before.window.toList = [4, 5] := by decide +kernel
  have hcalls : b.callCount = 2 := by decide +kernel
  have hslice : d.slice 1 3 = [2, 3, 4] := by decide
  have hlength : d.length = 5 := rfl
  have hnever : ∀ call, b.callCount < call →
      ∀ place count cause, ¬ d.Refuses call place count cause := by
    intro call hlate place count cause hrefused
    have hreply : d.reply call place count = .delivers 2 := if_neg (by omega)
    cases hrefused with
    | fails hfails => simp [hreply] at hfails
    | comesEmpty hempty => simp [hreply] at hempty
  have hafter : b = (before.serve (.within 1 3 4)).2 := serveAll_concat _ [_] _
  obtain ⟨_, _, _, _, _, hstays, _⟩ := serve_after_requests d false [.exactly 3 2] (.within 1 3 4)
  obtain ⟨hsameWindow, hsameStart, _⟩ := hstays _ hfailed
  obtain ⟨_, _, _, _, _, _, hbrings⟩ :=
    serve_after_requests d false [.exactly 3 2, .within 1 3 4] (.within 1 3 4)
  simp only [Request.start, Request.stop, hlength] at hbrings
  refine ⟨hfailed, hstart, hwindow, ?_, ?_, hnever, ?_⟩
  · rw [hafter, hsameStart]
    exact hstart
  · rw [hafter, hsameWindow]
    exact hwindow
  · rw [← hslice]
    exact hbrings (by decide) fun call hlate _ => hnever call hlate

end Buffered

end EbmlReport
