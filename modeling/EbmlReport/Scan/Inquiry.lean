import EbmlReport.Buffered

/-!
# Inquiries

A scan asks a stream for bytes, one piece after another, where the next question may
depend on the bytes that it got.  Between questions it passes checkpoints, at which a
cancelled scan stops.  An inquiry is such a course of questions as a value, so that
one scan can be put to plain contents as well as to a buffered stream.

**Results.**
* `Inquiry.answer_bind`: what comes after an inquiry is asked of the same contents.
-/

namespace EbmlReport

/-- A course of questions to a stream that ends in a result. -/
inductive Inquiry (α : Type) : Type
  | done (result : α)
  /-- Ends in a defect at an offset. -/
  | fail (offset : Nat) (reason : Defect)
  /-- Goes on unless the scan is cancelled. -/
  | checkpoint (next : Inquiry α)
  /-- Asks for bytes and goes on with them. -/
  | fetch (offset length : Nat) (next : Bytes → Inquiry α)

namespace Inquiry

variable {α β : Type}

/-- Goes on with the result of an inquiry. -/
def bind : Inquiry α → (α → Inquiry β) → Inquiry β
  | done result, f => f result
  | fail offset reason, _ => fail offset reason
  | checkpoint next, f => checkpoint (next.bind f)
  | fetch offset length next, f => fetch offset length fun bytes => (next bytes).bind f

/-- Puts an inquiry to contents that answer every question inside them. -/
def answer (c : Contents) : Inquiry α → Except Failure α
  | done result => .ok result
  | fail offset reason => .error (.format offset reason)
  | checkpoint next => next.answer c
  | fetch offset length next =>
      if c.length < offset + length then
        .error (.stream (.outOfBounds offset length c.length))
      else (next (c.slice offset length)).answer c

/-- Puts an inquiry to a buffered stream and tells how it leaves the stream. -/
def run : Inquiry α → Buffered → Except Failure α × Buffered
  | done result, b => (.ok result, b)
  | fail offset reason, b => (.error (.format offset reason), b)
  | checkpoint next, b => if b.cancelled then (.error .cancelled, b) else next.run b
  | fetch offset length next, b =>
      match b.read offset length with
      | (.error cause, after) => (.error (.stream cause), after)
      | (.ok bytes, after) => (next bytes).run after

theorem answer_bind (c : Contents) (q : Inquiry α) (f : α → Inquiry β) :
    (q.bind f).answer c =
      match q.answer c with
      | .ok result => (f result).answer c
      | .error failure => .error failure := by
  induction q with
  | done result => rfl
  | fail offset reason => rfl
  | checkpoint next ih => exact ih
  | fetch offset length next ih =>
      simp only [bind, answer]
      split
      · rfl
      · exact ih _

end Inquiry

end EbmlReport
