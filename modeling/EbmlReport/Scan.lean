import EbmlReport.Scan.Siblings

/-!
# Scans

A scan of contents and a scan of a buffered stream put the same inquiry to them.  The
stream may have been scanned before: of earlier scans it keeps its window, its log
and whether the user has cancelled.
-/

namespace EbmlReport

instance decidableEqExcept {ε α : Type} [DecidableEq ε] [DecidableEq α] :
    DecidableEq (Except ε α)
  | .ok a, .ok b => decidable_of_iff (a = b) (by rw [Except.ok.injEq])
  | .error a, .error b => decidable_of_iff (a = b) (by rw [Except.error.injEq])
  | .ok _, .error _ => isFalse nofun
  | .error _, .ok _ => isFalse nofun

/-- The elements of a file, when every byte of it can be read. -/
def Contents.scan (c : Contents) (v : Vocabulary) (s : Settings) : Except Failure Forest :=
  (Scan.whole v s c.length).answer c

/-- The elements read from a stream, and the stream afterwards. -/
def Buffered.scan (b : Buffered) (v : Vocabulary) (s : Settings) :
    Except Failure Forest × Buffered :=
  (Scan.whole v s b.length).run b

/-- A stream over a device, unless the device cannot be used. -/
def Buffered.open? (d : Device) (cancelled : Bool) : Except StreamError Buffered :=
  match d.unusable with
  | some cause => .error cause
  | none => .ok (.ofDevice d cancelled)

end EbmlReport
