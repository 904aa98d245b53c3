/-!
# Settings of a scan
-/

namespace EbmlReport

/-- What to do about a defect whose neighbours can still be found. -/
inductive Recovery
  /-- Record it and go on. -/
  | bestEffort
  /-- Fail at the first one. -/
  | strict
deriving DecidableEq, Repr

/-- The wording of a recovery policy. -/
def Recovery.name : Recovery → String
  | bestEffort => "best-effort"
  | strict => "strict"

/-- The choices that a user has in a scan. -/
structure Settings where
  /-- Read only the first skippable container of each top-level element. -/
  shallow : Bool := false
  /-- The depth at which containers are no longer opened. -/
  maxDepth : Nat := 64
  recovery : Recovery := .bestEffort
deriving DecidableEq, Repr

/-- Whether every defect fails the scan. -/
def Settings.isStrict (s : Settings) : Bool :=
  s.recovery == .strict

end EbmlReport
