/-!
# Sets of code points

A property of characters is a set of code points, nearly always a union of runs.
`Ranges` holds such a set as the sorted list of its boundaries, first members and
first non-members in turn, so that a code point is a member just when an odd count
of boundaries is at most it.
-/

namespace EbmlReport

/-- A set of code points, by the sorted boundaries of its runs. -/
structure Ranges where
  boundaries : Array Nat

namespace Ranges

/-- Count of boundaries at most `n` among those from `low` to before `high`, plus
`low`; the search halves the stretch at every step. -/
def rank (r : Ranges) (n : Nat) : (fuel low high : Nat) → Nat
  | 0, low, _ => low
  | fuel + 1, low, high =>
      if low < high then
        let middle := (low + high) / 2
        if r.boundaries.getD middle 0 ≤ n then rank r n fuel (middle + 1) high
        else rank r n fuel low middle
      else low

/-- Membership of a code point.  Halving a table below `2 ^ 32` boundaries ends
within as many steps. -/
def contains (r : Ranges) (n : Nat) : Bool :=
  r.rank n 32 0 r.boundaries.size % 2 == 1

end Ranges

end EbmlReport
