import EbmlReport.Device

/-!
# Buffered streams

A scan reads many small pieces next to each other, so a device is read in windows of
8192 bytes.  A piece that lies in the window costs nothing; otherwise the window
moves to the piece.  Pieces as long as a window are fetched on their own and leave it
where it is.

A buffered stream keeps, besides its window, a log of its fetches and whether the
scan over it has been cancelled.
-/

namespace EbmlReport

/-- One run of bytes asked of the device, with the read calls that it took. -/
structure Fetch where
  offset : Nat
  length : Nat
  calls : List ReadCall
deriving DecidableEq, Repr

/-- A device with a window of recently fetched bytes. -/
structure Buffered where
  device : Device
  windowStart : Nat
  window : Array UInt8
  /-- Read calls made so far. -/
  callCount : Nat
  /-- Fetches made so far, newest first. -/
  log : List Fetch
  cancelled : Bool

namespace Buffered

/-- Bytes fetched to fill the window. -/
def windowLength : Nat := 8192

/-- A stream over a device that has not been read yet. -/
def ofDevice (d : Device) (cancelled : Bool) : Buffered where
  device := d
  windowStart := 0
  window := #[]
  callCount := 0
  log := []
  cancelled := cancelled

variable (b : Buffered)

/-- Total length of the stream. -/
def length : Nat := b.device.length

/-- The bytes asked for, when they all lie in the window. -/
def held? (offset length : Nat) : Option Bytes :=
  let start := offset - b.windowStart
  if b.windowStart ≤ offset ∧ start + length ≤ b.window.size then
    some (b.window.extract start (start + length)).toList
  else none

/-- Fetches bytes from the device, leaving the window as it is. -/
def fetch (offset length : Nat) : Except StreamError Bytes × Buffered :=
  let pull := b.device.pull length (b.callCount + 1) offset length
  (pull.outcome,
    { b with
      callCount := b.callCount + pull.calls.length
      log := if length = 0 then b.log else ⟨offset, length, pull.calls⟩ :: b.log
      cancelled := b.cancelled || pull.cancelled })

/-- Moves the window to `offset` and takes the bytes from there. -/
def refill (offset length : Nat) : Except StreamError Bytes × Buffered :=
  match b.fetch offset (min windowLength (b.length - offset)) with
  | (.error cause, after) => (.error cause, after)
  | (.ok bytes, after) =>
      let moved := { after with windowStart := offset, window := bytes.toArray }
      match moved.held? offset length with
      | some taken => (.ok taken, moved)
      | none => (.error .windowShort, moved)

/-- Reads exactly `length` bytes from `offset` on. -/
def read (offset length : Nat) : Except StreamError Bytes × Buffered :=
  if b.length < offset + length then (.error (.outOfBounds offset length b.length), b)
  else
    match b.held? offset length with
    | some bytes => (.ok bytes, b)
    | none => if windowLength ≤ length then b.fetch offset length else b.refill offset length

/-- Reads at most `most` bytes from `offset` on, up to `limit` and the end of the
stream. -/
def readWithin (offset most limit : Nat) : Except StreamError Bytes × Buffered :=
  b.read offset (min (min limit b.length) (offset + most) - offset)

end Buffered

end EbmlReport
