import EbmlReport.Contents
import EbmlReport.Failure

/-!
# Devices

A device gives access to contents by read calls.  It need not be well behaved: a call
may fail, may deliver fewer bytes than it was asked for, or none although there
should be some, and the user may cancel a scan while a call is under way.

`Device.pull` asks again until all bytes are there, as every fetch of a scan does.

**Results.**
* `Device.pull_zero`: pulling no bytes makes no call.
-/

namespace EbmlReport

/-- The answer of a device to one read call. -/
inductive Reply
  | fails (cause : StreamError)
  /-- That many bytes at most, and never more than were asked for. -/
  | delivers (count : Nat)
deriving DecidableEq, Repr

/-- Contents behind read calls, which are counted from one. -/
structure Device extends Contents where
  /-- Why the device cannot be used at all. -/
  unusable : Option StreamError
  /-- What the call of a given number, offset and length is answered. -/
  reply : (call offset wanted : Nat) → Reply
  /-- Whether the scan is cancelled during the call of a given number. -/
  cancelsAt : Nat → Bool

/-- One read call: its offset and the bytes asked for. -/
structure ReadCall where
  offset : Nat
  wanted : Nat
deriving DecidableEq, Repr

/-- What comes of pulling bytes from a device. -/
structure Pull where
  outcome : Except StreamError Bytes
  /-- The read calls made, first one first. -/
  calls : List ReadCall
  /-- Whether the scan was cancelled meanwhile. -/
  cancelled : Bool

namespace Device

/-- The device that delivers what it is asked for. -/
def faithful (c : Contents) : Device where
  toContents := c
  unusable := none
  reply _ _ wanted := .delivers wanted
  cancelsAt _ := false

/-- Reads `wanted` bytes from `offset` on, by as many calls as it takes; the first of
them has number `call`.  A call that delivers nothing ends the attempt.  Since each
other call delivers something, `wanted` bounds their count. -/
def pull (d : Device) : (fuel call offset wanted : Nat) → Pull
  | 0, _, _, _ => ⟨.ok [], [], false⟩
  | fuel + 1, call, offset, wanted =>
      if wanted = 0 then ⟨.ok [], [], false⟩
      else
        match d.reply call offset wanted with
        | .fails cause => ⟨.error cause, [⟨offset, wanted⟩], d.cancelsAt call⟩
        | .delivers most =>
            let count := min most (min wanted (d.length - offset))
            if count = 0 then ⟨.error .endedEarly, [⟨offset, wanted⟩], d.cancelsAt call⟩
            else
              let rest := d.pull fuel (call + 1) (offset + count) (wanted - count)
              { outcome := rest.outcome.map fun bytes => d.slice offset count ++ bytes
                calls := ⟨offset, wanted⟩ :: rest.calls
                cancelled := d.cancelsAt call || rest.cancelled }

@[simp] theorem pull_zero (d : Device) (fuel call offset : Nat) :
    d.pull fuel call offset 0 = ⟨.ok [], [], false⟩ := by
  cases fuel <;> simp [pull]

end Device

end EbmlReport
