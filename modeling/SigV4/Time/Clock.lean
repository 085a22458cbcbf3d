import SigV4.Time.Instant
import Std.Time.DateTime.Timestamp

/-!
The clock of the machine.

Everything else takes the time as an argument; this is the one place where it is read.
-/

namespace SigV4.Clock

/-- The current instant. -/
def now : IO Instant := do
  let t ← Std.Time.Timestamp.now
  let nanos := t.toNanosecondsSinceUnixEpoch.val
  match Instant.ofUnix? (nanos.fdiv 1000000000) (nanos.fmod 1000000000).toNat with
  | some t => return t
  | none => throw (IO.userError "the clock shows a time outside the calendar")

end SigV4.Clock
