/-!
Spans of time, as whole seconds and a fraction of a second, and the moments that they lead to.
-/

namespace Gearman

/-- A span of time with a resolution of one nanosecond. -/
structure Duration where
  seconds : UInt64
  /-- The fraction of a second, in nanoseconds. -/
  nanos : Nat
  nanos_lt : nanos < 1000000000 := by decide
deriving DecidableEq, Repr

namespace Duration

def ofMillis (ms : UInt64) : Duration where
  seconds := ms / 1000
  nanos := ms.toNat % 1000 * 1000000
  nanos_lt := by omega

/-- The span in nanoseconds. -/
def toNanos (d : Duration) : Nat := d.seconds.toNat * 1000000000 + d.nanos

/-- The whole milliseconds of the span. -/
def toMillis (d : Duration) : Nat := d.toNanos / 1000000

/-- The whole seconds of the span, a fraction counted as a second. A count that does not fit its word
is none at all. -/
def ceilSeconds? (d : Duration) : Option UInt64 :=
  if 0 < d.nanos then
    if d.seconds.toNat + 1 < UInt64.size then some (d.seconds + 1) else none
  else some d.seconds

end Duration

/-- A moment on the clock that is asked for deadlines, in nanoseconds since the clock began. -/
structure Instant where
  nanos : Nat
deriving DecidableEq, Repr

namespace Instant

/-- The first moment that the clock cannot tell: its seconds are a signed word. -/
def limit : Nat := 9223372036854775808 * 1000000000

/-- The moment that is so much later, if the clock can tell it. -/
def after? (t : Instant) (d : Duration) : Option Instant :=
  if t.nanos + d.toNanos < limit then some ⟨t.nanos + d.toNanos⟩ else none

/-- When the time is up for what starts now, if it is up at some time. A deadline that the clock cannot
tell is none at all. -/
def deadline? (t : Instant) : Option Duration → Option (Option Instant)
  | none => some none
  | some timeout => (t.after? timeout).map some

theorem nanos_of_after? {t deadline : Instant} {d : Duration} (h : t.after? d = some deadline) :
    deadline.nanos = t.nanos + d.toNanos := by
  unfold after? at h
  split at h
  · exact congrArg nanos (Option.some.inj h).symm
  · contradiction

/-- The moment when something ends that lasts so many milliseconds. -/
def afterMillis (t : Instant) (ms : Nat) : Instant := ⟨t.nanos + ms * 1000000⟩

end Instant

end Gearman
