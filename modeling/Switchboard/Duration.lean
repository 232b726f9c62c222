/-!
# Spans of time

A span of time is exact to the nanosecond. It is written as a count of whole milliseconds, so what
is beyond the last whole millisecond is lost, and so is what a 64-bit count cannot hold.
-/

namespace Switchboard

/-- A span of time. -/
@[ext]
structure Duration where
  /-- The whole seconds. -/
  seconds : UInt64
  /-- What is beyond them. -/
  nanoseconds : Fin 1000000000
deriving DecidableEq, Inhabited

namespace Duration

/-- Some milliseconds. -/
def ofMilliseconds (n : UInt64) : Duration where
  seconds := n / 1000
  nanoseconds := .ofNat _ (n.toNat % 1000 * 1000000)

/-- The whole milliseconds. -/
def milliseconds (d : Duration) : Nat :=
  d.seconds.toNat * 1000 + d.nanoseconds / 1000000

/-- The count that stands for the span when it is written: the whole milliseconds, in 64 bits. -/
def count (d : Duration) : UInt64 :=
  .ofNat d.milliseconds

/-- For how many milliseconds of the clock a task sleeps that is to wait for this time: the clock
shows whole milliseconds, and nobody is woken too early. -/
def ticks (d : Duration) : Nat :=
  d.seconds.toNat * 1000 + (d.nanoseconds + 999999) / 1000000

end Duration

end Switchboard
