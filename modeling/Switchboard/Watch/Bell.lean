/-!
# Bells

A consumer that finds its mailbox empty waits at a bell. Ringing the bell wakes the consumer that
waits; if none waits, the ring is stored, once, and the next wait ends at once. A consumer that
gives up after it was woken hands the ring back, so that no ring is lost.
-/

namespace Switchboard

/-- Where the consumer of a bell stands. -/
inductive Waiter where
  /-- It does not wait. -/
  | away
  /-- It waits and has not been woken. -/
  | parked
  /-- It was woken and has not looked yet. -/
  | woken
deriving DecidableEq, Repr

/-- A bell with one consumer. -/
structure Bell where
  /-- A ring is stored for the next wait. -/
  stored : Bool
  /-- The consumer. -/
  waiter : Waiter
deriving DecidableEq, Repr

namespace Bell

/-- A bell that was never rung and at which nobody waits. -/
def silent : Bell := ⟨false, .away⟩

/-- Wakes the consumer that waits, or stores the ring. -/
def ring (b : Bell) : Bell :=
  match b.waiter with
  | .parked => { b with waiter := .woken }
  | .away | .woken => { b with stored := true }

/-- The consumer looks at the bell; the answer says whether its wait is over. A stored ring ends
the wait at once. -/
def wait (b : Bell) : Bool × Bell :=
  match b.waiter with
  | .woken => (true, { b with waiter := .away })
  | .parked => (false, b)
  | .away =>
    if b.stored then (true, { b with stored := false })
    else (false, { b with waiter := .parked })

/-- The consumer gives up. A ring that it has not answered is handed back. -/
def cancel (b : Bell) : Bell :=
  match b.waiter with
  | .woken => ring { b with waiter := .away }
  | .away | .parked => { b with waiter := .away }

end Bell

end Switchboard
