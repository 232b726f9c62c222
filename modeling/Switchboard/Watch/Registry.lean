import Switchboard.Tree.Query
import Switchboard.Watch.Bell
/-!
# Watches

A watch is a standing query. Its mailbox has room for one result, and a newer result replaces one
that was not taken. After every write each watch is evaluated again, and a result is delivered if
the matched addresses or their revisions differ from those of the last evaluation. The first
result is in the mailbox when the watch is registered.

A watch is registered until it is released. Its consumer holds a receiver, whose bell is rung at
every delivery and at the release, and which outlives the watch. Watches are numbered in the order
of their registration, and a number is never used again.
-/

namespace Switchboard

/-- The number of a watch. -/
structure WatchId where
  /-- Watches are counted from one. -/
  number : Nat
deriving DecidableEq, Repr, Inhabited

/-- The number as it is shown. -/
def WatchId.text (id : WatchId) : String := s!"watch-{id.number}"

/-- A registered watch. -/
structure Watch where
  /-- The address that is queried. -/
  pattern : Address
  /-- The caller's spelling of it, the key of a result without wildcard. -/
  key : String
  /-- The addresses and revisions of the last evaluation. -/
  lastSeen : List (String × Nat)
  /-- The mailbox: the newest result that was not taken. -/
  pending : Option Matches

namespace Watch

/-- The result of the query now. -/
def result (w : Watch) (t : Tree) : Matches :=
  t.expand w.pattern w.key

/-- The query has another result than at the last evaluation. -/
def isStale (w : Watch) (t : Tree) : Bool :=
  w.lastSeen ≠ (w.result t).revisions

/-- Evaluates the query again and delivers a result that has changed. -/
def evaluate (w : Watch) (t : Tree) : Watch :=
  if w.isStale t then
    { w with lastSeen := (w.result t).revisions, pending := some (w.result t) }
  else w

/-- A watch at its registration, with its first result. -/
def first (pattern : Address) (key : String) (t : Tree) : Watch :=
  ⟨pattern, key, (t.expand pattern key).revisions, some (t.expand pattern key)⟩

end Watch

/-- What a consumer finds in a mailbox. -/
inductive Mail where
  /-- A result. -/
  | ready (found : Matches)
  /-- Nothing. -/
  | empty
  /-- The watch is no longer registered. -/
  | released

/-- All watches of a store. -/
structure Registry where
  /-- How many watches were registered so far. -/
  issued : Nat
  /-- The watches that are registered now, oldest first. -/
  watches : List (WatchId × Watch)
  /-- The bells of the receivers that are held now. -/
  bells : List (WatchId × Bell)

namespace Registry

/-- No watch was ever registered. -/
def new : Registry := ⟨0, [], []⟩

/-- How many watches are registered. -/
def count (r : Registry) : Nat := r.watches.length

/-- The watch with the given number, if it is registered. -/
def find? (r : Registry) (id : WatchId) : Option Watch := r.watches.lookup id

/-- The bell of a receiver. -/
def bell (r : Registry) (id : WatchId) : Bell := (r.bells.lookup id).getD .silent

/-- Changes the bell of a receiver. -/
def updateBell (r : Registry) (id : WatchId) (f : Bell → Bell) : Registry :=
  { r with bells := r.bells.map fun (i, b) => (i, if i = id then f b else b) }

/-- Registers a watch, whose first result is delivered at once. -/
def register (r : Registry) (pattern : Address) (key : String) (t : Tree) : WatchId × Registry :=
  let id : WatchId := ⟨r.issued + 1⟩
  (id, {
    issued := r.issued + 1
    watches := r.watches ++ [(id, .first pattern key t)]
    bells := r.bells ++ [(id, Bell.silent.ring)] })

/-- Evaluates every watch after a write and rings the bells of those that deliver. -/
def evaluate (r : Registry) (t : Tree) : Registry :=
  { r with
    watches := r.watches.map fun (id, w) => (id, w.evaluate t)
    bells := r.bells.map fun (id, b) =>
      (id, if (r.find? id).any (·.isStale t) then b.ring else b) }

/-- Looks into a mailbox and empties it. -/
def take (r : Registry) (id : WatchId) : Mail × Registry :=
  match r.find? id with
  | none => (.released, r)
  | some w =>
    match w.pending with
    | none => (.empty, r)
    | some found =>
      (.ready found, { r with
        watches := r.watches.map fun (i, v) =>
          (i, if i = id then { v with pending := none } else v) })

/-- Ends a watch and rings its bell; a watch that has ended stays as it is. -/
def release (r : Registry) (id : WatchId) : Registry :=
  match r.find? id with
  | none => r
  | some _ => { r.updateBell id .ring with watches := r.watches.filter fun entry => entry.1 ≠ id }

/-- The receiver is dropped: its watch ends and its bell is gone. -/
def drop (r : Registry) (id : WatchId) : Registry :=
  let r := r.release id
  { r with bells := r.bells.filter fun entry => entry.1 ≠ id }

/-- The consumer looks into its mailbox and, if it is empty, turns to its bell. A stored ring makes
it look once more; after that there is none left, so that it looks twice at most. -/
def look (r : Registry) (id : WatchId) : Nat → Mail × Registry
  | 0 => (.empty, r)
  | looks + 1 =>
    match r.take id with
    | (.empty, r) =>
      let (rung, b) := (r.bell id).wait
      let r := r.updateBell id fun _ => b
      if rung then r.look id looks else (.empty, r)
    | (mail, r) => (mail, r)

/-- The consumer asks for the next result and, if there is none yet, waits at its bell. While it
waits without having been woken it does not look into its mailbox. -/
def poll (r : Registry) (id : WatchId) : Mail × Registry :=
  match (r.bell id).waiter with
  | .away => r.look id 2
  | .parked => (.empty, r)
  | .woken => (r.updateBell id fun b => b.wait.2).look id 2

/-- The consumer stops waiting. -/
def cancel (r : Registry) (id : WatchId) : Registry :=
  r.updateBell id .cancel

end Registry

end Switchboard
