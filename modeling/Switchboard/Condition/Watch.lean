import Switchboard.Condition.Test
/-!
# Following a condition

A condition is followed through one watch for each of its leaves. The feeds of the leaves stand in
a queue. Serving the feed at the front means to look into its mailbox: a feed with mail takes
it, notes the truth of its leaf and goes to the end of the queue; a feed without mail leaves the
queue and waits at its bell, and comes back when the bell has been rung.

The condition is evaluated after every mail, so that it may pass through values that hold in
no single state of the store. A value is reported when it differs from the one reported last; the
first report is the value at the start.
-/

namespace Switchboard

/-- The watch of a leaf. -/
structure Feed where
  /-- The watch. -/
  watch : WatchId
  /-- The test of the leaf. -/
  test : PreparedTest
  /-- The truth of the leaf for the last mail. -/
  truth : Bool
  /-- The watch was released, so that no more mail comes. -/
  ended : Bool

/-- A condition that is being followed. -/
structure ConditionWatch where
  condition : Condition
  /-- The feeds, in the order of the leaves. -/
  feeds : List Feed
  /-- The positions of the feeds that are to be served. -/
  queue : List Nat
  /-- The value that was reported last. -/
  reported : Option Bool

/-- What following a condition leads to. -/
inductive Change where
  /-- The condition has a new value. -/
  | value (b : Bool)
  /-- No feed has mail. -/
  | waiting
  /-- No feed will have mail again. -/
  | ended
deriving DecidableEq, Repr

namespace ConditionWatch

/-- Opens the feed of every leaf, one after the other, and takes its first mail. A leaf that is
refused closes the feeds opened before it. -/
def openFeeds (s : Store) : List LeafCondition → Except AutomationError (List Feed) × Store
  | [] => (.ok [], s)
  | leaf :: rest =>
    match leaf.test.prepare with
    | .error e => (.error e, s)
    | .ok test =>
      match s.watch leaf.url with
      | .error e => (.error (.store e), s)
      | .ok (id, s) =>
        let (mail, s) := s.take id
        let found := match mail with
          | .ready found => found
          | .empty | .released => []
        match openFeeds s rest with
        | (.error e, s) => (.error e, s.drop id)
        | (.ok feeds, s) => (.ok (⟨id, test, test.holds found, false⟩ :: feeds), s)

/-- Starts to follow a condition. -/
def start (s : Store) (c : Condition) : Except AutomationError ConditionWatch × Store :=
  if c.isComplete then
    match openFeeds s c.leaves with
    | (.error e, s) => (.error e, s)
    | (.ok feeds, s) => (.ok ⟨c, feeds, List.range feeds.length, none⟩, s)
  else (.error .invalidCondition, s)

/-- The value of the condition for the mail taken so far. -/
def value (w : ConditionWatch) : Bool :=
  (w.condition.evaluate (w.feeds.map Feed.truth) 0).1

/-- The watches of the feeds. -/
def watches (w : ConditionWatch) : List WatchId :=
  w.feeds.map Feed.watch

/-- Ends the watches of all feeds. -/
def close (w : ConditionWatch) (s : Store) : Store :=
  s.dropAll w.watches

/-- The positions of the feeds whose bell was rung while they waited. -/
def woken (w : ConditionWatch) (s : Store) : List Nat :=
  (List.range w.feeds.length).filter fun i =>
    !w.queue.contains i &&
      (w.feeds[i]?).any fun feed => (s.registry.bell feed.watch).waiter = .woken

/-- Puts the feeds that were woken back into the queue. -/
def rouse (w : ConditionWatch) (s : Store) : ConditionWatch :=
  { w with queue := w.queue ++ w.woken s }

/-- Reports the value if it is news. -/
def report (w : ConditionWatch) : Option Bool × ConditionWatch :=
  if w.reported = some w.value then (none, w)
  else (some w.value, { w with reported := some w.value })

/-- Serves the feed at the front of the queue. The answer is a report, or nothing; it is `none` if
no feed is in the queue. -/
def serve (w : ConditionWatch) (s : Store) : Option (Option Bool × ConditionWatch × Store) :=
  match w.queue with
  | [] => none
  | i :: rest =>
    match w.feeds[i]? with
    | none => some (none, { w with queue := rest }, s)
    | some feed =>
      match s.poll feed.watch with
      | (.ready found, s) =>
        let feeds := w.feeds.set i { feed with truth := feed.test.holds found }
        let (news, w) := report { w with feeds, queue := rest ++ [i] }
        some (news, w, s)
      | (.empty, s) => some (none, { w with queue := rest }, s)
      | (.released, s) =>
        let feeds := w.feeds.set i { feed with ended := true }
        some (none, { w with feeds, queue := rest }, s)

/-- All feeds have ended. -/
def isOver (w : ConditionWatch) : Bool :=
  w.feeds.all Feed.ended

/-- Serves feeds until there is a report or nothing left to serve. -/
def serveAll (w : ConditionWatch) (s : Store) : Nat → Change × ConditionWatch × Store
  | 0 => (.waiting, w, s)
  | tries + 1 =>
    match w.serve s with
    | none => (if w.isOver then .ended else .waiting, w, s)
    | some (some b, w, s) => (.value b, w, s)
    | some (none, w, s) => serveAll w s tries

/-- The next report: at first the value at the start, later the next value that is news. Every
feed has at most one mail, so it is served at most twice. -/
def next (w : ConditionWatch) (s : Store) : Change × ConditionWatch × Store :=
  match w.reported with
  | none => (.value w.value, { w with reported := some w.value }, s)
  | some _ => w.serveAll s (2 * w.feeds.length + 1)

end ConditionWatch

end Switchboard
