import Switchboard.Rule
import Switchboard.Condition.Watch
/-!
# The task of a rule

Every rule runs as a task of its own, step by step. The task follows the condition of the rule and
fires on each report of *true* that comes after a report of *false*; the first report only says
whether the rule is armed. A firing carries out the actions in order. An action that loses against
another write is passed over, any other failure ends the firing. While a delay lasts the task does
nothing, and its watches keep only the newest mail.

A task that is told to stop ends when it next looks at its condition, after the actions of a
firing.

A task works from one point where it has to wait to the next: a point where no feed of its condition
has mail, or a delay. It can be cancelled at any time, but only where it waits does it take notice.
A task that waits is not resumed any more. A task that is at work goes on up to the next point where
it would have to wait, and ends there.
-/

namespace Switchboard

/-- Where the task of a rule stands. -/
inductive Phase where
  /-- It has not run yet. -/
  | starting
  /-- It follows the condition; `armed` says that the last report was *false*. -/
  | following (armed : Bool)
  /-- It carries out actions. -/
  | acting (remaining : List Action)
  /-- It waits until a time before the remaining actions. -/
  | sleeping (wakeUp : Nat) (remaining : List Action)
  /-- It has ended. -/
  | ended

/-- The task of a rule. -/
structure RuleTask where
  rule : Rule
  /-- The condition. -/
  watch : ConditionWatch
  phase : Phase
  /-- How often the rule has fired. -/
  fired : Nat
  /-- The task was told to stop. -/
  stopping : Bool
  /-- The task was cancelled. -/
  cancelled : Bool
  /-- The task is at work: since it was last resumed it has not had to wait. -/
  working : Bool

/-- What comes after a step of a task. -/
inductive Progress where
  /-- Another step can follow at once. -/
  | runs
  /-- The task waits for a bell or for the clock. -/
  | waits
  /-- The task has ended. -/
  | ends
deriving DecidableEq, Repr

/-- Carries out an action that is no delay. -/
def Action.run (s : Store) : Action → Except StoreError Nat × Store
  | set url value expected => s.set url value expected
  | remove url expected => s.remove url expected
  | delay _ => (.ok s.revision, s)

namespace RuleTask

/-- The task of a rule whose condition is being followed. -/
def start (rule : Rule) (watch : ConditionWatch) : RuleTask :=
  ⟨rule, watch, .starting, 0, false, false, false⟩

/-- The task has not ended. -/
def isAlive (t : RuleTask) : Bool :=
  match t.phase with
  | .ended => false
  | _ => true

/-- The task was cancelled and is not at work, so it is not resumed any more. -/
def isAborted (t : RuleTask) : Bool :=
  t.cancelled && !t.working

/-- Ends the task, and with it the watches of its condition. -/
def finish (t : RuleTask) (s : Store) : Progress × RuleTask × Store :=
  (.ends, { t with phase := .ended, working := false }, t.watch.close s)

/-- What a report of the condition leads to: a rule that is armed fires on *true*, and *false* arms
it. -/
def react (t : RuleTask) (armed value : Bool) : RuleTask :=
  if value then
    if armed then { t with phase := .acting t.rule.actions, fired := t.fired + 1 }
    else { t with phase := .following false }
  else { t with phase := .following true }

/-- Serves one feed of the condition. -/
def follow (t : RuleTask) (armed : Bool) (s : Store) : Progress × RuleTask × Store :=
  match t.watch.serve s with
  | none => if t.watch.isOver then t.finish s else (.waits, t, s)
  | some (news, watch, s) =>
    let t := { t with watch }
    match news with
    | none => (.runs, t, s)
    | some value => (.runs, t.react armed value, s)

/-- Carries out the next action. -/
def act (t : RuleTask) (clock : Nat) (s : Store) : List Action → Progress × RuleTask × Store
  | [] => (.runs, { t with phase := .following false }, s)
  | .delay duration :: rest =>
    if duration.ticks = 0 then (.runs, { t with phase := .acting rest }, s)
    else (.waits, { t with phase := .sleeping (clock + duration.ticks) rest }, s)
  | action :: rest =>
    match action.run s with
    | (.ok _, s) => (.runs, { t with phase := .acting rest }, s)
    | (.error e, s) =>
      if e.isConflict then (.runs, { t with phase := .acting rest }, s)
      else (.runs, { t with phase := .following false }, s)

/-- What the task does next. -/
def advance (t : RuleTask) (clock : Nat) (s : Store) : Progress × RuleTask × Store :=
  match t.phase with
  | .starting =>
    let value := t.watch.value
    let watch := { t.watch with reported := some value }
    (.runs, { t with watch, phase := .following !value }, s)
  | .following armed => if t.stopping then t.finish s else t.follow armed s
  | .acting remaining => t.act clock s remaining
  | .sleeping wakeUp remaining =>
    if wakeUp ≤ clock then (.runs, { t with phase := .acting remaining }, s) else (.waits, t, s)
  | .ended => (.ends, t, s)

/-- What comes of what the task has done: it stays at work, or waits. Where it would have to wait, a
task that was cancelled ends. -/
def yield : Progress × RuleTask × Store → Progress × RuleTask × Store
  | (.runs, t, s) => (.runs, { t with working := true }, s)
  | (.waits, t, s) => if t.cancelled then t.finish s else (.waits, { t with working := false }, s)
  | (.ends, t, s) => (.ends, t, s)

/-- One step of the task. -/
def step (t : RuleTask) (clock : Nat) (s : Store) : Progress × RuleTask × Store :=
  if t.isAlive && t.isAborted then t.finish s else yield (t.advance clock s)

/-- The time for which the task has asked to be woken. -/
def alarm? (t : RuleTask) : Option Nat :=
  match t.phase with
  | .sleeping wakeUp _ => some wakeUp
  | _ => none

end RuleTask

end Switchboard
