import Switchboard.Hub.RuleTask
import Switchboard.Http.Handler
/-!
# The hub

A hub is a store with all that is attached to it: the tasks of its rules, the requests that are
being handled, and the watches and conditions that callers hold under names of their own. There is
one clock, in milliseconds, which moves only when the hub is told to wait.

Tasks that can go on stand in a line. The first one is carried out step by step (`Hub.step`) until
it waits or ends; a step that rings the bell of another task puts that one at the end of the line.
The hub is settled when the line is empty. Rules may keep each other busy without end, so settling
gives up after a large number of steps (`Hub.patience`).
-/

namespace Switchboard

/-- The number of a task. -/
structure TaskId where
  /-- Tasks are counted from one. -/
  number : Nat
deriving DecidableEq, Repr

/-- A request that is handled as a task of its own. -/
inductive RequestTask where
  /-- It has not been looked at. -/
  | arrived (r : Request)
  | waiting (p : LongPoll)
  | answered (r : Response)
  /-- It was cancelled before it was looked at, or while it waited. -/
  | cancelled (watch : Option WatchId)

/-- What the hub carries out step by step. -/
inductive Task where
  | rule (t : RuleTask)
  | request (t : RequestTask)

/-- A store with all that is attached to it. -/
structure Hub where
  store : Store
  /-- The time, in milliseconds. -/
  clock : Nat
  /-- How long a request may wait. -/
  timeout : Nat
  /-- The registered rules and their tasks. -/
  rules : List (String × TaskId)
  /-- The tasks, oldest first. -/
  tasks : List (TaskId × Task)
  /-- How many tasks were started so far. -/
  started : Nat
  /-- The tasks that can go on, first come, first served. -/
  line : List TaskId
  /-- The watches that callers hold. -/
  watches : List (String × WatchId)
  /-- The conditions that callers follow. -/
  conditions : List (String × ConditionWatch)
  /-- The requests whose responses callers wait for. -/
  requests : List (String × TaskId)

namespace RequestTask

/-- One step of a request. -/
def step (t : RequestTask) (clock timeout : Nat) (s : Store) : Progress × RequestTask × Store :=
  let settle : Handling × Store → Progress × RequestTask × Store
    | (.answered r, s) => (.ends, .answered r, s)
    | (.waiting p, s) => (.waits, .waiting p, s)
  match t with
  | arrived r => settle (r.handle s clock timeout)
  | waiting p => settle (p.poll clock s 2)
  | answered r => (.ends, .answered r, s)
  | cancelled none => (.ends, .cancelled none, s)
  | cancelled (some watch) => (.ends, .cancelled none, s.drop watch)

/-- The request is cancelled; its watch ends with the next step. -/
def cancel : RequestTask → RequestTask
  | arrived _ => cancelled none
  | waiting p => cancelled (some p.watch)
  | t => t

end RequestTask

namespace Task

/-- One step of a task. -/
def step (t : Task) (clock timeout : Nat) (s : Store) : Progress × Task × Store :=
  match t with
  | rule t =>
    let (progress, t, s) := t.step clock s
    (progress, .rule t, s)
  | request t =>
    let (progress, t, s) := t.step clock timeout s
    (progress, .request t, s)

/-- The time for which the task has asked to be woken. -/
def alarm? : Task → Option Nat
  | rule t => t.alarm?
  | request (.waiting p) => some p.deadline
  | request _ => none

/-- The bell of the task was rung while it waited. -/
def isWoken (t : Task) (s : Store) : Bool :=
  match t with
  | rule t => t.isAlive && !(t.watch.woken s).isEmpty
  | request (.waiting p) => (s.registry.bell p.watch).waiter = .woken
  | request _ => false

/-- The feeds whose bells were rung are to be served. -/
def rouse (t : Task) (s : Store) : Task :=
  match t with
  | rule t => rule { t with watch := t.watch.rouse s }
  | request t => request t

end Task

namespace Hub

/-- A hub without rules and requests. -/
def new (scheme : String) (timeout : Nat) : Hub :=
  { store := .new scheme, clock := 0, timeout, rules := [], tasks := [], started := 0, line := [],
    watches := [], conditions := [], requests := [] }

/-! ## Tasks -/

/-- Puts tasks at the end of the line, unless they stand in it. -/
def enqueue (h : Hub) (ids : List TaskId) : Hub :=
  { h with line := h.line ++ ids.filter fun id => !h.line.contains id }

/-- The tasks with a certain property. -/
def tasksWhere (h : Hub) (p : Task → Bool) : List TaskId :=
  (h.tasks.filter fun entry => p entry.2).map Prod.fst

/-- Passes on the bells that were rung: to the feeds they belong to, and to the tasks, which join
the line. -/
def rouse (h : Hub) : Hub :=
  let woken := h.tasksWhere fun t => t.isWoken h.store
  let roused : Hub := { h with
    tasks := h.tasks.map fun (id, t) => (id, t.rouse h.store)
    conditions := h.conditions.map fun (name, w) => (name, w.rouse h.store) }
  roused.enqueue woken

/-- The hub with its store changed, and all bells passed on that this rang. -/
def withStore (h : Hub) (s : Store) : Hub :=
  rouse { h with store := s }

/-- Changes a task. -/
def updateTask (h : Hub) (id : TaskId) (f : Task → Task) : Hub :=
  { h with tasks := h.tasks.map fun (i, t) => (i, if i = id then f t else t) }

/-- Changes the task of a rule. -/
def updateRule (h : Hub) (id : TaskId) (f : RuleTask → RuleTask) : Hub :=
  h.updateTask id fun
    | .rule t => .rule (f t)
    | t => t

/-- Starts a task, which joins the line. -/
def spawn (h : Hub) (t : Task) : TaskId × Hub :=
  let id : TaskId := ⟨h.started + 1⟩
  (id, { h with
    started := h.started + 1
    tasks := h.tasks ++ [(id, t)]
    line := h.line ++ [id] })

/-- The task is of no more use: nobody asks for a rule that is not registered or for the answer of
a request that was cancelled. -/
def isForgotten (h : Hub) (id : TaskId) : Task → Bool
  | .rule t => !t.isAlive && !(h.rules.map Prod.snd).contains id
  | .request (.cancelled none) => true
  | .request _ => false

/-- Carries out one step of the first task in the line. -/
def step (h : Hub) : Option Hub :=
  match h.line with
  | [] => none
  | id :: rest =>
    match h.tasks.lookup id with
    | none => some { h with line := rest }
    | some t =>
      let (progress, t, s) := t.step h.clock h.timeout h.store
      let h := h.updateTask id fun _ => t
      let h := if progress = .runs then h else { h with line := rest }
      let h := if h.isForgotten id t then
          { h with tasks := h.tasks.filter fun entry => entry.1 ≠ id }
        else h
      some (h.withStore s)

/-- How many steps a hub takes before it gives up to settle. -/
def patience : Nat := 100000

/-- Carries out at most `steps` steps. -/
def run (h : Hub) : Nat → Hub
  | 0 => h
  | steps + 1 =>
    match h.step with
    | none => h
    | some h => h.run steps

/-- Carries out steps until the line is empty. -/
def settle (h : Hub) : Hub := h.run patience

/-! ## Time -/

/-- The earliest time for which some task has asked, and that has not come yet. -/
def nextAlarm? (h : Hub) : Option Nat :=
  let alarms := h.tasks.filterMap fun entry => entry.2.alarm?
  (alarms.filter (h.clock < ·)).min?

/-- Moves the clock, and puts the tasks whose time has come into the line. -/
def moveTo (h : Hub) (time : Nat) : Hub :=
  enqueue { h with clock := time } (h.tasksWhere fun t => t.alarm?.any (· ≤ time))

/-- Lets time pass up to `target`: the hub settles, the clock moves to the next alarm, and so on.
The clock moves with every try but the last. -/
def waitUntil (h : Hub) (target : Nat) : Nat → Hub
  | 0 => h
  | tries + 1 =>
    let h := h.settle
    match h.nextAlarm? with
    | some time =>
      if time ≤ target then (h.moveTo time).waitUntil target tries else h.moveTo target
    | none => h.moveTo target

/-- Lets some milliseconds pass. -/
def advance (h : Hub) (milliseconds : Nat) : Hub :=
  h.waitUntil (h.clock + milliseconds) (milliseconds + 1)

/-- Waits for the answer of a request while everything else goes on. -/
def await (h : Hub) (p : LongPoll) : Nat → Response × Hub
  | 0 => (.bare 500, h)
  | tries + 1 =>
    let h := h.settle
    match p.poll h.clock h.store 2 with
    | (.answered r, s) => (r, h.withStore s)
    | (.waiting p, s) =>
      let h := h.withStore s
      let time := match h.nextAlarm? with
        | some time => min time p.deadline
        | none => p.deadline
      (h.moveTo time).await p tries

/-- Handles a request and waits for its answer. -/
def request (h : Hub) (r : Request) : Response × Hub :=
  match r.handle h.store h.clock h.timeout with
  | (.answered response, s) => (response, h.withStore s)
  | (.waiting p, s) => (h.withStore s).await p (h.timeout + 2)

end Hub

end Switchboard
