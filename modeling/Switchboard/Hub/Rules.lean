import Switchboard.Hub.Basic
/-!
# The rules of a hub

Rules are registered under their names. A rule that is added follows its condition from that moment
on; a rule that is refused leaves nothing behind. The task of a rule that is removed is cancelled,
and its watches end with it: when the task is next in the line if it waits, and where it would next
have to wait if it is at work. Stopping tells all rules to end but leaves them registered.
-/

namespace Switchboard.Hub

/-- Registers a rule and starts its task. -/
def addRule (h : Hub) (rule : Rule) : Except AutomationError Unit × Hub :=
  match h.rules.lookup rule.name with
  | some _ => (.error (.duplicateRule rule.name), h)
  | none =>
    match ConditionWatch.start h.store rule.condition with
    | (.error e, s) => (.error e, h.withStore s)
    | (.ok watch, s) =>
      let (id, h) := (h.withStore s).spawn (.rule (.start rule watch))
      (.ok (), { h with rules := h.rules ++ [(rule.name, id)] })

/-- Cancels the tasks of rules. -/
def cancelRules (h : Hub) (ids : List TaskId) : Hub :=
  (ids.foldl (fun h id => h.updateRule id fun t => { t with cancelled := true }) h).enqueue ids

/-- Removes a rule. -/
def removeRule (h : Hub) (name : String) : Except AutomationError Unit × Hub :=
  match h.rules.lookup name with
  | none => (.error (.ruleNotFound name), h)
  | some id =>
    (.ok (), { h with rules := h.rules.filter fun entry => entry.1 ≠ name }.cancelRules [id])

/-- Removes all rules. -/
def dropRules (h : Hub) : Hub :=
  { h with rules := [] }.cancelRules (h.rules.map Prod.snd)

/-- Tells all rules to end. -/
def stopRules (h : Hub) : Hub :=
  let ids := h.rules.map Prod.snd
  let tell (t : RuleTask) : RuleTask := if t.isAlive then { t with stopping := true } else t
  (ids.foldl (fun h id => h.updateRule id tell) h).enqueue ids

/-- How often the task of a rule has fired. -/
def firedOf (h : Hub) (id : TaskId) : Nat :=
  match h.tasks.lookup id with
  | some (.rule t) => t.fired
  | _ => 0

/-- How often a registered rule has fired. -/
def fired? (h : Hub) (name : String) : Option Nat :=
  (h.rules.lookup name).map h.firedOf

/-- The registered rules with their firings, by name. -/
def firedCounts (h : Hub) : List (String × Nat) :=
  Keyed.ofList (h.rules.map fun (name, id) => (name, h.firedOf id))

end Switchboard.Hub
