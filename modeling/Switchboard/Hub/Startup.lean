import Switchboard.Config.Basic
import Switchboard.Hub.Rules
/-!
# Setting up a hub

A hub is set up from a configuration: the root is written, if there is something to write, and then
the rules are started one after the other. The first refusal ends it.
-/

namespace Switchboard

/-- Why a hub was not set up. -/
inductive StartupError where
  /-- The root was not written. -/
  | initial (cause : StoreError)
  /-- A rule was not started. -/
  | rule (name : String) (cause : AutomationError)
deriving DecidableEq, Repr

namespace StartupError

/-- The report as it is shown, without the cause. -/
def message : StartupError → String
  | initial _ => "failed to write initial status"
  | rule name _ => s!"failed to start rule '{name}'"

/-- The report of the cause. -/
def cause : StartupError → String
  | initial e => e.message
  | rule _ e => e.message

end StartupError

namespace Hub

/-- Writes the root, if there is something to write. -/
def seed (h : Hub) : Option Json → Except StartupError Hub
  | none => .ok h
  | some value =>
    match h.store.set h.store.rootAddress.text value .unchecked with
    | (.ok _, s) => .ok (h.withStore s)
    | (.error e, _) => .error (.initial e)

/-- Starts rules in order. -/
def addRules (h : Hub) : List Rule → Except StartupError Hub
  | [] => .ok h
  | rule :: rest =>
    match h.addRule rule with
    | (.ok (), h) => h.addRules rest
    | (.error e, _) => .error (.rule rule.name e)

/-- A hub for a configuration. -/
def ofConfig (c : Config) : Except StartupError Hub := do
  let h ← (new c.scheme c.timeout).seed c.initial
  h.addRules c.rules

end Hub

end Switchboard
