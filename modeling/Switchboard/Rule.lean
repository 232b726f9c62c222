import Switchboard.Condition.Codec
import Switchboard.Action
/-!
# Rules

A rule has a name, a condition and a list of actions, which it carries out in order whenever the
condition becomes true. As a JSON value a rule is an object or the array of its fields; in a
configuration text it is a mapping. Its actions may be missing.
-/

namespace Switchboard

/-- A condition and what is done when it becomes true. -/
structure Rule where
  /-- The name, by which a rule is found again. -/
  name : String
  /-- What has to become true. -/
  condition : Condition
  /-- What is done then, in order. -/
  actions : List Action
deriving Inhabited

namespace Rule

/-- The rule as a JSON value. -/
def toJson (r : Rule) : Json :=
  .object [("actions", .array (r.actions.map Action.toJson)), ("condition", r.condition.toJson),
    ("name", .string r.name)]

/-- The names of the fields. -/
def fieldNames : List String := ["name", "condition", "actions"]

/-- Reads the actions that a document lists. -/
def actions? : Document → Option (List Action)
  | .sequence items => items.mapM Action.ofDocument?
  | _ => none

/-- Reads a rule from a JSON value. -/
def ofJson? (j : Json) : Option Rule := do
  match ← (← (Document.ofJson j).parts?).record? fieldNames with
  | [some name, some condition, actions] =>
    let actions ← match actions with
      | some d => actions? d
      | none => some []
    return ⟨← name.string?, ← Condition.ofDocument? condition, actions⟩
  | _ => none

end Rule

end Switchboard
