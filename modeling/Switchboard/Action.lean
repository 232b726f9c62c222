import Switchboard.Document
import Switchboard.Duration
import Switchboard.Precondition
/-!
# Actions

What a rule does when it fires: write a value, remove a node, or wait. An action is written as an
object with its kind under `action` and its fields beside it, or as an array with the kind first. A
delay is written and read as a count of milliseconds.
-/

namespace Switchboard

/-- One step of a firing. -/
inductive Action where
  /-- Writes a value. -/
  | set (url : String) (value : Json) (expected : Precondition)
  /-- Removes a node. -/
  | remove (url : String) (expected : Precondition)
  /-- Waits for some time. -/
  | delay (duration : Duration)
deriving Inhabited

namespace Action

/-- The action in a few words. -/
def describe : Action → String
  | set url _ _ => s!"set {url}"
  | remove url _ => s!"remove {url}"
  | delay duration => s!"delay {duration.milliseconds}ms"

/-- The action as a JSON value. -/
def toJson : Action → Json
  | set url value expected =>
    .object [("action", .string "set"), ("revision", expected.toJson), ("url", .string url),
      ("value", value)]
  | remove url expected =>
    .object [("action", .string "remove"), ("revision", expected.toJson), ("url", .string url)]
  | delay duration =>
    .object [("action", .string "delay"), ("delay", .ofCount duration.count)]

/-- The kinds of actions. -/
inductive Kind where
  | set
  | remove
  | delay

/-- The kinds of actions, in their order. -/
def kinds : List (String × Kind) :=
  [("set", .set), ("remove", .remove), ("delay", .delay)]

/-- The precondition that a field holds; a missing field expects nothing. -/
def expected? : Option Document → Option Precondition
  | none => some .unchecked
  | some d => d.toJson?.bind Precondition.ofJson?

/-- Reads an action from a document, which has no tags in it. -/
def ofDocument? (d : Document) : Option Action :=
  if d.isPlain then do
    let (kind, fields) ← (← d.parts?).variant? "action"
    match ← Parts.kind? false kinds kind with
    | .set =>
      match ← fields.record? ["url", "value", "revision"] with
      | [some url, some value, revision] =>
        return .set (← url.string?) (← value.toJson?) (← expected? revision)
      | _ => none
    | .remove =>
      match ← fields.record? ["url", "revision"] with
      | [some url, revision] => return .remove (← url.string?) (← expected? revision)
      | _ => none
    | .delay =>
      return .delay (.ofMilliseconds (← (← fields.only? "delay").count?))
  else none

/-- Reads an action from a JSON value. -/
def ofJson? (j : Json) : Option Action :=
  ofDocument? (.ofJson j)

end Action

end Switchboard
