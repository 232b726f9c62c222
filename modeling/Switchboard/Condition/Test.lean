import Switchboard.Condition.Basic
import Switchboard.Decimal.Reading
import Switchboard.Regex.Parser
import Switchboard.Store
/-!
# Testing values

A test is prepared once, so that a pattern that is no regular expression is refused early, and is
then put to the entries of a query. A leaf is true if its query matches something and every match
passes the test.
-/

namespace Switchboard

/-- Why a condition or a rule was refused. -/
inductive AutomationError where
  /-- A combinator has no parts. -/
  | invalidCondition
  /-- The pattern of a test is no regular expression. -/
  | invalidRegex (pattern : String)
  /-- There is a rule of that name. -/
  | duplicateRule (name : String)
  /-- There is no rule of that name. -/
  | ruleNotFound (name : String)
  /-- The store refused a request. -/
  | store (e : StoreError)
deriving DecidableEq, Repr

namespace AutomationError

/-- The report as it is shown; the wording for a regular expression is left open. -/
def message : AutomationError → String
  | invalidCondition => "Invalid condition configuration: and/or/not require at least one condition"
  | invalidRegex pattern => s!"Invalid regex '{pattern}'"
  | duplicateRule name => s!"Rule already registered: {name}"
  | ruleNotFound name => s!"Rule not found: {name}"
  | store e => e.message

/-- A write lost against another one. -/
def isConflict : AutomationError → Bool
  | store e => e.isConflict
  | _ => false

end AutomationError

/-- A test that is ready to be put to values. -/
inductive PreparedTest where
  | present
  | equals (value : Json)
  | above (threshold : Extended)
  | below (threshold : Extended)
  | matching (regex : Regex)

/-- The number that a value stands for: a number itself, or a text that reads as one, with blanks
around it allowed. -/
def Json.asNumber? : Json → Option Extended
  | .number n => some n.toExtended
  | .string s => Extended.read? (trimBlanks s.toList)
  | _ => none

/-- Prepares a test. -/
def ValueTest.prepare : ValueTest → Except AutomationError PreparedTest
  | present => .ok .present
  | equals value => .ok (.equals value)
  | above threshold => .ok (.above threshold)
  | below threshold => .ok (.below threshold)
  | matching pattern =>
    match Regex.compile? pattern with
    | some regex => .ok (.matching regex)
    | none => .error (.invalidRegex pattern)

namespace PreparedTest

/-- The value passes the test. -/
def passes : PreparedTest → Json → Bool
  | present, _ => true
  | equals expected, value => value.same expected
  | above threshold, value => value.asNumber?.any fun x => threshold.less x
  | below threshold, value => value.asNumber?.any fun x => x.less threshold
  | matching regex, value =>
    match value with
    | .string s => regex.matchesIn s
    | _ => false

/-- There are entries, and all of them pass the test. -/
def holds (t : PreparedTest) (found : Matches) : Bool :=
  !found.isEmpty && found.all fun (_, entry) => t.passes entry.value

end PreparedTest

/-- The truth of a leaf on a tree, by its query on that tree. A leaf that cannot be watched is
false. -/
def LeafCondition.holdsOn (s : Store) (leaf : LeafCondition) : Bool :=
  match leaf.test.prepare, s.expand leaf.url with
  | .ok test, .ok found => test.holds found
  | _, _ => false

/-- The truth of a condition on a tree, every leaf by its query on that tree. -/
def Condition.holdsOn (s : Store) (c : Condition) : Bool :=
  c.holds (LeafCondition.holdsOn s)

end Switchboard
