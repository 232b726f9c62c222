import Switchboard.Config.Environment
import Switchboard.Address
import Switchboard.Rule
/-!
# Configurations

A configuration says which scheme the store has, what it holds at the start, where the hub is
reached and how long a request may wait there, and which rules the hub follows. Everything may be
left out, and tags around a record, a list, a text or a number do not matter; values for the store
and conditions and actions have none.
-/

namespace Switchboard

/-- How a hub is set up. -/
structure Config where
  /-- The scheme of every address. -/
  scheme : String
  /-- What is written to the root at the start, if anything is. -/
  initial : Option Json
  /-- Where the hub is reached. -/
  bind : String
  /-- How long a request may wait, in seconds. -/
  longPollSeconds : UInt64
  /-- The rules, in the order in which they are started. -/
  rules : List Rule

namespace Config

/-- What holds for everything that is left out. -/
def standard : Config :=
  { scheme := Address.defaultScheme, initial := none, bind := "0.0.0.0:8080",
    longPollSeconds := 60, rules := [] }

/-- How long a request may wait, in milliseconds. -/
def timeout (c : Config) : Nat := c.longPollSeconds.toNat * 1000

/-! ## Reading -/

/-- The fields of a record. Null is a record without fields. -/
def fields? (d : Document) : Option (List (String × Document)) :=
  match d.untagged with
  | .null => some []
  | .mapping entries => entries.mapM fun (key, value) => key.untagged.string?.map (·, value)
  | _ => none

/-- The value of a field, read by `read?`, or else the value that holds if it is left out. A field
is not given twice. -/
def field {α : Type} (fields : List (String × Document)) (name : String)
    (read? : Document → Option α) (otherwise : Option α) : Option α :=
  match fields.filter fun entry => entry.1 = name with
  | [] => otherwise
  | [(_, value)] => read? value
  | _ => none

/-- The text of a field. -/
def text? (d : Document) : Option String := d.untagged.string?

/-- A list of what is read by `read?`. Null is an empty list. -/
def list? {α : Type} (read? : Document → Option α) (d : Document) : Option (List α) :=
  match d.untagged with
  | .null => some []
  | .sequence items => items.mapM read?
  | _ => none

/-- What the store holds at the start. Null is nothing; what only becomes null is null. -/
def initial? : Document → Option (Option Json)
  | .null => some none
  | d => d.toJson?.map some

/-- A rule, which is a record with its fields by name. -/
def rule? (d : Document) : Option Rule := do
  let fields ← fields? d
  return {
    name := ← field fields "name" text? none
    condition := ← field fields "condition" Condition.ofDocument? none
    actions := ← field fields "actions" (list? Action.ofDocument?) (some []) }

/-- A configuration, of which nothing has been checked but its form. -/
def ofRecord? (d : Document) : Option Config := do
  let fields ← fields? d
  let status ← field fields "status" fields? (some [])
  let http ← field fields "http" fields? (some [])
  return {
    scheme := ← field status "scheme" text? (some standard.scheme)
    initial := ← field status "initial" initial? (some standard.initial)
    bind := ← field http "bind" text? (some standard.bind)
    longPollSeconds := ← field http "long_poll_timeout_secs" (·.untagged.count?)
      (some standard.longPollSeconds)
    rules := ← field fields "rules" (list? rule?) (some standard.rules) }

/-! ## Checking -/

/-- The scheme can stand in an address. -/
def isScheme (scheme : String) : Bool :=
  scheme ≠ "" && !scheme.toList.any fun c => c = '/' || c = ':'

/-- The first name that was used before in the list. -/
def firstRepeated? (seen : List String) : List String → Option String
  | [] => none
  | name :: rest => if seen.contains name then some name else firstRepeated? (name :: seen) rest

/-- Checks the scheme, and that no two rules have the same name. -/
def check (c : Config) : Except ConfigError Config :=
  if isScheme c.scheme then
    match firstRepeated? [] (c.rules.map Rule.name) with
    | some name => .error (.duplicateRule name)
    | none => .ok c
  else .error (.invalidScheme c.scheme)

/-- The configuration that a document describes. -/
def ofDocument (d : Document) : Except ConfigError Config :=
  match d.untagged with
  | .null => .ok standard
  | _ =>
    match ofRecord? d with
    | some c => c.check
    | none => .error .wrongForm

/-- Reads a configuration. -/
def read (env : Environment) (text : String) : Except ConfigError Config := do
  ofDocument (← env.load text)

/-! ## Writing -/

/-- The configuration as a JSON value. -/
def toJson (c : Config) : Json :=
  .object [
    ("http", .object [
      ("bind", .string c.bind),
      ("long_poll_timeout_secs", .ofCount c.longPollSeconds)]),
    ("rules", .array (c.rules.map Rule.toJson)),
    ("status", .object [
      ("initial", c.initial.getD .null),
      ("scheme", .string c.scheme)])]

end Config

end Switchboard
