import Switchboard.Text.Property
import Switchboard.Store
import Switchboard.Rule
/-!
# Values shown for inspection

Stores, watches and rules can be shown as one line of text, for people who look for a fault. A
record shows its fields in braces, a list shows its items in brackets, and text stands between
quotes, so that every character in it can be told.
-/

namespace Switchboard.Inspect

/-- Joins texts with a comma between them. -/
def commas : List String → String
  | [] => ""
  | [s] => s
  | s :: rest => s ++ ", " ++ commas rest

/-- A list of shown items. -/
def list (items : List String) : String :=
  "[" ++ commas items ++ "]"

/-- A record with its shown fields. -/
def record (name : String) (fields : List (String × String)) : String :=
  name ++ " \x7b " ++ commas (fields.map fun (field, shown) => field ++ ": " ++ shown) ++ " \x7d"

/-- A character by its number. -/
def codePoint (c : Char) : List Char :=
  ['\\', 'u', '\x7b'] ++ Nat.toDigits 16 c.toNat ++ ['\x7d']

/-- One character of a text: as it is, if it can be seen on its own. -/
def char (c : Char) : List Char :=
  if c = '\x00' then ['\\', '0']
  else if c = '\t' then ['\\', 't']
  else if c = '\r' then ['\\', 'r']
  else if c = '\n' then ['\\', 'n']
  else if c = '\\' ∨ c = '"' then ['\\', c]
  else if isShown c && !extendsGrapheme c then [c]
  else codePoint c

/-- A text between quotes. -/
def string (s : String) : String :=
  String.ofList ('"' :: s.toList.flatMap char ++ ['"'])

/-- Thresholds are written plainly from `0.0001` to below `10 ^ 16`, else with a power of ten. -/
def layout : Layout := ⟨-4, 16, false⟩

/-- A threshold. -/
def extended : Extended → String
  | .finite x => String.ofList (layout.double x)
  | .infinite negative => if negative then "-inf" else "inf"
  | .notANumber => "NaN"

mutual
/-- A JSON value with the kind of every part. -/
def json : Json → String
  | .null => "Null"
  | .bool b => "Bool(" ++ (if b then "true" else "false") ++ ")"
  | .number n => "Number(" ++ String.ofList n.render ++ ")"
  | .string s => "String(" ++ string s ++ ")"
  | .array items => "Array " ++ list (jsonItems items)
  | .object fields => "Object \x7b" ++ commas (jsonFields fields) ++ "\x7d"

/-- The items of an array. -/
def jsonItems : List Json → List String
  | [] => []
  | x :: xs => json x :: jsonItems xs

/-- The fields of an object. -/
def jsonFields : List (String × Json) → List String
  | [] => []
  | (key, x) :: xs => (string key ++ ": " ++ json x) :: jsonFields xs
end

/-- A test. -/
def test : ValueTest → String
  | .present => "Exists"
  | .equals value => record "Equals" [("value", json value)]
  | .above threshold => record "Above" [("value", extended threshold)]
  | .below threshold => record "Below" [("value", extended threshold)]
  | .matching pattern => record "Matches" [("pattern", string pattern)]

/-- The name of a combinator. -/
def combinator : Combinator → String
  | .all => "And"
  | .any => "Or"
  | .no => "Not"

mutual
/-- A condition. -/
def condition : Condition → String
  | .leaf l =>
    "Watch(" ++ record "WatchCondition" [("url", string l.url), ("test", test l.test)] ++ ")"
  | .combine how parts =>
    combinator how ++ "(" ++
      record (combinator how ++ "Condition") [("conditions", list (conditions parts))] ++ ")"

/-- Several conditions. -/
def conditions : List Condition → List String
  | [] => []
  | c :: cs => condition c :: conditions cs
end

end Inspect

/-- The store as it is shown: its scheme, and a mark that there is more to it. -/
def Store.inspect (s : Store) : String :=
  "Status \x7b scheme: " ++ Inspect.string s.scheme ++ ", .. \x7d"

/-- The receiver of a watch as it is shown. -/
def WatchId.inspect (id : WatchId) : String :=
  Inspect.record "WatchReceiver" [("id", s!"WatchId({id.number})")]

/-- The rule as it is shown, each action in a few words. -/
def Rule.inspect (r : Rule) : String :=
  Inspect.record "Rule" [
    ("name", Inspect.string r.name),
    ("condition", Inspect.condition r.condition),
    ("actions", Inspect.list (r.actions.map fun a => Inspect.string a.describe))]

end Switchboard
