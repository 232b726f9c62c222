import Switchboard.Json.Number
import Switchboard.Keyed
/-!
# JSON values

The values that a store holds and hands out. The fields of an object are a keyed list: every
function that builds an object keeps its keys distinct and in ascending order, which is the
predicate `Json.Ordered`.
-/

namespace Switchboard

/-- A JSON value. -/
inductive Json where
  | null
  | bool (b : Bool)
  | number (n : JsonNumber)
  | string (s : String)
  | array (items : List Json)
  | object (fields : List (String × Json))
deriving Inhabited

namespace Json

/-- A whole number, or null if it is out of range. -/
def ofInt (i : Int) : Json :=
  match JsonNumber.ofInt? i with
  | some n => .number n
  | none => .null

/-- A whole number, or null if it is out of range. -/
def ofNat (n : Nat) : Json := ofInt n

/-- A 64-bit count. -/
def ofCount (n : UInt64) : Json := .number (.ofCount n)

/-- A double; what is no finite double becomes null. -/
def ofExtended : Extended → Json
  | .finite x => .number (.double x)
  | _ => .null

/-- An object with the given fields, in any order; a later field overrides an earlier one. -/
def ofFields (fields : List (String × Json)) : Json :=
  .object (Keyed.ofList fields)

/-- The field called `name` of an object. -/
def field? (name : String) : Json → Option Json
  | .object fields => fields.lookup name
  | _ => none

/-! ## Equality as it is seen by a test -/

mutual
/-- Two values are the same: numbers as `JsonNumber.same` says, all else part by part. -/
def same : Json → Json → Bool
  | .null, .null => true
  | .bool a, .bool b => a == b
  | .number m, .number n => m.same n
  | .string s, .string t => s == t
  | .array xs, .array ys => sameItems xs ys
  | .object xs, .object ys => sameFields xs ys
  | _, _ => false

/-- `same` item by item. -/
def sameItems : List Json → List Json → Bool
  | [], [] => true
  | x :: xs, y :: ys => same x y && sameItems xs ys
  | _, _ => false

/-- `same` field by field. -/
def sameFields : List (String × Json) → List (String × Json) → Bool
  | [], [] => true
  | (k, x) :: xs, (l, y) :: ys => k == l && same x y && sameFields xs ys
  | _, _ => false
end

/-! ## Order of keys and depth -/

mutual
/-- The keys of every object in the value are distinct and ascend. -/
def Ordered : Json → Prop
  | .null | .bool _ | .number _ | .string _ => True
  | .array items => OrderedItems items
  | .object fields => Keyed.Ascending fields ∧ OrderedFields fields

/-- `Ordered` for every item. -/
def OrderedItems : List Json → Prop
  | [] => True
  | x :: xs => Ordered x ∧ OrderedItems xs

/-- `Ordered` for the value of every field. -/
def OrderedFields : List (String × Json) → Prop
  | [] => True
  | (_, x) :: xs => Ordered x ∧ OrderedFields xs
end

mutual
/-- How many arrays and objects are nested into each other. -/
def depth : Json → Nat
  | .null | .bool _ | .number _ | .string _ => 0
  | .array items => depthItems items + 1
  | .object fields => depthFields fields + 1

/-- The greatest depth of an item. -/
def depthItems : List Json → Nat
  | [] => 0
  | x :: xs => max (depth x) (depthItems xs)

/-- The greatest depth of a field. -/
def depthFields : List (String × Json) → Nat
  | [] => 0
  | (_, x) :: xs => max (depth x) (depthFields xs)
end

end Json

end Switchboard
