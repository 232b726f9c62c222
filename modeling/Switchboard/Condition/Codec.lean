import Switchboard.Condition.Basic
import Switchboard.Document
/-!
# Conditions as documents

A condition is written as an object with its kind under `condition` and its fields beside it; a
test has its kind under `test`. The same record may be given as an array, with the kind first and
the fields in order. Within a condition the kind of a part may also be given by its position among
the kinds, counted from zero.

`Condition.ofDocument?` reads every part of a document once as a condition and once as a list of
conditions, from the inside out, and then looks which of the readings is wanted.
-/

namespace Switchboard

/-! ## Writing -/

/-- The test as a JSON value. -/
def ValueTest.toJson : ValueTest → Json
  | present => .object [("test", .string "exists")]
  | equals value => .object [("test", .string "equals"), ("value", value)]
  | above threshold => .object [("test", .string "above"), ("value", .ofExtended threshold)]
  | below threshold => .object [("test", .string "below"), ("value", .ofExtended threshold)]
  | matching pattern => .object [("pattern", .string pattern), ("test", .string "matches")]

/-- The name of a combinator. -/
def Combinator.name : Combinator → String
  | all => "and"
  | any => "or"
  | no => "not"

namespace Condition

mutual
/-- The condition as a JSON value. -/
def toJson : Condition → Json
  | leaf l =>
    .object [("condition", .string "watch"), ("test", l.test.toJson), ("url", .string l.url)]
  | combine how parts =>
    .object [("condition", .string how.name), ("conditions", .array (toJsonEach parts))]

/-- Several conditions as JSON values. -/
def toJsonEach : List Condition → List Json
  | [] => []
  | c :: cs => toJson c :: toJsonEach cs
end

end Condition

/-! ## Reading -/

namespace ValueTest

/-- The kinds of tests. -/
inductive Kind where
  | present
  | equals
  | above
  | below
  | matching

/-- The kinds of tests, in their order. -/
def kinds : List (String × Kind) :=
  [("exists", .present), ("equals", .equals), ("above", .above), ("below", .below),
    ("matches", .matching)]

/-- Reads a test within a condition. -/
def ofDocument? (d : Document) : Option ValueTest := do
  let (kind, fields) ← (← d.parts?).variant? "test"
  match ← Parts.kind? true kinds kind with
  | .present => if fields.isDone then some .present else none
  | .equals => (← fields.only? "value").toJson?.map .equals
  | .above => (← fields.only? "value").number?.map .above
  | .below => (← fields.only? "value").number?.map .below
  | .matching => (← fields.only? "pattern").string?.map .matching

end ValueTest

namespace Condition

/-- What is known about a part of a condition: the part, and the conditions that it lists. -/
abbrev Reading := Document × Option (List Condition)

/-- The kinds of conditions, in their order; a leaf has no combinator. -/
def kinds : List (String × Option Combinator) :=
  [("watch", none), ("and", some .all), ("or", some .any), ("not", some .no)]

/-- Reads a condition from its parts, the lists among which have been read. -/
def ofParts? (inner : Bool) (parts : Parts Reading) : Option Condition := do
  let (kind, fields) ← parts.variant? "condition"
  match ← Parts.kind? inner kinds kind.1 with
  | some how => do
    let (_, conditions) ← fields.only? "conditions"
    return .combine how (← conditions)
  | none =>
    match ← fields.record? ["url", "test"] with
    | [some (url, _), test] => do
      let test ← match test with
        | some (d, _) => ValueTest.ofDocument? d
        | none => some .present
      return .leaf ⟨← url.string?, test⟩
    | _ => none

mutual
/-- Reads a condition from an untagged document; `inner` says that it is part of another one. -/
def read? (inner : Bool) : Document → Option Condition
  | .mapping entries => ofParts? inner (.keyed (readEntries entries))
  | .sequence items => ofParts? inner (.listed (readItems items))
  | _ => none

/-- Reads the conditions that a document lists. -/
def readList? : Document → Option (List Condition)
  | .sequence items => readAll? items
  | _ => none

/-- Reads each item as a condition. -/
def readAll? : List Document → Option (List Condition)
  | [] => some []
  | d :: ds =>
    match read? true d, readAll? ds with
    | some c, some cs => some (c :: cs)
    | _, _ => none

/-- Each item with the conditions that it lists. -/
def readItems : List Document → List Reading
  | [] => []
  | d :: ds => (d, readList? d) :: readItems ds

/-- Each entry with the conditions that its value lists. -/
def readEntries : List (Document × Document) → List (Document × Reading)
  | [] => []
  | (key, d) :: rest => (key, (d, readList? d)) :: readEntries rest
end

/-- Reads a condition from a document, which has no tags in it. -/
def ofDocument? (d : Document) : Option Condition :=
  if d.isPlain then read? false d else none

/-- Reads a condition from a JSON value. -/
def ofJson? (j : Json) : Option Condition :=
  ofDocument? (.ofJson j)

end Condition

end Switchboard
