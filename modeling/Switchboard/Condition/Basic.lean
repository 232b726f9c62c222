import Switchboard.Decimal.Double
import Switchboard.Json.Basic
/-!
# Conditions

A condition is a yes-or-no view of the store. Its leaves watch a pattern and test every value that
matches; the combinators are *and*, *or* and *not*, where *not* is true if none of its parts is.

The leaves are numbered depth first, from left to right. `Condition.evaluate` reads the truth of
each leaf from a list by that number, and counts as it goes. What it is to compute is
`Condition.holds`: the meaning of a condition, given the truth of each leaf.
-/

namespace Switchboard

/-- What a leaf asks of each value that matches its pattern. -/
inductive ValueTest where
  /-- Nothing but that it is there. -/
  | present
  /-- It is this value. -/
  | equals (value : Json)
  /-- It is a number, or the text of one, above the threshold. -/
  | above (threshold : Extended)
  /-- It is a number, or the text of one, below the threshold. -/
  | below (threshold : Extended)
  /-- It is text in which the regular expression finds a match. -/
  | matching (pattern : String)
deriving Inhabited

/-- A pattern to watch and the test for the values that match it. -/
structure LeafCondition where
  /-- The pattern; it may have wildcards. -/
  url : String
  /-- The test for each value. -/
  test : ValueTest
deriving Inhabited

/-- The ways in which conditions are combined. -/
inductive Combinator where
  /-- All parts are true. -/
  | all
  /-- Some part is true. -/
  | any
  /-- No part is true. -/
  | no
deriving DecidableEq, Repr

/-- A yes-or-no view of the store. -/
inductive Condition where
  | leaf (leaf : LeafCondition)
  | combine (how : Combinator) (parts : List Condition)
deriving Inhabited

/-- The truth of a combination, given the truth of its parts. -/
def Combinator.fold : Combinator → List Bool → Bool
  | all, parts => parts.all id
  | any, parts => parts.any id
  | no, parts => !parts.any id

namespace Condition

mutual
/-- The leaves, depth first. -/
def leaves : Condition → List LeafCondition
  | leaf l => [l]
  | combine _ parts => leavesOf parts

/-- The leaves of several conditions. -/
def leavesOf : List Condition → List LeafCondition
  | [] => []
  | c :: cs => leaves c ++ leavesOf cs
end

mutual
/-- Every combinator in the condition has a part. -/
def isComplete : Condition → Bool
  | leaf _ => true
  | combine _ parts => !parts.isEmpty && areComplete parts

/-- `isComplete` for several conditions. -/
def areComplete : List Condition → Bool
  | [] => true
  | c :: cs => isComplete c && areComplete cs
end

mutual
/-- The meaning of the condition, given the truth of each leaf. -/
def holds (truth : LeafCondition → Bool) : Condition → Bool
  | leaf l => truth l
  | combine .all parts => allHold truth parts
  | combine .any parts => anyHolds truth parts
  | combine .no parts => !anyHolds truth parts

/-- All of the conditions hold. -/
def allHold (truth : LeafCondition → Bool) : List Condition → Bool
  | [] => true
  | c :: cs => holds truth c && allHold truth cs

/-- Some of the conditions holds. -/
def anyHolds (truth : LeafCondition → Bool) : List Condition → Bool
  | [] => false
  | c :: cs => holds truth c || anyHolds truth cs
end

mutual
/-- The truth of the condition, where the first leaf reads `results` at `next`, together with the
number of the leaf behind the last one. Every part is evaluated, so that the numbers agree with the
order of the leaves. -/
def evaluate (results : List Bool) (next : Nat) : Condition → Bool × Nat
  | leaf _ => (results.getD next false, next + 1)
  | combine how parts =>
    let (values, behind) := evaluateEach results next parts
    (how.fold values, behind)

/-- `evaluate` for several conditions, one after the other. -/
def evaluateEach (results : List Bool) (next : Nat) : List Condition → List Bool × Nat
  | [] => ([], next)
  | c :: cs =>
    let (value, after) := evaluate results next c
    let (values, behind) := evaluateEach results after cs
    (value :: values, behind)
end

end Condition

end Switchboard
