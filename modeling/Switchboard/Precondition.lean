import Switchboard.Error
import Switchboard.Json.Basic
/-!
# Preconditions of a write

A write says what it expects of its target: nothing, that there is no such node yet, or that the
node still has the revision at which the writer saw it. Each precondition has a text, and
`Precondition.parse` reads that text back. As a JSON value a revision may also be a number.
-/

namespace Switchboard

/-- What a write expects of its target. -/
inductive Precondition where
  /-- Nothing is expected. -/
  | unchecked
  /-- There is no such node. -/
  | mustNotExist
  /-- The target has this revision; a missing target counts as revision zero. -/
  | exact (revision : UInt64)
deriving DecidableEq, Repr, Inhabited

namespace Precondition

/-- The precondition as text. -/
def text : Precondition → String
  | unchecked => "unchecked"
  | mustNotExist => "must_not_exist"
  | exact revision => String.ofList (Numeral.write revision.toNat)

/-- Reads a precondition: one of the two words, or a 64-bit count. -/
def parse (text : String) : Except StoreError Precondition :=
  if text = "unchecked" then .ok unchecked
  else if text = "must_not_exist" then .ok mustNotExist
  else match Numeral.readCount? text.toList with
    | some revision => .ok (exact revision)
    | none => .error (.invalidRevision text)

/-- The precondition as a JSON value: a revision is a number, the others are their text. -/
def toJson : Precondition → Json
  | exact revision => .ofCount revision
  | p => .string p.text

/-- Reads a precondition from a JSON value. -/
def ofJson? : Json → Option Precondition
  | .number (.whole i _) => if 0 ≤ i then some (exact (UInt64.ofNat i.toNat)) else none
  | .string text => (parse text).toOption
  | _ => none

end Precondition

end Switchboard
