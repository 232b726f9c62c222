import Switchboard.Address
import Switchboard.Precondition
import Switchboard.Entry
import Switchboard.Store
/-!
# Typed views

A reader of the store can ask for a value of a certain shape: a whole number in a range, a string,
a list, a record and so on. `Shape.read` checks a value against a shape and answers it in the form
in which a value of that shape is written. Only a double changes its form, since it may be
given as a whole number, and a record, since it may be given as the array of its fields, without
the last ones that have a default, or with fields that it does not have.
-/

namespace Switchboard

/-- What a reader expects of a value. -/
inductive Shape where
  /-- Any value. -/
  | any
  /-- A whole number between two bounds, the upper one excluded. -/
  | whole (low high : Int)
  /-- Any number, as a double. -/
  | double
  | bool
  | string
  /-- Nothing but null. -/
  | unit
  /-- Null, or a value of the given shape. -/
  | optional (shape : Shape)
  | list (shape : Shape)
  /-- An object with values of one shape. -/
  | map (shape : Shape)
  /-- An object with values of one shape and 64-bit counts, without leading zeros, as keys. -/
  | countedMap (shape : Shape)
  /-- An object with these fields, or the array of them. A missing field stands for its default; one
  without default has to be there. -/
  | record (fields : List (String × Shape × Option Json))
  /-- The precondition of a write. -/
  | precondition
  /-- An address. -/
  | address

namespace Shape

/-- A value that either has a shape or not. -/
def expect (value : Option Json) : Except JsonFault Json :=
  match value with
  | some j => .ok j
  | none => .error .shape

/-- The number that a text begins with, and what stands behind it. -/
def leadingNumber (cs : List Char) : Except JsonFault (JsonNumber × List Char) :=
  match cs with
  | '-' :: rest => Json.unsigned true rest
  | c :: _ => if c.isDigit then Json.unsigned false cs else .error .grammar
  | [] => .error .grammar

/-- Checks that a key is a 64-bit count. A key that is no number at all is not well-formed; one
that begins with another number has the wrong shape. -/
def checkCount (key : String) : Except JsonFault Unit :=
  match leadingNumber key.toList with
  | .error fault => .error fault
  | .ok (.whole i _, rest) =>
    if i < 0 then .error .shape else if rest = [] then .ok () else .error .grammar
  | .ok (.double _, _) => .error .shape

mutual
/-- The value in the form of the shape, or what is at fault with it. -/
def read : Shape → Json → Except JsonFault Json
  | .any, j => .ok j
  | .whole low high, j =>
    match j with
    | .number (.whole i _) => if low ≤ i ∧ i < high then .ok j else .error .shape
    | _ => .error .shape
  | .double, j =>
    match j with
    | .number n => .ok (.ofExtended n.toExtended)
    | _ => .error .shape
  | .bool, j =>
    match j with
    | .bool _ => .ok j
    | _ => .error .shape
  | .string, j =>
    match j with
    | .string _ => .ok j
    | _ => .error .shape
  | .unit, j =>
    match j with
    | .null => .ok .null
    | _ => .error .shape
  | .optional shape, j =>
    match j with
    | .null => .ok .null
    | _ => shape.read j
  | .list shape, j =>
    match j with
    | .array items => (items.mapM fun item => shape.read item).map .array
    | _ => .error .shape
  | .map shape, j =>
    match j with
    | .object fields =>
      (fields.mapM fun entry => (shape.read entry.2).map fun v => (entry.1, v)).map .object
    | _ => .error .shape
  | .countedMap shape, j =>
    match j with
    | .object fields =>
      (fields.mapM fun (entry : String × Json) => do
        checkCount entry.1
        return (entry.1, ← shape.read entry.2)).map .object
    | _ => .error .shape
  | .record fields, j =>
    match j with
    | .object given => (readFields fields given).map .ofFields
    | .array items => (readItems fields items).map .ofFields
    | _ => .error .shape
  | .precondition, j => expect ((Precondition.ofJson? j).map Precondition.toJson)
  | .address, j => expect ((Address.ofJson? j).map Address.toJson)

/-- The fields of a record that is given as an object. -/
def readFields : List (String × Shape × Option Json) → List (String × Json) →
    Except JsonFault (List (String × Json))
  | [], _ => .ok []
  | (name, shape, default?) :: rest, given => do
    let value ← match given.lookup name with
      | some j => shape.read j
      | none => expect default?
    return (name, value) :: (← readFields rest given)

/-- The fields of a record that is given as an array. -/
def readItems : List (String × Shape × Option Json) → List Json →
    Except JsonFault (List (String × Json))
  | [], [] => .ok []
  | [], _ :: _ => .error .shape
  | (name, shape, default?) :: rest, items => do
    let value ← match items with
      | j :: _ => shape.read j
      | [] => expect default?
    return (name, value) :: (← readItems rest items.tail)
end

/-- The record of an entry. -/
def entry : Shape :=
  .record [("revision", .whole 0 0x10000000000000000, none), ("value", .any, none)]

end Shape

/-- Reads an entry from a JSON value. -/
def Entry.ofJson? (j : Json) : Option Entry := do
  let fields ← (Shape.entry.read j).toOption
  let .number (.whole i _) ← fields.field? "revision" | none
  return ⟨i.toNat, ← fields.field? "value"⟩

/-- The value of an entry in the form of a shape, if it has that shape. -/
def Entry.valueAs? (entry : Entry) (shape : Shape) : Option Json :=
  (shape.read entry.value).toOption

/-- Writes a value that has to have a shape. -/
def Store.setShaped (s : Store) (url : String) (shape : Shape) (value : Json)
    (expected : Precondition) : Except StoreError Nat × Store :=
  match shape.read value with
  | .error fault => (.error (.json fault), s)
  | .ok j => s.set url j expected

/-- Writes a number. What is no finite number is written as null. -/
def Store.setReal (s : Store) (url : String) (x : Extended) (expected : Precondition) :
    Except StoreError Nat × Store :=
  s.set url (.ofExtended x) expected

/-- Writes a whole number of any size. One that has more than 64 bits is refused, even before the
address is read. -/
def Store.setWhole (s : Store) (url : String) (i : Int) (expected : Precondition) :
    Except StoreError Nat × Store :=
  match JsonNumber.ofInt? i with
  | some n => s.set url (.number n) expected
  | none => (.error (.json .grammar), s)

/-- Reads a value that has to have a shape. -/
def Store.getShaped (s : Store) (url : String) (shape : Shape) :
    Except StoreError (Json × Nat) :=
  match s.get url with
  | .error e => .error e
  | .ok entry =>
    match shape.read entry.value with
    | .error fault => .error (.json fault)
    | .ok j => .ok (j, entry.revision)

end Switchboard
