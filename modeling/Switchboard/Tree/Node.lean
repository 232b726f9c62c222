import Switchboard.Json.Basic
import Switchboard.Address
/-!
# Nodes

A node is a leaf, which holds a scalar or a list of scalars, or a container of named children.
Every node carries the revision of the last write through it: at it, above it or below it.

A JSON value fits into a tree if every key of its objects can be named by a concrete address and
the elements of its arrays are scalars. `Node.ofJson` makes a node of such a value and reports the
first offence of any other one; `Node.toJson` is the way back.
-/

namespace Switchboard

/-- A value without parts. -/
inductive Scalar where
  | null
  | bool (b : Bool)
  | number (n : JsonNumber)
  | string (s : String)
deriving DecidableEq

namespace Scalar

/-- The scalar as a JSON value. -/
def toJson : Scalar → Json
  | null => .null
  | bool b => .bool b
  | number n => .number n
  | string s => .string s

/-- The scalar that a JSON value is, if it has no parts. -/
def ofJson? : Json → Option Scalar
  | .null => some null
  | .bool b => some (bool b)
  | .number n => some (number n)
  | .string s => some (string s)
  | .array _ | .object _ => none

end Scalar

/-- What a node without children holds. -/
inductive Leaf where
  | scalar (s : Scalar)
  | list (items : List Scalar)
deriving DecidableEq

/-- The leaf as a JSON value. -/
def Leaf.toJson : Leaf → Json
  | scalar s => s.toJson
  | list items => .array (items.map Scalar.toJson)

/-- A node with the revision of the last write through it. -/
inductive Node where
  /-- A node without children. -/
  | leaf (revision : Nat) (held : Leaf)
  /-- A node with named children, a keyed list. -/
  | container (revision : Nat) (children : List (String × Node))
deriving Inhabited

namespace Node

/-- The revision of the last write through the node. -/
def revision : Node → Nat
  | leaf revision _ => revision
  | container revision _ => revision

/-- A container without children. -/
def empty (revision : Nat) : Node := container revision []

/-- A leaf that holds null. -/
def null (revision : Nat) : Node := leaf revision (.scalar .null)

/-! ## As JSON values -/

mutual
/-- The value of the node and all below it. -/
def toJson : Node → Json
  | leaf _ held => held.toJson
  | container _ children => .object (toJsonChildren children)

/-- The fields of a container's value. -/
def toJsonChildren : List (String × Node) → List (String × Json)
  | [] => []
  | (name, child) :: rest => (name, toJson child) :: toJsonChildren rest
end

/-- A key that a concrete address can name. -/
def isAddressable (name : String) : Bool :=
  !name.isEmpty && !name.toList.contains '/' && name != Address.wildcard

/-- The position of the first item that is no scalar, or all the scalars. -/
def scalars (index : Nat) : List Json → Except Nat (List Scalar)
  | [] => .ok []
  | item :: rest =>
    match Scalar.ofJson? item with
    | none => .error index
    | some s => (scalars (index + 1) rest).map (s :: ·)

mutual
/-- The node of a value, every part of it with the given revision. The address `here` of the value
is only named in a report. -/
def ofJson (revision : Nat) (here : Address) : Json → Except StoreError Node
  | .null => .ok (leaf revision (.scalar .null))
  | .bool b => .ok (leaf revision (.scalar (.bool b)))
  | .number n => .ok (leaf revision (.scalar (.number n)))
  | .string s => .ok (leaf revision (.scalar (.string s)))
  | .array items =>
    match scalars 0 items with
    | .ok held => .ok (leaf revision (.list held))
    | .error index => .error (.unsupportedValue here.text (.listElement index))
  | .object fields =>
    match ofJsonFields revision here fields with
    | .ok children => .ok (container revision children)
    | .error e => .error e

/-- The children for the fields of an object. A key is checked before its value is entered. -/
def ofJsonFields (revision : Nat) (here : Address) :
    List (String × Json) → Except StoreError (List (String × Node))
  | [] => .ok []
  | (name, value) :: rest =>
    if isAddressable name then
      match ofJson revision (here.child name) value with
      | .error e => .error e
      | .ok child =>
        match ofJsonFields revision here rest with
        | .error e => .error e
        | .ok children => .ok (Keyed.insert name child children)
    else .error (.unsupportedValue here.text (.childName name))
end

end Node

end Switchboard
