import Switchboard.Json.Basic
/-!
# Documents

A document is what a configuration text stands for. It is more general than a JSON value: numbers
may be infinite or no number at all, the keys of a mapping are documents themselves and keep the
order of the text, and a part may carry a tag. Every JSON value is a document
(`Document.ofJson`); `Document.toJson?` is the way back where there is one.

Conditions, tests and actions are read from documents. `Parts` is the view that they are read
through: a record is given either by its keys or by the position of its fields.
-/

namespace Switchboard

/-- What a configuration text stands for. -/
inductive Document where
  | null
  | bool (b : Bool)
  /-- A whole number that is kept exactly. -/
  | whole (i : Int) (inRange : InWordRange i)
  /-- Any other number. -/
  | real (x : Extended)
  | string (s : String)
  | sequence (items : List Document)
  /-- The entries in the order of the text. -/
  | mapping (entries : List (Document × Document))
  /-- A part with a tag, which starts with an exclamation mark. -/
  | tagged (tag : String) (inner : Document)
deriving Inhabited

namespace Document

mutual
/-- A JSON value as a document. -/
def ofJson : Json → Document
  | .null => .null
  | .bool b => .bool b
  | .number (.whole i h) => .whole i h
  | .number (.double x) => .real (.finite x)
  | .string s => .string s
  | .array items => .sequence (ofJsonItems items)
  | .object fields => .mapping (ofJsonFields fields)

/-- The items of an array as documents. -/
def ofJsonItems : List Json → List Document
  | [] => []
  | x :: xs => ofJson x :: ofJsonItems xs

/-- The fields of an object as the entries of a mapping. -/
def ofJsonFields : List (String × Json) → List (Document × Document)
  | [] => []
  | (key, x) :: xs => (.string key, ofJson x) :: ofJsonFields xs
end

/-- The document without the tags around it. -/
def untagged : Document → Document
  | .tagged _ inner => untagged inner
  | d => d

mutual
/-- The JSON value of a document. There is none if it has tags or keys that are no strings. A
number that is not finite becomes null. -/
def toJson? : Document → Option Json
  | .null => some .null
  | .bool b => some (.bool b)
  | .whole i h => some (.number (.whole i h))
  | .real x => some (.ofExtended x)
  | .string s => some (.string s)
  | .sequence items => (toJsonItems? items).map .array
  | .mapping entries => (toJsonFields? entries).map .ofFields
  | .tagged .. => none

/-- `toJson?` for every item. -/
def toJsonItems? : List Document → Option (List Json)
  | [] => some []
  | d :: ds =>
    match toJson? d, toJsonItems? ds with
    | some x, some xs => some (x :: xs)
    | _, _ => none

/-- `toJson?` for the value of every entry, whose key has to be a string. -/
def toJsonFields? : List (Document × Document) → Option (List (String × Json))
  | [] => some []
  | (key, d) :: rest =>
    match key.untagged, toJson? d, toJsonFields? rest with
    | .string name, some x, some xs => some ((name, x) :: xs)
    | _, _, _ => none
end

mutual
/-- No part of the document has a tag. -/
def isPlain : Document → Bool
  | .null | .bool _ | .whole .. | .real _ | .string _ => true
  | .sequence items => isPlainItems items
  | .mapping entries => isPlainEntries entries
  | .tagged .. => false

/-- No item has a tag in it. -/
def isPlainItems : List Document → Bool
  | [] => true
  | d :: ds => isPlain d && isPlainItems ds

/-- No key and no value of an entry has a tag in it. -/
def isPlainEntries : List (Document × Document) → Bool
  | [] => true
  | (k, d) :: rest => isPlain k && isPlain d && isPlainEntries rest
end

/-- The text of a string. -/
def string? : Document → Option String
  | .string s => some s
  | _ => none

/-- A 64-bit count. -/
def count? : Document → Option UInt64
  | .whole i _ => if 0 ≤ i then some (UInt64.ofNat i.toNat) else none
  | _ => none

/-- A number of any kind, as a double. -/
def number? : Document → Option Extended
  | .whole i _ => some (.ofInt i)
  | .real x => some x
  | _ => none

end Document

/-! ## Records -/

/-- The parts of a record, each with what is known about it. -/
inductive Parts (α : Type) where
  /-- By the keys of its fields. -/
  | keyed (entries : List (Document × α))
  /-- By the position of its fields. -/
  | listed (items : List α)

namespace Parts

variable {α : Type}

/-- The position of the field that a key names: its name, or its position as a number. A key that
names no field is answered with `none`; a key that is neither text nor a count is an error. -/
def fieldOf? (names : List String) : Document → Option (Option Nat)
  | .string name => some (names.findIdx? (· = name))
  | .whole i _ =>
    if 0 ≤ i then some (if i.toNat < names.length then some i.toNat else none) else none
  | _ => none

/-- Puts the values of the entries into the places of their fields. No field is given twice. -/
def place (names : List String) : List (Document × α) → List (Option α) → Option (List (Option α))
  | [], slots => some slots
  | (key, value) :: rest, slots =>
    match fieldOf? names key with
    | none => none
    | some none => place names rest slots
    | some (some i) =>
      match slots[i]? with
      | some none => place names rest (slots.set i (some value))
      | _ => none

/-- The values of the fields with the given names, in this order. Entries that name no field are
left out; by position there may be too few, but not too many. -/
def record? (names : List String) : Parts α → Option (List (Option α))
  | keyed entries => place names entries (names.map fun _ => none)
  | listed items =>
    if items.length ≤ names.length then
      some (items.map some ++ List.replicate (names.length - items.length) none)
    else none

/-- The value of the only field of a record. -/
def only? (name : String) (parts : Parts α) : Option α :=
  match parts.record? [name] with
  | some [some value] => some value
  | _ => none

/-- Takes apart the value that tells the kind of a record, which is under the key `tag` or comes
first, and the parts of its fields. -/
def variant? (tag : String) : Parts α → Option (α × Parts α)
  | keyed entries =>
    match entries.partition fun entry => entry.1.string? = some tag with
    | ([(_, kind)], fields) => some (kind, keyed fields)
    | _ => none
  | listed (kind :: fields) => some (kind, listed fields)
  | listed [] => none

/-- The kind that a document names: one of the given words or, within another record, its
position. -/
def kind? (inner : Bool) (kinds : List (String × α)) : Document → Option α
  | .string name => kinds.lookup name
  | .whole i _ => if inner ∧ 0 ≤ i then (kinds[i.toNat]?).map Prod.snd else none
  | _ => none

/-- There is nothing left by position. -/
def isDone : Parts α → Bool
  | keyed _ => true
  | listed items => items.isEmpty

end Parts

/-- The parts of a document that stands for a record. -/
def Document.parts? : Document → Option (Parts Document)
  | .mapping entries => some (.keyed entries)
  | .sequence items => some (.listed items)
  | _ => none

end Switchboard
