import Switchboard.Yaml.Lexer
import Switchboard.Yaml.Node
import Switchboard.Yaml.Plain
/-!
# Reading a configuration text

`Document.ofYaml?` reads the document that a text stands for: plain scalars are resolved,
references are replaced by what they stand for, and local tags are kept. A text that stands for
several documents is refused, and so are a reference to a name that is not bound to a complete node,
a mapping with the same key twice, and too many levels of collections.
-/

namespace Switchboard

namespace Document

mutual
/-- Two documents are the same as keys: zeros and numbers that are none are the same as each other,
and the order of entries does not matter. -/
def sameKey : Document → Document → Bool
  | .null, .null => true
  | .bool a, .bool b => a == b
  | .whole i _, .whole j _ => i == j
  | .real (.finite x), .real (.finite y) => x.sameNumber y
  | .real x, .real y => x == y
  | .string s, .string t => s == t
  | .sequence xs, .sequence ys => sameKeys xs ys
  | .mapping xs, .mapping ys => xs.length == ys.length && haveEntries xs ys
  | .tagged t x, .tagged u y => t == u && sameKey x y
  | _, _ => false

/-- `sameKey` item by item. -/
def sameKeys : List Document → List Document → Bool
  | [], [] => true
  | x :: xs, y :: ys => sameKey x y && sameKeys xs ys
  | _, _ => false

/-- Every one of the first entries is among the others. -/
def haveEntries : List (Document × Document) → List (Document × Document) → Bool
  | [], _ => true
  | (k, x) :: rest, ys =>
    (ys.any fun entry => sameKey k entry.1 && sameKey x entry.2) && haveEntries rest ys
end

/-- No key is given twice. -/
def distinctKeys : List (Document × Document) → Bool
  | [] => true
  | (key, _) :: rest => (rest.all fun entry => !sameKey key entry.1) && distinctKeys rest

mutual
/-- How many collections are nested into each other. -/
def levels : Document → Nat
  | .null | .bool _ | .whole .. | .real _ | .string _ => 0
  | .sequence items => levelsOfItems items + 1
  | .mapping entries => levelsOfEntries entries + 1
  | .tagged _ inner => levels inner

/-- The greatest number of levels of an item. -/
def levelsOfItems : List Document → Nat
  | [] => 0
  | d :: ds => max (levels d) (levelsOfItems ds)

/-- The greatest number of levels of a key or a value. -/
def levelsOfEntries : List (Document × Document) → Nat
  | [] => 0
  | (k, d) :: rest => max (max (levels k) (levels d)) (levelsOfEntries rest)
end

end Document

namespace Yaml

/-- The names that were bound so far. -/
structure Anchors where
  /-- The number of the node that each name stands for, the latest binding first. -/
  names : List (String × Nat)
  /-- The nodes that are complete, by their numbers. -/
  values : List (Nat × Document)

namespace Anchors

/-- No name is bound. -/
def none : Anchors := ⟨[], []⟩

/-- Binds a name, if there is one, to a node that is still to be completed. -/
def bind (a : Anchors) : Option String → Anchors
  | some name => { a with names := (name, a.names.length) :: a.names }
  | .none => a

/-- Completes the node that was bound when the names were those of `before`. -/
def complete (a before : Anchors) (name : Option String) (d : Document) : Anchors :=
  match name with
  | some _ => { a with values := (before.names.length, d) :: a.values }
  | .none => a

/-- What a name stands for. -/
def find? (a : Anchors) (name : String) : Option Document :=
  (a.names.lookup name).bind fun number => a.values.lookup number

end Anchors

/-- The name of a local tag. The tag without a name counts as its own name. -/
def localTag? (tag : Option String) : Option String :=
  match tag with
  | some "!" => some "!!"
  | some tag => if tag.startsWith "!" then some tag else none
  | none => none

/-- The document with a local tag around it; other tags say nothing about collections. -/
def withTag (tag : Option String) (d : Document) : Document :=
  match localTag? tag with
  | some name => .tagged name d
  | none => d

/-- What a scalar stands for. -/
def ofScalar? (tag : Option String) ( isPlain : Bool) (text : String) : Option Document :=
  let inner := if isPlain then ofPlain? text else some (.string text)
  match tag with
  | none => inner
  | some name =>
    if (localTag? tag).isSome then inner.map (withTag tag)
    else if name.startsWith standardTag then
      ofTyped? (String.ofList (name.toList.drop standardTag.length)) text
    else some (.string text)

mutual
/-- What a node stands for. -/
def resolve (a : Anchors) : Node → Option (Document × Anchors)
  | .reference name => (a.find? name).map (·, a)
  | .scalar properties isPlain text =>
    (ofScalar? properties.tag isPlain text).map fun d =>
      (d, (a.bind properties.anchor).complete a properties.anchor d)
  | .sequence properties items =>
    (resolveItems (a.bind properties.anchor) items).map fun (items, after) =>
      let d := withTag properties.tag (.sequence items)
      (d, after.complete a properties.anchor d)
  | .mapping properties entries =>
    (resolveEntries (a.bind properties.anchor) entries).bind fun (entries, after) =>
      let d := withTag properties.tag (.mapping entries)
      if Document.distinctKeys entries then some (d, after.complete a properties.anchor d)
      else none

/-- What several nodes stand for. -/
def resolveItems (a : Anchors) : List Node → Option (List Document × Anchors)
  | [] => some ([], a)
  | node :: rest => do
    let (d, a) ← resolve a node
    let (ds, a) ← resolveItems a rest
    return (d :: ds, a)

/-- What the keys and values of entries stand for. -/
def resolveEntries (a : Anchors) :
    List (Node × Node) → Option (List (Document × Document) × Anchors)
  | [] => some ([], a)
  | (key, value) :: rest => do
    let (k, a) ← resolve a key
    let (d, a) ← resolve a value
    let (entries, a) ← resolveEntries a rest
    return ((k, d) :: entries, a)
end

/-- How many levels of collections a document may have. -/
def levelLimit : Nat := 128

end Yaml

/-- The document that a configuration text stands for. -/
def Document.ofYaml? (text : String) : Option Document := do
  let node ← Yaml.Node.ofTokens? (← Yaml.Token.scan text)
  let (d, _) ← Yaml.resolve .none node
  if d.levels ≤ Yaml.levelLimit then some d else none

end Switchboard
