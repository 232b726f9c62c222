import Switchboard.Yaml.Token
/-!
# Nodes

The tokens of a text make up nodes: scalars, sequences, mappings, and references, which stand for a
node that was given a name before. `Node.ofTokens?` reads the one document of a text.

What is left out is an empty scalar: the item behind a hyphen, a key or a value. The items of a
sequence that is the value of a key may stand at the column of the key; such a sequence has no
tokens for its begin and its end.
-/

namespace Switchboard.Yaml

/-- What stands before a node. -/
structure Properties where
  /-- The name under which the node is referred to. -/
  anchor : Option String
  /-- The tag. -/
  tag : Option String
deriving DecidableEq, Repr

/-- Nothing stands before a node. -/
def Properties.none : Properties := ⟨.none, .none⟩

/-- A part of a document as it is written. -/
inductive Node where
  | reference (name : String)
  | scalar (properties : Properties) ( isPlain : Bool) (text : String)
  | sequence (properties : Properties) (items : List Node)
  | mapping (properties : Properties) (entries : List (Node × Node))
deriving Inhabited

namespace Node

/-- What is left out. -/
def empty : Node := scalar .none true ""

/-- What stands before a node, an anchor and a tag in either order. -/
def properties : List Token → Properties × List Token
  | .anchor name :: .tag t :: rest => (⟨some name, some t⟩, rest)
  | .tag t :: .anchor name :: rest => (⟨some name, some t⟩, rest)
  | .anchor name :: rest => (⟨some name, none⟩, rest)
  | .tag t :: rest => (⟨none, some t⟩, rest)
  | tokens => (.none, tokens)

/-- A written scalar; the tag without a name says nothing about it. -/
def ofScalar (properties : Properties) ( isPlain : Bool) (text : String) : Node :=
  if properties.tag = some "!" then scalar { properties with tag := none } isPlain text
  else scalar properties isPlain text

/-- One of the given tokens comes next. -/
def follows (ends : List Token) (tokens : List Token) : Bool :=
  tokens.head?.any ends.contains

/-- What comes behind an item of a block without a scalar or collection for it. -/
def afterItem : List Token := [.blockEntry, .blockEnd]

/-- What comes behind a key, a value or an item at the column of a key without a scalar or
collection for it. -/
def afterEntry : List Token := [.key, .value, .blockEnd]

/-- Where a node stands. -/
inductive Context where
  /-- An item or a whole document. -/
  | block
  /-- A key or a value of a block: a sequence may stand at the same column. -/
  | entry
  /-- Within brackets or braces. -/
  | flow
deriving DecidableEq

mutual
/-- A node. -/
def node : Nat → Context → List Token → Option (Node × List Token)
  | 0, _, _ => none
  | _ + 1, _, .reference name :: rest => some (reference name, rest)
  | fuel + 1, context, tokens =>
    let (properties, rest) := properties tokens
    let nothing := if properties = .none then none else some (scalar properties true "", rest)
    match rest with
    | .scalar isPlain text :: rest => some (ofScalar properties isPlain text, rest)
    | .flowSequenceStart :: rest =>
      (flowItems fuel true rest).map fun (items, rest) => (sequence properties items, rest)
    | .flowMappingStart :: rest =>
      (flowEntries fuel true rest).map fun (entries, rest) => (mapping properties entries, rest)
    | .blockSequenceStart :: rest =>
      if context = .flow then nothing
      else (blockItems fuel rest).map fun (items, rest) => (sequence properties items, rest)
    | .blockMappingStart :: rest =>
      if context = .flow then nothing
      else (blockEntries fuel rest).map fun (entries, rest) => (mapping properties entries, rest)
    | .blockEntry :: _ =>
      if context = .entry then
        (alignedItems fuel rest).map fun (items, rest) => (sequence properties items, rest)
      else nothing
    | _ => nothing

/-- A node, or an empty one before certain tokens. -/
def nodeUnless (fuel : Nat) (ends : List Token) (context : Context) (tokens : List Token) :
    Option (Node × List Token) :=
  match fuel with
  | 0 => none
  | fuel + 1 => if follows ends tokens then some (empty, tokens) else node fuel context tokens

/-- The value behind a key, if there is one. -/
def valueUnless (fuel : Nat) (ends : List Token) (context : Context) (tokens : List Token) :
    Option (Node × List Token) :=
  match fuel, tokens with
  | 0, _ => none
  | fuel + 1, .value :: rest => nodeUnless fuel ends context rest
  | _ + 1, _ => some (empty, tokens)

/-- The items of a block up to its end. -/
def blockItems : Nat → List Token → Option (List Node × List Token)
  | fuel + 1, .blockEntry :: rest => do
    let (item, rest) ← nodeUnless fuel afterItem .block rest
    let (items, rest) ← blockItems fuel rest
    return (item :: items, rest)
  | _ + 1, .blockEnd :: rest => some ([], rest)
  | _, _ => none

/-- Items at the column of the key before them. -/
def alignedItems : Nat → List Token → Option (List Node × List Token)
  | 0, _ => none
  | fuel + 1, .blockEntry :: rest => do
    let (item, rest) ← nodeUnless fuel (.blockEntry :: afterEntry) .block rest
    let (items, rest) ← alignedItems fuel rest
    return (item :: items, rest)
  | _ + 1, tokens => some ([], tokens)

/-- The entries of a block up to its end. -/
def blockEntries : Nat → List Token → Option (List (Node × Node) × List Token)
  | fuel + 1, .key :: rest => do
    let (key, rest) ← nodeUnless fuel afterEntry .entry rest
    let (value, rest) ← valueUnless fuel afterEntry .entry rest
    let (entries, rest) ← blockEntries fuel rest
    return ((key, value) :: entries, rest)
  | _ + 1, .blockEnd :: rest => some ([], rest)
  | _, _ => none

/-- The items between brackets. Behind the first one, commas stand between them. -/
def flowItems : Nat → Bool → List Token → Option (List Node × List Token)
  | 0, _, _ => none
  | _ + 1, _, .flowSequenceEnd :: rest => some ([], rest)
  | fuel + 1, true, .key :: rest => do
    let (item, rest) ← pair fuel rest
    let (items, rest) ← flowItems fuel false rest
    return (item :: items, rest)
  | fuel + 1, true, tokens => do
    let (item, rest) ← node fuel .flow tokens
    let (items, rest) ← flowItems fuel false rest
    return (item :: items, rest)
  | fuel + 1, false, .flowEntry :: rest => flowItems fuel true rest
  | _ + 1, false, _ => none

/-- A single entry as an item between brackets, a mapping of its own. A question mark without a
key takes the next token with it. -/
def pair (fuel : Nat) (tokens : List Token) : Option (Node × List Token) :=
  match fuel with
  | 0 => none
  | fuel + 1 => do
    let (key, rest) ←
      if follows [.value, .flowEntry, .flowSequenceEnd] tokens then some (empty, tokens.drop 1)
      else node fuel .flow tokens
    let (value, rest) ← valueUnless fuel [.flowEntry, .flowSequenceEnd] .flow rest
    return (mapping .none [(key, value)], rest)

/-- The entries between braces. Behind the first one, commas stand between them. -/
def flowEntries : Nat → Bool → List Token → Option (List (Node × Node) × List Token)
  | 0, _, _ => none
  | _ + 1, _, .flowMappingEnd :: rest => some ([], rest)
  | fuel + 1, true, .key :: rest => do
    let (key, rest) ← nodeUnless fuel [.value, .flowEntry, .flowMappingEnd] .flow rest
    let (value, rest) ← valueUnless fuel [.flowEntry, .flowMappingEnd] .flow rest
    let (entries, rest) ← flowEntries fuel false rest
    return ((key, value) :: entries, rest)
  | fuel + 1, true, tokens => do
    let (key, rest) ← node fuel .flow tokens
    let (entries, rest) ← flowEntries fuel false rest
    return ((key, empty) :: entries, rest)
  | fuel + 1, false, .flowEntry :: rest => flowEntries fuel true rest
  | _ + 1, false, _ => none
end

/-- The node of a document. -/
def document (fuel : Nat) : List Token → Option (Node × List Token)
  | [] => some (empty, [])
  | .documentStart :: rest =>
    if rest = [] ∨ follows [.documentStart, .documentEnd] rest then some (empty, rest)
    else node fuel .block rest
  | tokens => node fuel .block tokens

/-- The node of the only document that the tokens make up. Every level of a node takes up a token,
so that a few steps for each token are enough. -/
def ofTokens? (tokens : List Token) : Option Node :=
  match document (4 * tokens.length + 4) tokens with
  | some (node, rest) => if rest.all (· = .documentEnd) then some node else none
  | none => none

end Node

end Switchboard.Yaml
