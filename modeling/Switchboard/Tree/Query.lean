import Switchboard.Tree.Write
/-!
# Queries

A pattern is followed like a path, except that a wildcard branches over all children. It matches
the nodes at exactly its own depth. A pattern without a wildcard reads one node.
-/

namespace Switchboard

namespace Node

/-- The children that one segment of a pattern matches. -/
def matching (segment : String) (children : List (String × Node)) : List (String × Node) :=
  if segment = Address.wildcard then children else children.filter fun entry => entry.1 = segment

/-- The nodes that a pattern matches, each with the path to it. -/
def select : List String → Node → List (List String × Node)
  | [], node => [([], node)]
  | _ :: _, leaf .. => []
  | segment :: rest, container _ children =>
    (matching segment children).flatMap fun (name, child) =>
      (select rest child).map fun (path, node) => (name :: path, node)

end Node

namespace Tree

/-- The entries of the nodes that a pattern with a wildcard matches, under their addresses. -/
def select (t : Tree) (pattern : Address) : Matches :=
  Keyed.ofList ((t.root.select pattern.segments).map fun (path, node) =>
    ((Address.mk pattern.scheme path).text, ⟨node.revision, node.toJson⟩))

/-- The entries that a pattern matches. Without a wildcard this is the one node at that address,
under `key`; a node that cannot be read is no match. -/
def expand (t : Tree) (pattern : Address) (key : String) : Matches :=
  if pattern.hasWildcard then t.select pattern
  else
    match t.get pattern with
    | .ok entry => [(key, entry)]
    | .error _ => []

end Tree

end Switchboard
