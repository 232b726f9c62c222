import Switchboard.Tree.Node
/-!
# Walking down a tree

A path is a list of child names. `Node.find` follows it and either arrives or meets an obstacle:
a leaf where children are needed, or a child that is not there. `Node.probe` follows it as a write
does, for which a missing child is no obstacle.
-/

namespace Switchboard

/-- What ends a walk before the end of its path, and how many steps below its start. -/
inductive Obstacle where
  /-- A leaf, though the path goes on. -/
  | notContainer (depth : Nat)
  /-- There is no child of that name; the depth is the one that the child would have. -/
  | missing (depth : Nat)
deriving DecidableEq, Repr

namespace Obstacle

/-- The obstacle as seen from one step further up. -/
def deeper : Obstacle → Obstacle
  | notContainer depth => notContainer (depth + 1)
  | missing depth => missing (depth + 1)

/-- The report of an obstacle on the way to `target`. -/
def report (target : Address) : Obstacle → StoreError
  | notContainer depth => .notContainer (target.ancestor depth).text
  | missing depth => .notFound (target.ancestor depth).text

end Obstacle

namespace Node

/-- The node at the end of a path. -/
def find : List String → Node → Except Obstacle Node
  | [], node => .ok node
  | _ :: _, leaf .. => .error (.notContainer 0)
  | name :: rest, container _ children =>
    match children.lookup name with
    | none => .error (.missing 1)
    | some child => (find rest child).mapError Obstacle.deeper

/-- The node at the end of a path, if there is one. -/
def get? (path : List String) (node : Node) : Option Node :=
  (node.find path).toOption

/-- The revision at the end of a path, or none if it ends at a missing child, which a write would
create. -/
def probe : List String → Node → Except Obstacle (Option Nat)
  | [], node => .ok (some node.revision)
  | _ :: _, leaf .. => .error (.notContainer 0)
  | name :: rest, container _ children =>
    match children.lookup name with
    | none => .ok none
    | some child => (probe rest child).mapError Obstacle.deeper

end Node

end Switchboard
