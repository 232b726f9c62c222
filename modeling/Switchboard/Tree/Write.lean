import Switchboard.Tree.Walk
import Switchboard.Precondition
import Switchboard.Entry
/-!
# Writes

A tree is its root, and the root's revision counts the successful writes. A write is checked first
and carried out then. The checks are, in this order: no leaf in the way (`Node.probe`, or
`Node.find` for a removal), the precondition, and the value. Carrying out a write stamps the new
revision on every node from the root down to the parent of the target (`Node.stamp`) and then
replaces, adds or removes the target.

`Node.stamp` goes down in one pass and can itself meet an obstacle, after it has stamped the nodes
above; that the checks have ruled this out is a fact about the two walks.
-/

namespace Switchboard

namespace Node

/-- Stamps `revision` on the node and on every node along `path`, and edits the children of the
last one. Missing nodes on the way become containers if `create` says so. An obstacle ends the
walk; what lies above it is stamped by then. -/
def stamp (revision : Nat) (create : Bool)
    (edit : List (String × Node) → List (String × Node)) :
    List String → Node → Except Obstacle Unit × Node
  | [], container _ children => (.ok (), container revision (edit children))
  | _, leaf _ held => (.error (.notContainer 0), leaf revision held)
  | name :: rest, container _ children =>
    match children.lookup name with
    | some child =>
      let (outcome, written) := stamp revision create edit rest child
      (outcome.mapError .deeper, container revision (Keyed.insert name written children))
    | none =>
      if create then
        let (outcome, written) := stamp revision create edit rest (empty revision)
        (outcome.mapError .deeper, container revision (Keyed.insert name written children))
      else (.error (.missing 1), container revision children)

end Node

/-- Checks a precondition against the revision of the target, if the target is there. -/
def Precondition.check (target : Address) (current : Option Nat) :
    Precondition → Except StoreError Unit
  | unchecked => .ok ()
  | mustNotExist =>
    match current with
    | none => .ok ()
    | some _ => .error (.alreadyExists target.text)
  | exact expected =>
    let actual := current.getD 0
    if expected.toNat = actual then .ok ()
    else .error (.revisionMismatch target.text expected.toNat actual)

/-- A tree of nodes. -/
structure Tree where
  /-- The node at the top, whose revision counts the writes. -/
  root : Node
deriving Inhabited

namespace Tree

/-- The tree without any node but the root, never written. -/
def new : Tree := ⟨.empty 0⟩

/-- How many writes have succeeded. -/
def revision (t : Tree) : Nat := t.root.revision

/-- Reads the node at a concrete address. -/
def find (t : Tree) (target : Address) : Except StoreError Node :=
  (t.root.find target.segments).mapError (Obstacle.report target)

/-- Reads the value and revision at a concrete address. -/
def get (t : Tree) (target : Address) : Except StoreError Entry :=
  (t.find target).map fun node => ⟨node.revision, node.toJson⟩

/-- The revision of the target of a write, or none if the write would create it. -/
def probe (t : Tree) (target : Address) : Except StoreError (Option Nat) :=
  (t.root.probe target.segments).mapError (Obstacle.report target)

/-- Stamps `revision` down to the parent of `target` and edits the parent's children; the root has
no parent and becomes `root`. -/
def commit (t : Tree) (target : Address) (revision : Nat) (create : Bool) (root : Node)
    (edit : String → List (String × Node) → List (String × Node)) : Except StoreError Nat × Tree :=
  match target.segments.getLast? with
  | none => (.ok revision, ⟨root⟩)
  | some name =>
    let (outcome, written) :=
      t.root.stamp revision create (edit name) target.segments.dropLast
    ((outcome.mapError (Obstacle.report target)).map fun () => revision, ⟨written⟩)

/-- Writes a value at a concrete address and answers the new revision. Missing containers on the
way are created. -/
def set (t : Tree) (target : Address) (value : Json) (expected : Precondition) :
    Except StoreError Nat × Tree :=
  match t.probe target with
  | .error e => (.error e, t)
  | .ok current =>
    match expected.check target current with
    | .error e => (.error e, t)
    | .ok () =>
      let revision := t.revision + 1
      match Node.ofJson revision target value with
      | .error e => (.error e, t)
      | .ok node => t.commit target revision true node fun name => Keyed.insert name node

/-- Removes the node at a concrete address and answers the new revision. The root is not removed
but becomes null. -/
def remove (t : Tree) (target : Address) (expected : Precondition) :
    Except StoreError Nat × Tree :=
  match t.find target with
  | .error e => (.error e, t)
  | .ok node =>
    match expected.check target (some node.revision) with
    | .error e => (.error e, t)
    | .ok () =>
      let revision := t.revision + 1
      t.commit target revision false (.null revision) Keyed.erase

end Tree

end Switchboard
