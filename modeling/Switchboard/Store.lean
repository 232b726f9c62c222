import Switchboard.Watch.Registry
import Switchboard.Json.Parser
import Switchboard.Json.Printer
/-!
# The store

A store is a tree with its watches, served under one scheme. Addresses come as text. They are read
first, so that an address that cannot be read, or belongs to another store, or is a pattern where
one node has to be named, is reported before the tree is looked at.

Every successful write is followed by an evaluation of all watches. A write answers its outcome
together with the store after it.
-/

namespace Switchboard

/-- A tree with its watches. -/
structure Store where
  /-- The scheme of every address. -/
  scheme : String
  /-- The nodes. -/
  tree : Tree
  /-- The watches. -/
  registry : Registry

namespace Store

/-- A store without nodes and watches. -/
def new (scheme : String) : Store := ⟨scheme, .new, .new⟩

/-- The address of the root. -/
def rootAddress (s : Store) : Address := .root s.scheme

/-- How many writes have succeeded. -/
def revision (s : Store) : Nat := s.tree.revision

/-- Reads an address and checks that it belongs to this store. -/
def parse (s : Store) (url : String) : Except StoreError Address :=
  match Address.parse url with
  | .error e => .error e
  | .ok a => if a.scheme = s.scheme then .ok a else .error (.schemeMismatch url s.scheme)

/-- Reads an address that names one node. -/
def parseConcrete (s : Store) (url : String) : Except StoreError Address :=
  match s.parse url with
  | .error e => .error e
  | .ok a => a.requireConcrete.map fun () => a

/-! ## Reading and writing -/

/-- Reads a node. -/
def get (s : Store) (url : String) : Except StoreError Entry :=
  match s.parseConcrete url with
  | .error e => .error e
  | .ok a => s.tree.get a

/-- Evaluates the query of a pattern. -/
def expand (s : Store) (pattern : String) : Except StoreError Matches :=
  (s.parse pattern).map fun a => s.tree.expand a pattern

/-- The store after a write to its tree: the watches are evaluated if the write succeeded. -/
def written (s : Store) : Except StoreError Nat × Tree → Except StoreError Nat × Store
  | (.ok revision, tree) => (.ok revision, { s with tree, registry := s.registry.evaluate tree })
  | (.error e, tree) => (.error e, { s with tree })

/-- Writes a value and answers the new revision. -/
def set (s : Store) (url : String) (value : Json) (expected : Precondition) :
    Except StoreError Nat × Store :=
  match s.parseConcrete url with
  | .error e => (.error e, s)
  | .ok a => s.written (s.tree.set a value expected)

/-- Removes a node and answers the new revision. -/
def remove (s : Store) (url : String) (expected : Precondition) :
    Except StoreError Nat × Store :=
  match s.parseConcrete url with
  | .error e => (.error e, s)
  | .ok a => s.written (s.tree.remove a expected)

/-- Writes the value of a JSON text. The text is read before the address. -/
def setText (s : Store) (url text : String) (expected : Precondition) :
    Except StoreError Nat × Store :=
  match Json.parse text with
  | .error fault => (.error (.json fault), s)
  | .ok value => s.set url value expected

/-- Reads a node as JSON text, with its revision. -/
def getText (s : Store) (url : String) : Except StoreError (String × Nat) :=
  (s.get url).map fun entry => (entry.value.text, entry.revision)

/-! ## Watching -/

/-- Registers a watch. -/
def watch (s : Store) (pattern : String) : Except StoreError (WatchId × Store) :=
  (s.parse pattern).map fun a =>
    let (id, registry) := s.registry.register a pattern s.tree
    (id, { s with registry })

/-- How many watches are registered. -/
def watchCount (s : Store) : Nat := s.registry.count

/-- Takes what is in the mailbox of a watch, without waiting. -/
def take (s : Store) (id : WatchId) : Mail × Store :=
  let (mail, registry) := s.registry.take id
  (mail, { s with registry })

/-- Takes what is in the mailbox of a watch, or starts to wait for it. -/
def poll (s : Store) (id : WatchId) : Mail × Store :=
  let (mail, registry) := s.registry.poll id
  (mail, { s with registry })

/-- Stops waiting for a watch. -/
def cancel (s : Store) (id : WatchId) : Store :=
  { s with registry := s.registry.cancel id }

/-- Ends a watch. -/
def release (s : Store) (id : WatchId) : Store :=
  { s with registry := s.registry.release id }

/-- Drops the receiver of a watch, which ends it. -/
def drop (s : Store) (id : WatchId) : Store :=
  { s with registry := s.registry.drop id }

/-- Drops the receivers of several watches. -/
def dropAll (s : Store) (ids : List WatchId) : Store :=
  ids.foldl drop s

end Store

end Switchboard
