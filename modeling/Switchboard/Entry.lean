import Switchboard.Json.Basic
/-!
# Entries

What a read hands out for one node: its value and its revision. A query hands out one entry for
each node that it matches.
-/

namespace Switchboard

/-- A node's value and revision. -/
structure Entry where
  /-- The revision of the last write through the node. -/
  revision : Nat
  /-- The value of the node and all below it. -/
  value : Json
deriving Inhabited

/-- The entry as a JSON value. -/
def Entry.toJson (entry : Entry) : Json :=
  .object [("revision", .ofNat entry.revision), ("value", entry.value)]

/-- The entries that a query found, under the addresses of their nodes: a keyed list. -/
abbrev Matches := List (String × Entry)

/-- The revisions of the entries that a query found. -/
def Matches.revisions (found : Matches) : List (String × Nat) :=
  found.map fun (url, entry) => (url, entry.revision)

/-- The entries that a query found as one JSON value. -/
def Matches.toJson (found : Matches) : Json :=
  .object (found.map fun (url, entry) => (url, entry.toJson))

end Switchboard
