/-!
# Keyed lists

A finite map from text to values is kept as a list of pairs, one pair for each key, in ascending
order of the keys (`Keyed.Ascending`). Text is ordered by code point, which is also the order of
its encoded bytes, so a keyed list is at once a map, the order in which its entries are shown and
the order in which they are written. Objects, the children of a container and the result of a
query are all keyed lists.

Looking up is `List.lookup` and erasing is `Keyed.erase`; `Keyed.insert` keeps the order.
-/

namespace Switchboard.Keyed

universe u

variable {α : Type u}

/-- `m` holds each key once, and its keys ascend. -/
def Ascending (m : List (String × α)) : Prop :=
  (m.map Prod.fst).Pairwise (· < ·)

instance (m : List (String × α)) : Decidable (Ascending m) :=
  inferInstanceAs (Decidable (List.Pairwise _ _))

/-- Binds `key` to `value`, in place of what the key was bound to before. -/
def insert (key : String) (value : α) : List (String × α) → List (String × α)
  | [] => [(key, value)]
  | (k, v) :: rest =>
    if key < k then (key, value) :: (k, v) :: rest
    else if key = k then (key, value) :: rest
    else (k, v) :: insert key value rest

/-- Leaves out the binding of `key`. -/
def erase (key : String) (m : List (String × α)) : List (String × α) :=
  m.filter fun entry => entry.1 ≠ key

/-- The map of a list of pairs in any order, where a later pair overrides an earlier one. -/
def ofList (pairs : List (String × α)) : List (String × α) :=
  pairs.foldl (fun m entry => insert entry.1 entry.2 m) []

end Switchboard.Keyed
