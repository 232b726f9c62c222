import Mathlib
import Switchboard.Proofs.Store.Calls
import Switchboard.Proofs.Json.Ordered
/-!
# The effect of a write, path by path

What a write that succeeds leaves at every path of the tree: at its target and below, above it, and
on all other paths. `Node.Placed` says it of a value that was written and `Node.Cleared` of a node
that was removed; `Store.placed_or_cleared` is that every write that succeeds, at whatever store,
has that effect. A write that fails has none (`Store.failed_write_unchanged`).
-/

namespace Switchboard

namespace Node

variable {n : Nat} {p : List String} {v : Json} {old new node : Node}

/-- What writing `v` at the path `p` with revision `n` leaves at every path. -/
structure Placed (n : Nat) (p : List String) (v : Json) (old new : Node) : Prop where
  /-- At the target and below it there is a node exactly where the value has a part. It carries the
  new revision and is read back as that part. -/
  target : ∀ r, (new.get? (p ++ r)).map (fun node => (node.revision, node.toJson)) =
    (v.part? r).map fun part => (n, part)
  /-- Above the target stand containers with the new revision. Their children are those that were
  there and the next one on the way. -/
  above : ∀ q name rest, p = q ++ name :: rest → ∃ cs, new.get? q = some (container n cs) ∧
    ∀ k, k ∈ cs.map Prod.fst ↔ k = name ∨ k ∈ (old.childrenAt q).map Prod.fst
  /-- On all other paths nothing changes. -/
  beside : ∀ q, ¬ q <+: p → ¬ p <+: q → new.get? q = old.get? q

/-- What removing the node at the path `p` with revision `n` leaves at every path. -/
structure Cleared (n : Nat) (p : List String) (old new : Node) : Prop where
  /-- The root becomes null. -/
  root : p = [] → new = null n
  /-- Any other target is gone, with all that was below it. -/
  target : p ≠ [] → ∀ r, new.get? (p ++ r) = none
  /-- Above the target stand the containers that were there, with the new revision. They keep
  their children, but for the target itself. -/
  above : ∀ q name rest, p = q ++ name :: rest → ∃ revision before cs,
    old.get? q = some (container revision before) ∧ new.get? q = some (container n cs) ∧
    ∀ k, k ∈ cs.map Prod.fst ↔ k ∈ before.map Prod.fst ∧ (rest = [] → k ≠ name)
  /-- On all other paths nothing changes. -/
  beside : ∀ q, ¬ q <+: p → ¬ p <+: q → new.get? q = old.get? q

/-- Above the target of a write, all children but the next one on the way stay. -/
theorem Written.mem_keys_above {left : Option Node} (h : Written n p left old new)
    {q : List String} {name : String} {rest : List String} (hp : p = q ++ name :: rest) :
    ∃ cs, new.get? q = some (container n cs) ∧
      (∀ k, k ≠ name → (k ∈ cs.map Prod.fst ↔ k ∈ (old.childrenAt q).map Prod.fst)) ∧
      (name ∈ cs.map Prod.fst ↔ rest ≠ [] ∨ left.isSome) := by
  obtain ⟨cs, hnew, -, hcs⟩ := h.above q name rest hp
  refine ⟨cs, hnew, fun k hk => ?_, ?_⟩
  · rw [Keyed.mem_keys_iff, Keyed.mem_keys_iff, hcs k hk]
  · -- The next child on the way is the target or stands above it.
    have hchild : new.get? (q ++ [name]) = cs.lookup name := by
      rw [get?_append_cons, childrenAt_of_get? hnew, children_container]
      cases cs.lookup name <;> rfl
    rw [Keyed.mem_keys_iff, ← hchild]
    cases rest with
    | nil =>
      have htarget := h.below []
      rw [List.append_nil, hp] at htarget
      rw [htarget]
      cases left <;> simp
    | cons next rest =>
      obtain ⟨below, hbelow, -⟩ := h.above (q ++ [name]) next rest (by rw [hp]; simp)
      simp [hbelow]

/-- Replacing a target by a node made of a value places the value. -/
theorem Written.placed (hv : v.Ordered) (hnode : Holds n v node)
    (h : Written n p (some node) old new) : Placed n p v old new where
  target := fun r => by
    rw [h.below r, Option.bind_some]
    generalize hx : v.part? r = x, hy : node.get? r = y, hnode.get? r = hr
    cases hr with
    | none => rfl
    | some hpart =>
      rw [Option.map_some, Option.map_some, hpart.revision_eq, hpart.toJson_eq (hv.part? hx)]
  above := fun q name rest hp => by
    obtain ⟨cs, hnew, hother, hname⟩ := h.mem_keys_above hp
    refine ⟨cs, hnew, fun k => ?_⟩
    by_cases hk : k = name
    · subst hk
      simp [hname]
    · rw [hother k hk]
      simp [hk]
  beside := fun q hq hp => h.beside q (not_or.2 ⟨hp, hq⟩)

/-- Removing a target that was there clears its path. -/
theorem Written.cleared (hnode : old.get? p = some node)
    (h : Written n p (Tree.remnant n p) old new) : Cleared n p old new where
  root := fun hp => by
    subst hp
    exact Option.some.inj (h.below [])
  target := fun hp r => by
    rw [h.below r, Tree.remnant, if_neg hp, Option.bind_none]
  above := fun q name rest hp => by
    obtain ⟨cs, hnew, hother, hname⟩ := h.mem_keys_above hp
    rw [hp, get?_append_cons] at hnode
    obtain ⟨child, hchild, -⟩ := Option.bind_eq_some_iff.1 hnode
    -- The target was there, so a container was there on the way to it, with the next step.
    obtain ⟨revision, hold⟩ := get?_of_lookup_childrenAt hchild
    refine ⟨revision, _, cs, hold, hnew, fun k => ?_⟩
    by_cases hk : k = name
    · subst hk
      rw [hname, Tree.remnant, if_neg (by simp [hp]), Keyed.mem_keys_iff]
      simp [hchild]
    · rw [hother k hk]
      simp [hk]
  beside := fun q hq hp => h.beside q (not_or.2 ⟨hp, hq⟩)

end Node

namespace Store

/-- **The effect of a write.** Whatever the store, the address and the precondition: a value that
was written, as a value or as JSON text, is placed at the path of the address, and a node that was
removed is cleared from it, with the revision that was answered. An object is a map, so the keys of
a value are taken to be ordered, which those of a value read from a text always are. -/
theorem placed_or_cleared (s s' : Store) (url : String) (expected : Precondition) (n : Nat) :
    (∀ v : Json, v.Ordered → s.set url v expected = (.ok n, s') →
      ∃ a, s.parseConcrete url = .ok a ∧
        Node.Placed n a.segments v s.tree.root s'.tree.root) ∧
    (∀ text, s.setText url text expected = (.ok n, s') →
      ∃ v a, Json.parse text = .ok v ∧ s.parseConcrete url = .ok a ∧
        Node.Placed n a.segments v s.tree.root s'.tree.root) ∧
    (s.remove url expected = (.ok n, s') →
      ∃ a, s.parseConcrete url = .ok a ∧
        Node.Cleared n a.segments s.tree.root s'.tree.root) := by
  have hset : ∀ v : Json, v.Ordered → s.set url v expected = (.ok n, s') →
      ∃ a, s.parseConcrete url = .ok a ∧
        Node.Placed n a.segments v s.tree.root s'.tree.root := by
    intro v hv h
    obtain ⟨a, tree, ha, htree, rfl⟩ := set_eq_ok h
    obtain ⟨-, -, node, hnode, hwritten⟩ := Tree.set_eq_ok htree
    exact ⟨a, ha, hwritten.placed hv hnode⟩
  refine ⟨hset, fun text h => ?_, fun h => ?_⟩
  · obtain ⟨v, hv, h⟩ := setText_eq_ok h
    obtain ⟨a, ha, hplaced⟩ := hset v (Json.ordered_of_parse hv) h
    exact ⟨v, a, hv, ha, hplaced⟩
  · obtain ⟨a, tree, ha, htree, rfl⟩ := remove_eq_ok h
    obtain ⟨-, ⟨node, hnode⟩, -, hwritten⟩ := Tree.remove_eq_ok htree
    exact ⟨a, ha, hwritten.cleared hnode⟩

/-- A lamp that is written below a container that is not there yet, and a part of it that is then
removed. -/
theorem placed_then_cleared :
    ∃ s₁ s₂ : Store,
      (Store.new "status").set "status://lamp/hall" (.object [("on", .bool true)]) .unchecked =
        (.ok 1, s₁) ∧
      s₁.remove "status://lamp/hall/on" (.exact 1) = (.ok 2, s₂) ∧
      (∃ a, (Store.new "status").parseConcrete "status://lamp/hall" = .ok a ∧
        Node.Placed 1 a.segments (.object [("on", .bool true)])
          (Store.new "status").tree.root s₁.tree.root) ∧
      ∃ a, s₁.parseConcrete "status://lamp/hall/on" = .ok a ∧
        Node.Cleared 2 a.segments s₁.tree.root s₂.tree.root := by
  have hset : ((Store.new "status").set "status://lamp/hall" (.object [("on", .bool true)])
      .unchecked).1 = .ok 1 := by cbv
  have hremove : (((Store.new "status").set "status://lamp/hall" (.object [("on", .bool true)])
      .unchecked).2.remove "status://lamp/hall/on" (.exact 1)).1 = .ok 2 := by cbv
  replace hset := eq_mk_of_fst_eq hset
  replace hremove := eq_mk_of_fst_eq hremove
  exact ⟨_, _, hset, hremove,
    (placed_or_cleared _ _ _ _ _).1 _ ⟨List.pairwise_singleton _ _, trivial, trivial⟩ hset,
    (placed_or_cleared _ _ _ _ _).2.2 hremove⟩

/-! ## Writes that fail -/

/-- **A write that fails has no effect.** Whatever the store, the write and the reason: the store
is the one before, with every node, every watch, what each of them has seen and holds, and every
bell. In particular stamping, which has changed the nodes above by the time it meets an obstacle,
meets none on a path on which a probe or a search has met none. -/
theorem failed_write_unchanged (s : Store) (w : Write) (node : Node) (n : Nat)
    (edit : List (String × Node) → List (String × Node)) (parents : List String) (name : String) :
    (∀ e s', s.write w = (.error e, s') → s' = s) ∧
    (∀ current, node.probe (parents ++ [name]) = .ok current →
      (node.stamp n true edit parents).1 = .ok ()) ∧
    (∀ found, node.find (parents ++ [name]) = .ok found →
      (node.stamp n false edit parents).1 = .ok ()) :=
  ⟨fun _ _ => write_eq_error, fun _ => Node.stamp_ok_of_probe, fun _ => Node.stamp_ok_of_find⟩

/-- A write below a leaf, where a watch is registered. Stamping goes through the path of which only
the first step is there, and to the parent of a node that is there. -/
theorem write_below_leaf_unchanged :
    let s := (Store.new "status").after
      [.watch "status://lamp/*", .write (.set "status://lamp/hall" (.bool true) .unchecked)]
    let w := Write.set "status://lamp/hall/level" (.bool true) .unchecked
    let node := Node.container 1 [("lamp", .empty 1)]
    s.write w = (.error (.notContainer "status://lamp/hall"), s) ∧
      (node.probe ["lamp", "hall"] = .ok none ∧ (node.stamp 2 true id ["lamp"]).1 = .ok ()) ∧
      node.find ["lamp"] = .ok (.empty 1) ∧ (node.stamp 2 false id []).1 = .ok () := by
  have hrefused : (((Store.new "status").after
      [.watch "status://lamp/*", .write (.set "status://lamp/hall" (.bool true) .unchecked)]).write
    (.set "status://lamp/hall/level" (.bool true) .unchecked)).1 =
      .error (.notContainer "status://lamp/hall") := by cbv
  have hwrite := eq_mk_of_fst_eq hrefused
  have hsame := (failed_write_unchanged _ _ default 0 id [] "").1 _ _ hwrite
  refine ⟨hwrite.trans (by rw [hsame]), ⟨rfl, ?_⟩, rfl, ?_⟩
  · exact (failed_write_unchanged (.new "") (.remove "" .unchecked) _ 2 id ["lamp"] "hall").2.1
      none rfl
  · exact (failed_write_unchanged (.new "") (.remove "" .unchecked) _ 2 id [] "lamp").2.2
      (.empty 1) rfl

end Store

end Switchboard
