import Switchboard.Tree.Write
import Switchboard.Proofs.Tree.Values
/-!
# What a write does to every path

A write that succeeds replaces the node at its target (`Written`): below the target stands what was
written, above it stand containers with the new revision and the children that they had, and beside
it nothing has changed. The nodes that carry the new revision are therefore exactly those on paths
related to the target.

`Node.stamp` goes down and edits in one pass; the lemmas about it are by induction on the path,
with one inversion lemma for each of its two steps. That it meets no obstacle where the walk of the
check met none is `stamp_ok_of_probe` and `stamp_ok_of_find`; so a write that fails has failed in
its checks, before anything was touched.
-/

namespace Switchboard

namespace Node

variable {n : Nat} {create : Bool} {edit : List (String × Node) → List (String × Node)}
  {node new old child : Node} {name : String} {path parents rest q r : List String}
  {cs : List (String × Node)}

/-! ## The two steps of `stamp` -/

/-- At the end of its path `stamp` edits the children that are there. -/
theorem stamp_nil_ok (h : stamp n create edit [] node = (.ok (), new)) :
    new = container n (edit node.children) := by
  cases node with
  | leaf => cases h
  | container r cs =>
    cases h
    rfl

/-- Before the end of its path `stamp` goes on in a child, an empty one if there was none. -/
theorem stamp_cons_ok (h : stamp n create edit (name :: path) node = (.ok (), new)) :
    ∃ child, stamp n create edit path ((node.children.lookup name).getD (empty n)) =
        (.ok (), child) ∧
      new = container n (Keyed.insert name child node.children) := by
  cases node with
  | leaf => cases h
  | container r cs =>
    rw [children_container]
    simp only [stamp] at h
    cases hl : cs.lookup name with
    | some found =>
      rw [hl] at h
      obtain ⟨ho, rfl⟩ := Prod.mk.inj h
      exact ⟨_, Prod.ext (mapError_eq_ok_iff.1 ho) rfl, rfl⟩
    | none =>
      rw [hl] at h
      cases create with
      | false => cases h
      | true =>
        obtain ⟨ho, rfl⟩ := Prod.mk.inj h
        exact ⟨_, Prod.ext (mapError_eq_ok_iff.1 ho) rfl, rfl⟩

/-! ## What `stamp` leaves at a path -/

/-- At the end of the path and below it stands the container with the edited children. -/
theorem get?_stamp_below (h : stamp n create edit path node = (.ok (), new)) :
    new.get? (path ++ r) = (container n (edit (node.childrenAt path))).get? r := by
  induction path generalizing node new with
  | nil => rw [stamp_nil_ok h, childrenAt_nil, List.nil_append]
  | cons name path ih =>
    obtain ⟨child, hchild, rfl⟩ := stamp_cons_ok h
    rw [List.cons_append, get?_cons, children_container, Keyed.lookup_insert_self, Option.bind_some,
      ih hchild, childrenAt_cons (n := n)]

/-- Above the end of the path stand containers that lack no child and have the next step. -/
theorem get?_stamp_above (h : stamp n create edit path node = (.ok (), new))
    (hp : path = q ++ name :: rest) :
    ∃ child, new.get? q = some (container n (Keyed.insert name child (node.childrenAt q))) := by
  induction q generalizing node new path with
  | nil =>
    subst hp
    obtain ⟨child, -, rfl⟩ := stamp_cons_ok h
    exact ⟨child, rfl⟩
  | cons step q ih =>
    subst hp
    obtain ⟨child, hchild, rfl⟩ := stamp_cons_ok h
    rw [get?_cons, children_container, Keyed.lookup_insert_self, Option.bind_some,
      childrenAt_cons (n := n)]
    exact ih hchild rfl

/-- Beside the path nothing changes. -/
theorem get?_stamp_beside (h : stamp n create edit path node = (.ok (), new))
    (hq : ¬ Related path q) : new.get? q = node.get? q := by
  induction path generalizing node new q with
  | nil => exact absurd (.inl List.nil_prefix) hq
  | cons name path ih =>
    cases q with
    | nil => exact absurd (.inr List.nil_prefix) hq
    | cons step q =>
      obtain ⟨child, hchild, rfl⟩ := stamp_cons_ok h
      rw [get?_cons, get?_cons, children_container]
      by_cases hs : step = name
      · subst hs
        have hq' : ¬ Related path q := fun hr => hq (Related.cons_iff.2 ⟨rfl, hr⟩)
        rw [Keyed.lookup_insert_self, Option.bind_some, ih hchild hq']
        -- A child that was not there has become a container without the step that `q` takes.
        cases node.children.lookup step with
        | some found => rfl
        | none =>
          cases q with
          | nil => exact absurd (.inr List.nil_prefix) hq'
          | cons => rw [Option.getD_none, get?_cons]; rfl
      · rw [Keyed.lookup_insert_of_ne hs]

/-! ## The checks rule out an obstacle -/

/-- Where the walk of a write met no leaf, the way to the parent of its target can be stamped. -/
theorem stamp_ok_of_probe {current : Option Nat}
    (h : node.probe (parents ++ [name]) = .ok current) :
    (node.stamp n true edit parents).1 = .ok () := by
  induction parents generalizing node current with
  | nil =>
    cases node with
    | leaf => cases h
    | container => rfl
  | cons step parents ih =>
    cases node with
    | leaf => cases h
    | container r cs =>
      simp only [List.cons_append, probe] at h
      simp only [stamp]
      cases hl : cs.lookup step with
      | some found =>
        rw [hl] at h
        exact mapError_eq_ok_iff.2 (ih (mapError_eq_ok_iff.1 h))
      | none =>
        -- From here on there is nothing in the way, whatever path is left.
        have hempty : (empty n).probe (parents ++ [name]) = .ok none := by
          cases parents <;> rfl
        exact mapError_eq_ok_iff.2 (ih hempty)

/-- Where a node was found, the way to its parent can be stamped. -/
theorem stamp_ok_of_find {found : Node} (h : node.find (parents ++ [name]) = .ok found) :
    (node.stamp n false edit parents).1 = .ok () := by
  induction parents generalizing node with
  | nil =>
    cases node with
    | leaf => cases h
    | container => rfl
  | cons step parents ih =>
    cases node with
    | leaf => cases h
    | container r cs =>
      simp only [List.cons_append, find] at h
      simp only [stamp]
      cases hl : cs.lookup step with
      | some child =>
        rw [hl] at h
        exact mapError_eq_ok_iff.2 (ih (mapError_eq_ok_iff.1 h))
      | none =>
        rw [hl] at h
        cases h

/-! ## A write, path by path -/

/-- What a write of revision `n` at the path `p` does to a tree. What it leaves at its target is
made of a value; a removal leaves nothing there, except at the root. -/
structure Written (n : Nat) (p : List String) (left : Option Node) (old new : Node) : Prop where
  /-- What is left at the target is made of a value, with the new revision. -/
  made : ∀ node, left = some node → ∃ v, Holds n v node
  /-- At the target and below it stands what is left there. -/
  below : ∀ r, new.get? (p ++ r) = left.bind (get? r)
  /-- Above the target stand containers that differ from what was there at most in the next step. -/
  above : ∀ q name rest, p = q ++ name :: rest → ∃ cs, new.get? q = some (container n cs) ∧
    (Keyed.Ascending (old.childrenAt q) → Keyed.Ascending cs) ∧
    ∀ k, k ≠ name → cs.lookup k = (old.childrenAt q).lookup k
  /-- Beside the target nothing changes. -/
  beside : ∀ q, ¬ Related p q → new.get? q = old.get? q

namespace Written

variable {p : List String} {left : Option Node} {part : Node} {k : String}

/-- A write at the root leaves nothing of the old tree. -/
theorem root {v : Json} (h : Holds n v new) : Written n [] (some new) old new where
  made := fun node hnode => ⟨v, Option.some.inj hnode ▸ h⟩
  below := fun _ => rfl
  above := fun q _ _ hp => by cases q <;> cases hp
  beside := fun _ hq => absurd (.inl List.nil_prefix) hq

/-- Stamping the way to the parent and changing the children there in one name is a write. -/
theorem of_stamp (hmade : ∀ node, left = some node → ∃ v, Holds n v node)
    (hself : ∀ cs, (edit cs).lookup name = left)
    (hother : ∀ cs k, k ≠ name → (edit cs).lookup k = cs.lookup k)
    (hasc : ∀ cs, Keyed.Ascending cs → Keyed.Ascending (edit cs))
    (h : stamp n create edit parents old = (.ok (), new)) :
    Written n (parents ++ [name]) left old new where
  made := hmade
  below := fun r => by
    rw [List.append_assoc, get?_stamp_below h, List.singleton_append, get?_cons,
      children_container, hself]
  above := fun q step rest hp => by
    rcases List.eq_nil_or_concat rest with rfl | ⟨rest, last, rfl⟩
    · obtain ⟨rfl, hstep⟩ := List.append_inj' hp rfl
      cases hstep
      have hnew := get?_stamp_below (r := []) h
      rw [List.append_nil, get?_nil] at hnew
      exact ⟨_, hnew, hasc _, hother _⟩
    · rw [List.concat_eq_append, ← List.cons_append, ← List.append_assoc] at hp
      obtain ⟨child, hnew⟩ := get?_stamp_above h (List.append_inj' hp rfl).1
      exact ⟨_, hnew, Keyed.Ascending.insert, fun k hk => Keyed.lookup_insert_of_ne hk⟩
  beside := fun q hq => by
    by_cases hr : Related parents q
    · obtain ⟨step, rest, rfl, hne⟩ := hr.of_not_concat hq
      rw [get?_stamp_below h, get?_cons, children_container, hother _ _ hne, get?_append_cons]
    · exact get?_stamp_beside h hr

/-- All nodes at the target and below it are made of values. -/
theorem made_below (h : Written n p left old new) (hpart : new.get? (p ++ r) = some part) :
    ∃ w, Holds n w part := by
  rw [h.below r] at hpart
  obtain ⟨node, hnode, hr⟩ := Option.bind_eq_some_iff.1 hpart
  obtain ⟨v, hv⟩ := h.made node hnode
  obtain ⟨w, -, hw⟩ := hv.of_get? hr
  exact ⟨w, hw⟩

/-- All nodes on paths related to the target have the new revision. -/
theorem revision_eq (h : Written n p left old new) (hq : Related p q)
    (hpart : new.get? q = some part) : part.revision = n := by
  rcases hq.cases with ⟨r, rfl⟩ | ⟨name, rest, hp⟩
  · obtain ⟨w, hw⟩ := h.made_below hpart
    exact hw.revision_eq
  · obtain ⟨cs, hnew, -⟩ := h.above q name rest hp
    rw [hpart] at hnew
    cases hnew
    rfl

/-- The root has the new revision. -/
theorem revision_root (h : Written n p left old new) : new.revision = n :=
  h.revision_eq (.inr List.nil_prefix) get?_nil

end Written

end Node

/-! ## Writes to a tree -/

namespace Tree

variable {t t' : Tree} {a : Address} {v : Json} {expected : Precondition} {n m : Nat}
  {create : Bool} {root : Node} {e : StoreError}
  {edit : String → List (String × Node) → List (String × Node)}

/-- The root's revision is the tree's. -/
theorem revision_eq : t.root.revision = t.revision := rfl

/-- A search finds what is seen at the end of the address. -/
theorem find_eq_ok_iff {node : Node} : t.find a = .ok node ↔ t.root.get? a.segments = some node :=
  mapError_eq_ok_iff.trans Node.find_eq_ok_iff

/-- Carrying out a write changes the root, or the children of the target's parent. -/
theorem commit_eq_ok (h : t.commit a n create root edit = (.ok m, t')) :
    m = n ∧ ((a.segments = [] ∧ t'.root = root) ∨
      ∃ parents name, a.segments = parents ++ [name] ∧
        t.root.stamp n create (edit name) parents = (.ok (), t'.root)) := by
  unfold commit at h
  rcases List.eq_nil_or_concat a.segments with hnil | ⟨parents, name, hcons⟩
  · rw [hnil] at h
    cases h
    exact ⟨rfl, .inl ⟨hnil, rfl⟩⟩
  · rw [List.concat_eq_append] at hcons
    rw [hcons, List.getLast?_concat, List.dropLast_concat] at h
    cases hs : t.root.stamp n create (edit name) parents with
    | mk outcome written =>
      simp only [hs] at h
      obtain ⟨ho, rfl⟩ := Prod.mk.inj h
      cases outcome with
      | error => cases ho
      | ok =>
        cases ho
        exact ⟨rfl, .inr ⟨parents, name, hcons, hs⟩⟩

/-- Carrying out a write succeeds if the way to the target's parent can be stamped. -/
theorem commit_ok (h : ∀ parents name, a.segments = parents ++ [name] →
    (t.root.stamp n create (edit name) parents).1 = .ok ()) :
    (t.commit a n create root edit).1 = .ok n := by
  unfold commit
  rcases List.eq_nil_or_concat a.segments with hnil | ⟨parents, name, hcons⟩
  · rw [hnil]
    rfl
  · rw [List.concat_eq_append] at hcons
    rw [hcons, List.getLast?_concat, List.dropLast_concat]
    simp only [h parents name hcons]
    rfl

/-- A value that was written: the checks held of the tree before, and the value's node stands at
the address in the tree after. -/
theorem set_eq_ok (h : t.set a v expected = (.ok n, t')) :
    n = t.revision + 1 ∧
    expected.check a ((t.root.get? a.segments).map Node.revision) = .ok () ∧
    ∃ node, Node.Holds n v node ∧ Node.Written n a.segments (some node) t.root t'.root := by
  unfold set at h
  split at h
  · cases h
  · next current hprobe =>
    split at h
    · cases h
    · next hcheck =>
      dsimp only at h
      split at h
      · cases h
      · next node hnode =>
        obtain ⟨rfl, hcommit⟩ := commit_eq_ok h
        have hmade : Node.Holds (t.revision + 1) v node := ⟨a, hnode⟩
        refine ⟨rfl, Node.probe_eq_ok (mapError_eq_ok_iff.1 hprobe) ▸ hcheck, node, hmade, ?_⟩
        rcases hcommit with ⟨hroot, hnew⟩ | ⟨parents, name, hsegments, hstamp⟩
        · rw [hroot, hnew]
          exact .root hmade
        · rw [hsegments]
          exact .of_stamp (fun _ hsome => ⟨v, Option.some.inj hsome ▸ hmade⟩)
            (fun _ => Keyed.lookup_insert_self) (fun _ _ => Keyed.lookup_insert_of_ne)
            (fun _ => Keyed.Ascending.insert) hstamp

/-- What a removal leaves at its target: nothing, but null at the root. -/
def remnant (n : Nat) (p : List String) : Option Node :=
  if p = [] then some (.null n) else none

/-- A node that was removed: the checks held of the tree before, and the node is not in the tree
after. -/
theorem remove_eq_ok (h : t.remove a expected = (.ok n, t')) :
    n = t.revision + 1 ∧ (∃ node, t.root.get? a.segments = some node) ∧
    expected.check a ((t.root.get? a.segments).map Node.revision) = .ok () ∧
    Node.Written n a.segments (remnant n a.segments) t.root t'.root := by
  unfold remove at h
  split at h
  · cases h
  · next node hfind =>
    split at h
    · cases h
    · next hcheck =>
      obtain ⟨rfl, hcommit⟩ := commit_eq_ok h
      have hnode := find_eq_ok_iff.1 hfind
      refine ⟨rfl, ⟨node, hnode⟩, by rw [hnode]; exact hcheck, ?_⟩
      rcases hcommit with ⟨hroot, hnew⟩ | ⟨parents, name, hsegments, hstamp⟩
      · rw [hroot, hnew]
        exact .root ⟨a, (rfl : Node.ofJson _ a .null = _)⟩
      · rw [hsegments, remnant, if_neg (by simp)]
        exact .of_stamp (fun _ hnone => by cases hnone) (fun _ => Keyed.lookup_erase_self)
          (fun _ _ => Keyed.lookup_erase_of_ne) (fun _ => Keyed.Ascending.erase) hstamp

/-- A value that was not written has left the tree alone. -/
theorem set_eq_error (h : t.set a v expected = (.error e, t')) : t' = t := by
  unfold set at h
  split at h
  · exact (Prod.mk.inj h).2.symm
  · next current hprobe =>
    split at h
    · exact (Prod.mk.inj h).2.symm
    · dsimp only at h
      split at h
      · exact (Prod.mk.inj h).2.symm
      · next node _ =>
        have hok : (t.commit a (t.revision + 1) true node fun name => Keyed.insert name node).1 =
            .ok (t.revision + 1) :=
          commit_ok fun parents name hsegments =>
            Node.stamp_ok_of_probe (hsegments ▸ mapError_eq_ok_iff.1 hprobe)
        rw [h] at hok
        cases hok

/-- A node that was not removed has left the tree alone. -/
theorem remove_eq_error (h : t.remove a expected = (.error e, t')) : t' = t := by
  unfold remove at h
  split at h
  · exact (Prod.mk.inj h).2.symm
  · next node hfind =>
    split at h
    · exact (Prod.mk.inj h).2.symm
    · have hok : (t.commit a (t.revision + 1) false (.null (t.revision + 1)) Keyed.erase).1 =
          .ok (t.revision + 1) :=
        commit_ok fun parents name hsegments =>
          Node.stamp_ok_of_find (hsegments ▸ mapError_eq_ok_iff.1 hfind)
      rw [h] at hok
      cases hok

end Tree

end Switchboard
