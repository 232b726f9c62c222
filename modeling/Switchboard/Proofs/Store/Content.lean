import Mathlib
import Switchboard.Proofs.Store.Sound
/-!
# Revisions and content

A revision identifies the content of a node: if a node has the same revision in two states of a
run, it is the same node in both, with all that is below it (`Store.same_node_of_same_revision`).
A node that was written in between, at its path, above or below it, has a newer revision, also if
it was removed and made again.
-/

namespace Switchboard.Store

variable {s : Store} {history : List (List String)} {q : List String} {node node' : Node}

/-- A node that has the same revision before and after a run has not changed. -/
theorem Sound.node_eq_of_revision_eq (h : s.Sound history) (calls : List Call)
    (hnode : s.tree.root.get? q = some node)
    (hnode' : (s.after calls).tree.root.get? q = some node')
    (hrevision : node.revision = node'.revision) : node = node' := by
  have hcheck : node.revision = (((s.after calls).tree.root.get? q).map Node.revision).getD 0 := by
    rw [hnode']
    exact hrevision
  have hsame := (untouched_of_revision_eq h calls hnode hcheck).2
  exact Option.some.inj (hsame.symm.trans hnode')

/-- **A revision identifies content.** Of any two states of a run let `s` be the earlier one, and
let `between` be what happens until the other, any writes, removals and new beginnings. If the node
at a concrete address can be read in both states and has the same revision, it is the same node,
and so is every node below it, or it is missing in both. If the revision of the store is the same,
the whole tree is. -/
theorem same_node_of_same_revision (scheme : String) (before between : List Call) :
    let s := (new scheme).after before
    let s' := s.after between
    (∀ url entry entry', s.get url = .ok entry → s'.get url = .ok entry' →
      entry.revision = entry'.revision →
      entry = entry' ∧ ∃ a node, s.parseConcrete url = .ok a ∧ s'.parseConcrete url = .ok a ∧
        s.tree.find a = .ok node ∧ s'.tree.find a = .ok node ∧
        ∀ r, s.tree.root.get? (a.segments ++ r) = s'.tree.root.get? (a.segments ++ r)) ∧
    (s.revision = s'.revision → s.tree = s'.tree) := by
  intro s s'
  have hsound := (Sound.new scheme).after before
  constructor
  · intro url entry entry' hget hget' hrevision
    obtain ⟨a, ha, hread⟩ := get_eq_ok_iff.1 hget
    obtain ⟨b, hb, hread'⟩ := get_eq_ok_iff.1 hget'
    have hab : a = b :=
      Except.ok.inj ((parseConcrete_eq_ok_iff.1 ha).1.symm.trans (parseConcrete_eq_ok_iff.1 hb).1)
    subst hab
    obtain ⟨node, hnode, rfl⟩ := Tree.get_eq_ok_iff.1 hread
    obtain ⟨node', hnode', rfl⟩ := Tree.get_eq_ok_iff.1 hread'
    cases hsound.node_eq_of_revision_eq between hnode hnode' hrevision
    refine ⟨rfl, a, node, ha, hb, Tree.find_eq_ok_iff.2 hnode, Tree.find_eq_ok_iff.2 hnode',
      fun r => ?_⟩
    rw [Node.get?_append, Node.get?_append, hnode, hnode']
  · intro hrevision
    -- The root is a node like any other, at the end of the empty path.
    have hroot : s.tree.root = s'.tree.root :=
      hsound.node_eq_of_revision_eq between Node.get?_nil Node.get?_nil hrevision
    exact congrArg Tree.mk hroot

/-- A lamp around two writes to a door, and the tree around a write that fails. -/
theorem lamp_same_around_door :
    let s := (new "status").after [.write (.set "status://lamp" (.bool true) .unchecked)]
    let s₁ := s.after [.write (.set "status://door" (.bool true) .unchecked),
      .write (.remove "status://door" (.exact 2))]
    let s₂ := s.after [.write (.remove "status://door" .unchecked)]
    (∃ a node, s.parseConcrete "status://lamp" = .ok a ∧
      s₁.parseConcrete "status://lamp" = .ok a ∧
      s.tree.find a = .ok node ∧ s₁.tree.find a = .ok node ∧
      ∀ r, s.tree.root.get? (a.segments ++ r) = s₁.tree.root.get? (a.segments ++ r)) ∧
    s.tree = s₂.tree := by
  have hbefore : ((new "status").after
      [.write (.set "status://lamp" (.bool true) .unchecked)]).get "status://lamp" =
    .ok ⟨1, .bool true⟩ := by cbv
  have hafter : (((new "status").after
      [.write (.set "status://lamp" (.bool true) .unchecked)]).after
        [.write (.set "status://door" (.bool true) .unchecked),
          .write (.remove "status://door" (.exact 2))]).get "status://lamp" =
    .ok ⟨1, .bool true⟩ := by cbv
  have hrevision : ((new "status").after
      [.write (.set "status://lamp" (.bool true) .unchecked)]).revision =
    (((new "status").after [.write (.set "status://lamp" (.bool true) .unchecked)]).after
      [.write (.remove "status://door" .unchecked)]).revision := by cbv
  exact ⟨((same_node_of_same_revision "status" _ _).1 _ _ _ hbefore hafter rfl).2,
    (same_node_of_same_revision "status" _ _).2 hrevision⟩

end Switchboard.Store
