import Switchboard.Proofs.Store.History
import Switchboard.Proofs.Watch.Delivery
/-!
# Every state of a run

What holds of a store in every state of a run from a new one (`Store.Sound`): the tree is what the
writes so far can leave, it is well formed, and every watch is up to date. One call keeps each of
these (`Store.reached_call`, `Store.Sound.wellFormed_call`, `Store.Sound.fresh_step`), so a run
keeps them all (`Store.Sound.after`). Apart from that a run keeps the numbers of its watches in
order, and nothing is watched that no call has asked for (`Store.numbered_after`,
`Store.requested_after`).

In a sound store the entry that a query shows is the one that is read at its key
(`Store.get_of_mem_expand`), and a node whose revision is still the same after a run was not
touched by it (`Store.untouched_of_revision_eq`).
-/

namespace Switchboard.Store

/-- A store as a run with this history can leave it. -/
structure Sound (history : List (List String)) (s : Store) : Prop where
  reached : s.tree.Reached history
  wellFormed : s.tree.root.WellFormed
  fresh : s.registry.Fresh s.scheme s.tree

namespace Sound

variable {s s' : Store} {history : List (List String)}

/-- A new store is sound. -/
theorem new (scheme : String) : (Store.new scheme).Sound [] where
  reached := .new
  wellFormed := Node.wellFormed_empty
  fresh := nofun

/-! ## One call -/

/-- A call keeps the tree well formed. -/
theorem wellFormed_call (h : s.Sound history) (c : Call) : (s.call c).2.tree.root.WellFormed := by
  rcases (call_step s c).written_or_same with ⟨p, left, -, -, hp, hwritten⟩ | ⟨htree, -⟩
  · exact hwritten.wellFormed h.wellFormed hp
  · rw [htree]
    exact h.wellFormed

/-- A write that succeeds makes the tree anew at its target, under a revision that no node has. -/
theorem renewed {w : Write} {a : Address} {n : Nat} (h : s.Sound history)
    (hwrote : s.Wrote w.url w.expected a n s') : Tree.Renewed n a.segments s.tree s'.tree := by
  obtain ⟨left, hwritten⟩ := hwrote.written
  refine ⟨h.wellFormed, ?_, fun q part hpart => ?_, left, hwritten⟩
  · exact hwritten.wellFormed h.wellFormed (isAddressable_of_parseConcrete hwrote.address)
  · rw [hwrote.revision_eq]
    exact Nat.lt_succ_of_le (h.reached.revision_le hpart)

/-- A step keeps all watches up to date. -/
theorem fresh_step {c : Call} {answer : Answer} (h : s.Sound history) (hstep : s.Step c answer s') :
    s'.registry.Fresh s'.scheme s'.tree := by
  cases hstep with
  | written hwrote =>
    have hfresh := h.fresh.evaluate (h.renewed hwrote)
    rw [hwrote.state]
    exact hfresh
  | watching hparse =>
    obtain ⟨hkey, hscheme⟩ := parse_eq_ok hparse
    exact h.fresh.register hkey hscheme
  | asked _ hserved => exact h.fresh.handed hserved
  | quiet _ _ hwatches _ => exact h.fresh.of_subset hwatches

/-- A call leaves a sound store. -/
theorem call (h : s.Sound history) (c : Call) :
    (s.call c).2.Sound (history ++ (writtenPath? (c, (s.call c).1)).toList) where
  reached := reached_call h.reached c
  wellFormed := h.wellFormed_call c
  fresh := h.fresh_step (call_step s c)

/-! ## A run -/

/-- A run leaves a sound store. -/
theorem after (h : s.Sound history) (calls : List Call) :
    (s.after calls).Sound (history ++ s.history calls) := by
  induction calls generalizing s history with
  | nil => rwa [show s.history [] = [] from rfl, List.append_nil]
  | cons c calls ih =>
    rw [history_cons, ← List.append_assoc]
    exact ih (h.call c)

end Sound

/-! ## Numbers of watches -/

/-- A call keeps the numbers of the watches in order. -/
theorem numbered_call {s : Store} (h : s.registry.Numbered) (c : Call) :
    (s.call c).2.registry.Numbered := by
  rcases (call_step s c).watching_or_kept with ⟨pattern, text, -, -, hregistry⟩ | hkept
  · rw [hregistry]
    exact h.register
  · exact h.kept hkept

/-- A run keeps the numbers of the watches in order. -/
theorem numbered_after {s : Store} (h : s.registry.Numbered) (calls : List Call) :
    (s.after calls).registry.Numbered := by
  induction calls generalizing s with
  | nil => exact h
  | cons c calls ih => exact ih (numbered_call h c)

/-- What is watched after a run was watched before, or a call of the run has asked for it. -/
theorem requested_after {s : Store} {id : WatchId} {text : String} (calls : List Call)
    (h : (id, text) ∈ (s.after calls).registry.requests) :
    (id, text) ∈ s.registry.requests ∨ (.watch text, .watching id) ∈ s.log calls := by
  induction calls generalizing s with
  | nil => exact .inl h
  | cons c calls ih =>
    rcases ih h with hbefore | hlater
    · rcases (call_step s c).watching_or_kept with ⟨pattern, asked, rfl, hanswer, hregistry⟩ | hkept
      · rw [hregistry, Registry.requests_register, List.mem_append, List.mem_singleton] at hbefore
        rcases hbefore with hbefore | hnew
        · exact .inl hbefore
        · obtain ⟨rfl, rfl⟩ := Prod.mk.inj hnew
          rw [log, hanswer]
          exact .inr List.mem_cons_self
      · exact .inl (hkept.requests.subset hbefore)
    · exact .inr (List.mem_cons_of_mem _ hlater)

/-! ## Reading in a sound store -/

section

variable {s : Store} {history : List (List String)}

/-- What a query finds can be read from the store. -/
theorem get_of_mem_expand {pattern : Address} {text key : String} {seen : Entry}
    (h : s.Sound history)
    (hparse : Address.parse text = .ok pattern) (hscheme : pattern.scheme = s.scheme)
    (hseen : (key, seen) ∈ s.tree.expand pattern text) : s.get key = .ok seen := by
  obtain ⟨a, ha, hascheme, hconcrete, hget⟩ := Tree.mem_expand h.wellFormed hparse hseen
  exact get_eq_ok_iff.2
    ⟨a, parseConcrete_eq_ok_iff.2 ⟨ha, hascheme.trans hscheme, hconcrete⟩, hget⟩

/-- A node whose revision was seen and is still expected after a run: no target of the run is
related to its path, and it has not changed. -/
theorem untouched_of_revision_eq {q : List String} {part : Node} (h : s.Sound history)
    (calls : List Call) (hpart : s.tree.root.get? q = some part)
    (hrevision : part.revision =
      (((s.after calls).tree.root.get? q).map Node.revision).getD 0) :
    (∀ p ∈ s.history calls, ¬ Related p q) ∧
      (s.after calls).tree.root.get? q = some part := by
  rcases untouched_or_newer s calls q with ⟨hhistory, hsame⟩ | hnewer
  · exact ⟨hhistory, hsame.trans hpart⟩
  · cases hnow : (s.after calls).tree.root.get? q with
    | some now =>
      rw [hnow] at hrevision
      have hold : part.revision ≤ s.revision := h.reached.revision_le hpart
      have hnew : s.revision < now.revision := hnewer now hnow
      rw [hrevision] at hold
      exact absurd hold (Nat.not_le.2 hnew)
    | none =>
      -- Only the root can have revision zero, and the root is never missing.
      rw [hnow] at hrevision
      cases h.reached.of_revision_zero hpart hrevision
      cases hnow

end

end Switchboard.Store
