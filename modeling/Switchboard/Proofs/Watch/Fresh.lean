import Switchboard.Proofs.Watch.Consumers
import Switchboard.Proofs.Tree.Matches
/-!
# Mailboxes

A mailbox never holds an old result: what is in it is what the query of the watch would find now
(`Watch.Fresh`), values and all, although deliveries are decided by comparing revisions and a
result may have waited in the mailbox across any number of writes.

A consumer at most empties a mailbox, and a new watch starts with its first result
(`Registry.Fresh.handed`, `Registry.Fresh.register`). After a write, a watch that is not stale has
nothing to deliver, since its result is still the same (`Watch.Fresh.result_eq`).
-/

namespace Switchboard

namespace Registry

variable {r r' : Registry} {id : WatchId} {w : Watch}

/-- A registered watch is one of the watches. -/
theorem mem_of_find? (h : r.find? id = some w) : (id, w) ∈ r.watches := by
  obtain ⟨before, after, hwatches, -⟩ := List.lookup_eq_some_iff.1 h
  rw [hwatches]
  exact List.mem_append_right _ List.mem_cons_self

/-- What is handed out was in the mailbox of the watch. -/
theorem Handed.ready {served : Mail × Registry} {found : Matches} (h : r.Handed id served)
    (hfound : served.1 = .ready found) : ∃ w, (id, w) ∈ r.watches ∧ w.pending = some found := by
  rcases h.mail with ⟨w, found', hw, hpending, hmail, -⟩ | ⟨hmail, -⟩
  · cases hfound.symm.trans hmail
    exact ⟨w, mem_of_find? hw, hpending⟩
  · rw [hfound] at hmail
    cases hmail

end Registry

/-! ## Results -/

namespace Watch

variable {scheme : String} {t t' : Tree} {w : Watch} {n : Nat} {p : List String}

/-- The watch has seen what its query finds in the tree, and holds that result or none. -/
structure Fresh (scheme : String) (t : Tree) (w : Watch) : Prop where
  /-- The pattern is read from the caller's spelling. -/
  key : Address.parse w.key = .ok w.pattern
  /-- It belongs to the store. -/
  scheme : w.pattern.scheme = scheme
  /-- The watch has seen the present addresses and revisions. -/
  lastSeen : w.lastSeen = (w.result t).revisions
  /-- What is in the mailbox is the present result. -/
  pending : ∀ found, w.pending = some found → found = w.result t

/-- A new watch has its first result. -/
theorem fresh_first {pattern : Address} {key : String} (hkey : Address.parse key = .ok pattern)
    (hscheme : pattern.scheme = scheme) : (first pattern key t).Fresh scheme t where
  key := hkey
  scheme := hscheme
  lastSeen := rfl
  pending := fun _ hfound => (Option.some.inj hfound).symm

/-- A watch whose mailbox was emptied has still seen the present result. -/
theorem Fresh.emptied (h : w.Fresh scheme t) : { w with pending := none }.Fresh scheme t where
  key := h.key
  scheme := h.scheme
  lastSeen := h.lastSeen
  pending := nofun

/-- The query of a watch that is not stale after a write has the same result as before: the
addresses and revisions are the same, so the entries are. -/
theorem Fresh.result_eq (h : w.Fresh scheme t) (hw : Tree.Renewed n p t t')
    (hstale : ¬ w.isStale t' = true) :
    w.result t = w.result t' := by
  have hseen : w.lastSeen = (w.result t').revisions := by simpa [isStale] using hstale
  exact hw.expand_eq_of_revisions_eq (Address.wellFormed_of_parse h.key)
    (h.lastSeen.symm.trans hseen)

/-- The evaluation after a write brings a watch up to date. -/
theorem Fresh.evaluate (h : w.Fresh scheme t) (hw : Tree.Renewed n p t t') :
    (w.evaluate t').Fresh scheme t' := by
  unfold Watch.evaluate
  split
  · exact fresh_first h.key h.scheme
  · next hstale =>
    have hsame := h.result_eq hw hstale
    exact ⟨h.key, h.scheme, hsame ▸ h.lastSeen,
      fun found hfound => (h.pending found hfound).trans hsame⟩

end Watch

namespace Registry

variable {scheme : String} {t t' : Tree} {r r' : Registry} {n : Nat} {p : List String}

/-- Every watch is fresh. -/
def Fresh (scheme : String) (t : Tree) (r : Registry) : Prop :=
  ∀ id w, (id, w) ∈ r.watches → w.Fresh scheme t

theorem Fresh.of_subset (h : r.Fresh scheme t) (hr : r'.watches ⊆ r.watches) :
    r'.Fresh scheme t :=
  fun id w hw => h id w (hr hw)

/-- A consumer leaves every watch fresh: at most a mailbox was emptied. -/
theorem Fresh.handed {id : WatchId} {served : Mail × Registry} (h : r.Fresh scheme t)
    (hserved : r.Handed id served) : served.2.Fresh scheme t := by
  intro i v hv
  rcases hserved.mail with ⟨-, -, -, -, -, hwatches⟩ | ⟨-, hwatches⟩
  · rcases mem_emptied (hwatches ▸ hv) with ⟨-, hv⟩ | ⟨-, u, hu, rfl⟩
    · exact h i v hv
    · exact (h i u hu).emptied
  · exact h i v (hwatches ▸ hv)

/-- A registration leaves every watch fresh. -/
theorem Fresh.register {pattern : Address} {key : String} (h : r.Fresh scheme t)
    (hkey : Address.parse key = .ok pattern) (hscheme : pattern.scheme = scheme) :
    (r.register pattern key t).2.Fresh scheme t := by
  intro id w hw
  rcases List.mem_append.1 hw with hw | hw
  · exact h id w hw
  · obtain ⟨-, rfl⟩ := Prod.mk.inj (List.mem_singleton.1 hw)
    exact Watch.fresh_first hkey hscheme

/-- The evaluation after a write leaves every watch fresh. -/
theorem Fresh.evaluate (h : r.Fresh scheme t) (hw : Tree.Renewed n p t t') :
    (r.evaluate t').Fresh scheme t' := by
  intro id w hmem
  obtain ⟨⟨i, v⟩, hv, heq⟩ := List.mem_map.1 hmem
  obtain ⟨rfl, rfl⟩ := Prod.mk.inj heq
  exact (h i v hv).evaluate hw

end Registry

end Switchboard
