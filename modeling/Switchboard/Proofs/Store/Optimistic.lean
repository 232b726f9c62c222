import Mathlib
import Switchboard.Proofs.Store.Sound
/-!
# Optimistic writes

A client reads an entry, works on it, and writes the node back on the condition that it still has
the revision that was seen. If that write succeeds, nobody has written in between what the client
has seen: no write had a target above the node, at it or below it, and the node still reads as it
did (`Store.no_lost_update`). It does not matter how the entry was read, and a node that was removed
and made again meanwhile has a newer revision.

What a client has seen is in the answer to one call (`observed`): the entry that was read, or an
entry of a query's result, be it evaluated or found in a mailbox.
-/

namespace Switchboard

/-- The entries that a consumer is handed. -/
def Mail.entries : Mail → Matches
  | .ready found => found
  | .empty | .released => []

/-- The entries that the answer to a call shows, with the spellings of their addresses. -/
def observed : Call → Answer → Matches
  | .get url, .entry entry => [(url, entry)]
  | _, .found found => found
  | _, .mail mail => mail.entries
  | _, _ => []

namespace Store

variable {s s' : Store} {history : List (List String)} {c : Call} {key : String} {seen : Entry}
  {w : Write} {n : Nat} {revision : UInt64}

/-! ## Observations -/

/-- What a consumer is handed can be read from the store. -/
theorem get_of_mem_entries {id : WatchId} {served : Mail × Registry} (h : s.Sound history)
    (hserved : s.registry.Handed id served) (hseen : (key, seen) ∈ served.1.entries) :
    s.get key = .ok seen := by
  cases hmail : served.1 with
  | empty | released =>
    rw [hmail] at hseen
    cases hseen
  | ready found =>
    rw [hmail] at hseen
    obtain ⟨watch, hw, hpending⟩ := hserved.ready hmail
    have hfresh := h.fresh id watch hw
    cases hfresh.pending found hpending
    exact get_of_mem_expand h hfresh.key hfresh.scheme hseen

/-- A call that shows an entry leaves the tree alone, and the entry can be read from it. -/
theorem get_of_mem_observed (h : s.Sound history) (hseen : (key, seen) ∈ observed c (s.call c).1) :
    (s.call c).2.tree = s.tree ∧ s.get key = .ok seen := by
  cases c with
  | get url =>
    simp only [call] at hseen ⊢
    cases hget : s.get url with
    | ok entry =>
      rw [hget] at hseen
      obtain ⟨rfl, rfl⟩ := Prod.mk.inj (List.mem_singleton.1 hseen)
      exact ⟨rfl, hget⟩
    | error e => rw [hget] at hseen; cases hseen
  | expand pattern =>
    simp only [call, expand] at hseen ⊢
    cases ha : s.parse pattern with
    | ok a =>
      rw [ha] at hseen
      obtain ⟨hparse, hscheme⟩ := parse_eq_ok ha
      exact ⟨rfl, get_of_mem_expand h hparse hscheme hseen⟩
    | error e => rw [ha] at hseen; cases hseen
  | take id => exact ⟨rfl, get_of_mem_entries h (Registry.take_handed s.registry id) hseen⟩
  | poll id => exact ⟨rfl, get_of_mem_entries h (Registry.poll_handed s.registry id) hseen⟩
  | write w =>
    simp only [call] at hseen
    split at hseen <;> cases hseen
  | watch pattern =>
    simp only [call] at hseen
    split at hseen <;> cases hseen
  | cancel | release | drop => cases hseen

/-! ## Writing back -/

/-- A write that expects a revision succeeds only where the target has it; a missing target has
revision zero. -/
theorem exact_eq_of_write_eq_ok (h : s.write w = (.ok n, s'))
    (hexact : w.expected = .exact revision) :
    ∃ a, s.parseConcrete w.url = .ok a ∧
      revision.toNat = ((s.tree.root.get? a.segments).map Node.revision).getD 0 := by
  obtain ⟨a, hwrote⟩ := write_wrote h
  refine ⟨a, hwrote.address, ?_⟩
  have hcheck := hwrote.check
  rw [hexact] at hcheck
  simp only [Precondition.check] at hcheck
  split at hcheck
  · assumption
  · cases hcheck

/-- **No update is lost.** In any run of any number of clients: if the answer to the call `look`
shows an entry, and later a write to the same address on the condition of the entry's revision
succeeds, then no write that succeeded in between had a target above the node, at it or below it,
and at the moment of the write the node still reads as the entry that was seen. -/
theorem no_lost_update (scheme : String) (before : List Call) (look : Call) (between : List Call)
    (w : Write) (key : String) (seen : Entry) (revision : UInt64) (n : Nat) (s' : Store) :
    let s := (new scheme).after before
    let s₁ := (s.call look).2
    let s₂ := s₁.after between
    (key, seen) ∈ observed look (s.call look).1 →
    Address.parse w.url = Address.parse key →
    w.expected = .exact revision → revision.toNat = seen.revision →
    s₂.write w = (.ok n, s') →
    ∃ a, Address.parse key = .ok a ∧ (∀ p ∈ s₁.history between, ¬ Related p a.segments) ∧
      s₂.get w.url = .ok seen := by
  intro s s₁ s₂ hseen hurl hexact hrevision hwrite
  have hsound := (Sound.new scheme).after before
  obtain ⟨htree, hget⟩ := get_of_mem_observed hsound hseen
  obtain ⟨a, ha, hcheck⟩ := exact_eq_of_write_eq_ok hwrite hexact
  -- The address that is written is the one under which the entry was seen.
  obtain ⟨b, hb, hread⟩ := get_eq_ok_iff.1 hget
  have hab : b = a := by
    rw [parseConcrete_eq_ok_iff] at ha hb
    rw [hurl, hb.1] at ha
    exact Except.ok.inj ha.1
  subst hab
  obtain ⟨part, hpart, rfl⟩ := Tree.get_eq_ok_iff.1 hread
  rw [← htree] at hpart
  obtain ⟨hhistory, hsame⟩ := untouched_of_revision_eq (hsound.call look) between hpart
    (hrevision.symm.trans hcheck)
  exact ⟨b, (parseConcrete_eq_ok_iff.1 hb).1, hhistory,
    get_eq_ok_iff.2 ⟨b, ha, Tree.get_eq_ok_iff.2 ⟨part, hsame, rfl⟩⟩⟩

/-- A lamp that is seen in a mailbox and, after the receiver was dropped and another node written,
is written back under the longer spelling of its address. -/
theorem taken_entry_written_back :
    let before : List Call := [.write (.set "status://lamp/hall" (.bool true) .unchecked),
      .watch "status://lamp/*"]
    let between : List Call := [.drop ⟨1⟩, .write (.set "status://door" (.bool true) .unchecked)]
    let s := (((new "status").after before).call (.take ⟨1⟩)).2
    ∃ a, Address.parse "status://lamp/hall" = .ok a ∧
      (∀ p ∈ s.history between, ¬ Related p a.segments) ∧
      (s.after between).get "status://lamp/hall/" = .ok ⟨1, .bool true⟩ := by
  have hobserved : observed (.take ⟨1⟩) (((new "status").after
      [.write (.set "status://lamp/hall" (.bool true) .unchecked), .watch "status://lamp/*"]).call
        (.take ⟨1⟩)).1 = [("status://lamp/hall", ⟨1, .bool true⟩)] := by cbv
  have hurl : Address.parse "status://lamp/hall/" = Address.parse "status://lamp/hall" := by cbv
  have hwritten : (((((new "status").after
      [.write (.set "status://lamp/hall" (.bool true) .unchecked), .watch "status://lamp/*"]).call
        (.take ⟨1⟩)).2.after
      [.drop ⟨1⟩, .write (.set "status://door" (.bool true) .unchecked)]).write
    (.set "status://lamp/hall/" (.bool false) (.exact 1))).1 = .ok 3 := by cbv
  exact no_lost_update "status" _ _ _ (.set "status://lamp/hall/" (.bool false) (.exact 1))
    "status://lamp/hall" _ 1 3 _ (hobserved ▸ List.mem_singleton_self _) hurl rfl rfl
    (eq_mk_of_fst_eq hwritten)

end Store

end Switchboard
