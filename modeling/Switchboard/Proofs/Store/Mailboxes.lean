import Mathlib
import Switchboard.Proofs.Store.Sound
/-!
# Mailboxes of a store

In every state of a run the mailbox of a watch either holds what its query finds in that state, or
it is empty, and then this is what its consumer was handed last (`Store.mailbox_holds_result`). A
consumer that asks until there is nothing left has therefore seen the present result, whatever it
has missed on the way.

What the consumer was handed is read off the answers of the run (`Store.handed`). The invariant is
`Registry.CaughtUp`: a mailbox is emptied only by handing out what is in it, and a write after
which nothing is delivered has not changed what was handed out.
-/

namespace Switchboard

/-! ## Empty mailboxes -/

namespace Registry

variable {r r' : Registry} {t t' : Tree} {last : WatchId → Option Matches} {scheme : String}

/-- The result of a watch whose mailbox is empty is what its consumer was handed last. -/
def CaughtUp (t : Tree) (last : WatchId → Option Matches) (r : Registry) : Prop :=
  ∀ id w, (id, w) ∈ r.watches → w.pending = none → last id = some (w.result t)

namespace CaughtUp

theorem of_subset (h : r.CaughtUp t last) (hr : r'.watches ⊆ r.watches) : r'.CaughtUp t last :=
  fun id w hw => h id w (hr hw)

theorem register {pattern : Address} {key : String} (h : r.CaughtUp t last) :
    (r.register pattern key t).2.CaughtUp t last := by
  intro id w hw hpending
  rcases List.mem_append.1 hw with hw | hw
  · exact h id w hw hpending
  · obtain ⟨-, rfl⟩ := Prod.mk.inj (List.mem_singleton.1 hw)
    cases hpending

/-- A consumer that finds its mailbox filled is handed the present result. -/
theorem handed {id : WatchId} {served : Mail × Registry} (h : r.CaughtUp t last)
    (hnumbered : r.Numbered) (hfresh : r.Fresh scheme t) (hserved : r.Handed id served) :
    served.2.CaughtUp t fun i => (if id = i then served.1.result? else none).or (last i) := by
  intro i v hv hpending
  show (if id = i then served.1.result? else none).or (last i) = _
  rcases hserved.mail with ⟨w, found, hw, hfound, hmail, hwatches⟩ | ⟨hmail, hwatches⟩
  · rcases mem_emptied (hwatches ▸ hv) with ⟨hid, hv⟩ | ⟨rfl, u, hu, rfl⟩
    · rw [if_neg hid.symm]
      exact h i v hv hpending
    · -- No other watch has this number, so it is the one whose mailbox was not empty.
      have hmem := mem_of_find? hw
      cases hnumbered.eq_of_mem hmem hu
      rw [if_pos rfl, hmail, (hfresh i w hmem).pending found hfound]
      rfl
  · rw [hmail, ite_self]
    exact h i v (hwatches ▸ hv) hpending

/-- After a write, a mailbox that is still empty belongs to a watch whose result is the same. -/
theorem evaluate {n : Nat} {p : List String} (h : r.CaughtUp t last) (hfresh : r.Fresh scheme t)
    (hw : Tree.Renewed n p t t') : (r.evaluate t').CaughtUp t' last := by
  intro id w hmem hpending
  obtain ⟨⟨i, v⟩, hv, heq⟩ := List.mem_map.1 hmem
  obtain ⟨rfl, rfl⟩ := Prod.mk.inj heq
  unfold Watch.evaluate at hpending ⊢
  split at hpending
  · cases hpending
  · next hstale =>
    rw [if_neg hstale, ← (hfresh i v hv).result_eq hw hstale]
    exact h i v hv hpending

end CaughtUp

end Registry

/-! ## Runs -/

/-- The result that the consumer of the watch `id` was handed in the answer to a call. -/
def handed? (id : WatchId) : Call × Answer → Option Matches
  | (.take i, .mail mail) | (.poll i, .mail mail) => if i = id then mail.result? else none
  | _ => none

namespace Store

variable {s s' : Store} {history : List (List String)} {last : WatchId → Option Matches}

/-- The results that the consumer of the watch `id` was handed in a run, in their order. -/
def handed (s : Store) (id : WatchId) (calls : List Call) : List Matches :=
  (s.log calls).filterMap (handed? id)

/-- The last result in a run is the last one after its first call, or that of the call. -/
theorem getLast?_handed_cons (s : Store) (id : WatchId) (c : Call) (calls : List Call) :
    (s.handed id (c :: calls)).getLast? =
      ((s.call c).2.handed id calls).getLast?.or (handed? id (c, (s.call c).1)) := by
  rw [handed, log, List.filterMap_cons]
  cases handed? id (c, (s.call c).1) with
  | none => rw [Option.or_none, handed]
  | some found =>
    rw [List.getLast?_cons, handed]
    cases ((s.call c).2.log calls |>.filterMap (handed? id)).getLast? <;> rfl

/-- After a step, what the consumer of an empty mailbox was handed last is the present result. -/
theorem Sound.caughtUp_step {c : Call} {answer : Answer} (h : s.Sound history)
    (hnumbered : s.registry.Numbered) (hlast : s.registry.CaughtUp s.tree last)
    (hstep : s.Step c answer s') :
    s'.registry.CaughtUp s'.tree fun id => (handed? id (c, answer)).or (last id) := by
  cases hstep with
  | written hwrote =>
    have hcaught := hlast.evaluate h.fresh (h.renewed hwrote)
    rw [hwrote.state]
    exact hcaught
  | watching => exact hlast.register
  | asked hc hserved => rcases hc with rfl | rfl <;> exact hlast.handed hnumbered h.fresh hserved
  | quiet _ hmail hwatches _ =>
    have hnothing : ∀ id, handed? id (c, answer) = none := by
      intro id
      cases answer with
      | mail mail => exact absurd rfl (hmail mail)
      | refused | entry | found | written | watching | done => cases c <;> rfl
    simp only [hnothing, Option.none_or]
    exact hlast.of_subset hwatches

/-- After a run, what the consumer of an empty mailbox was handed last is the present result. -/
theorem Sound.caughtUp_after (h : s.Sound history) (hnumbered : s.registry.Numbered)
    (hlast : s.registry.CaughtUp s.tree last) (calls : List Call) :
    (s.after calls).registry.CaughtUp (s.after calls).tree
      fun id => (s.handed id calls).getLast?.or (last id) := by
  induction calls generalizing s history last with
  | nil => exact hlast
  | cons c calls ih =>
    have hcaught := ih (h.call c) (numbered_call hnumbered c)
      (h.caughtUp_step hnumbered hlast (call_step s c))
    -- What the first call handed out is what was handed out last before the rest of the run.
    simp only [getLast?_handed_cons, Option.or_assoc]
    exact hcaught

/-- **A mailbox never holds an old result, and no result is lost.** In every state of a run, every
registered watch was asked for in the run, and what its pattern finds now is what the watch has
seen last. Its mailbox is empty or holds just that, values and all; and if it is empty, its
consumer was handed just that when it was handed something last. -/
theorem mailbox_holds_result (scheme : String) (calls : List Call) (id : WatchId) (w : Watch) :
    let s := (new scheme).after calls
    (id, w) ∈ s.registry.watches →
    (.watch w.key, .watching id) ∈ (new scheme).log calls ∧
    ∃ found, s.expand w.key = .ok found ∧ w.lastSeen = found.revisions ∧
      (w.pending = none ∨ w.pending = some found) ∧
      (w.pending = none → ((new scheme).handed id calls).getLast? = some found) := by
  intro s hw
  have hsound := (Sound.new scheme).after calls
  have hfresh := hsound.fresh id w hw
  have hnone : (new scheme).registry.CaughtUp (new scheme).tree fun _ => none := nofun
  have hcaught := (Sound.new scheme).caughtUp_after Registry.Numbered.new hnone calls id w hw
  refine ⟨?_, w.result s.tree, ?_, hfresh.lastSeen, ?_, fun hpending => ?_⟩
  · have hrequest : (id, w.key) ∈ s.registry.requests := List.mem_map_of_mem hw
    exact (requested_after calls hrequest).resolve_left nofun
  · have hparse : s.parse w.key = .ok w.pattern := by
      rw [parse, hfresh.key]
      exact if_pos hfresh.scheme
    rw [expand, hparse]
    rfl
  · cases hpending : w.pending with
    | none => exact .inl rfl
    | some found => exact .inr (congrArg some (hfresh.pending found hpending))
  · simpa only [Option.or_none] using hcaught hpending

/-- A consumer waits for a lamp and is handed it; a door that is written afterwards does not fill
its mailbox again, and what it was handed is still what is there. -/
theorem lamp_handed_stays_present :
    let calls := [.watch "status://lamp", .take ⟨1⟩,
      .write (.set "status://lamp" (.bool true) .unchecked), .take ⟨1⟩,
      .write (.set "status://door" (.bool true) .unchecked)]
    ∃ found, ((new "status").after calls).expand "status://lamp" = .ok found ∧
      found.revisions = [("status://lamp", 1)] ∧
      ((new "status").handed ⟨1⟩ calls).getLast? = some found := by
  have hfind : ((new "status").after [.watch "status://lamp", .take ⟨1⟩,
      .write (.set "status://lamp" (.bool true) .unchecked), .take ⟨1⟩,
      .write (.set "status://door" (.bool true) .unchecked)]).registry.find? ⟨1⟩ =
    some ⟨⟨"status", ["lamp"]⟩, "status://lamp", [("status://lamp", 1)], none⟩ := by cbv
  obtain ⟨-, found, hfound, hseen, -, hhanded⟩ :=
    mailbox_holds_result "status" _ ⟨1⟩ _ (Registry.mem_of_find? hfind)
  exact ⟨found, hfound, hseen.symm, hhanded rfl⟩

end Store

end Switchboard
