import Mathlib
import Switchboard.Proofs.Store.Attention
/-!
# What becomes of registered watches

Every registered watch has somebody who has to end it. `Store.Trades` is a balance: from one state
to another, the owner of the watches `gave` has ended some of them and got others, so that it owns
`took`, and all that belongs to somebody else is as it was. A balance can be drawn up with more on
both sides (`Store.Trades.frame`), and balances that follow one another are one
(`Store.Trades.trans`), so that each piece of a program is looked at on its own.
-/

namespace Switchboard

namespace Store

/-- The watches that are registered. -/
def watched (s : Store) : Multiset WatchId :=
  (s.registry.ids : Multiset WatchId)

/-- From `s` to `s'`, the watches `gave` have become the watches `took`. -/
structure Trades (s s' : Store) (gave took : Multiset WatchId) : Prop where
  numbered : s'.registry.Numbered
  issued : s.registry.issued ≤ s'.registry.issued
  /-- A watch that has ended does not come back. -/
  back : ∀ id ∈ s'.watched, id.number ≤ s.registry.issued → id ∈ s.watched
  /-- All that belongs to others is as it was. -/
  balance : ∀ rest, s.watched = gave + rest → s'.watched = took + rest

variable {s s' s'' : Store} {gave took more : Multiset WatchId} {id : WatchId} {w : Write}

theorem nodup_watched (h : s.registry.Numbered) : s.watched.Nodup :=
  Multiset.coe_nodup.2 h.nodup

theorem issued_of_mem_watched (h : s.registry.Numbered) (hid : id ∈ s.watched) :
    id.number ≤ s.registry.issued :=
  h.issued id (Multiset.mem_coe.1 hid)

/-- What is registered is found. -/
theorem not_mem_watched_iff : id ∉ s.watched ↔ s.registry.find? id = none := by
  rw [watched, Multiset.mem_coe, Registry.find?, Keyed.lookup_eq_none_iff, Registry.ids]

namespace Trades

/-- What registers and ends no watch is a balance of nothing. -/
theorem same (hn : s'.registry.Numbered) (hissued : s'.registry.issued = s.registry.issued)
    (hids : s'.registry.ids = s.registry.ids) : Trades s s' 0 0 where
  numbered := hn
  issued := Nat.le_of_eq hissued.symm
  back := fun id hid _ => by rwa [watched, hids] at hid
  balance := fun rest h => by rw [← h, watched, watched, hids]

theorem refl (hn : s.registry.Numbered) : Trades s s 0 0 :=
  .same hn rfl rfl

/-- The same balance for somebody who owns more. -/
theorem frame (h : Trades s s' gave took) (more : Multiset WatchId) :
    Trades s s' (gave + more) (took + more) where
  numbered := h.numbered
  issued := h.issued
  back := h.back
  balance := fun rest hrest => by
    rw [add_assoc] at hrest ⊢
    exact h.balance (more + rest) hrest

theorem trans (h : Trades s s' gave more) (h' : Trades s' s'' more took) :
    Trades s s'' gave took where
  numbered := h'.numbered
  issued := h.issued.trans h'.issued
  back := fun id hid hle => h.back id (h'.back id hid (hle.trans h.issued)) hle
  balance := fun rest hrest => h'.balance rest (h.balance rest hrest)

/-- First nothing changes hands. -/
theorem of_same (h : Trades s s' 0 0) (h' : Trades s' s'' gave took) : Trades s s'' gave took := by
  have hframe := h.frame gave
  rw [zero_add] at hframe
  exact hframe.trans h'

/-- At last nothing changes hands. -/
theorem then_same (h : Trades s s' gave took) (h' : Trades s' s'' 0 0) :
    Trades s s'' gave took := by
  have hframe := h'.frame took
  rw [zero_add] at hframe
  exact h.trans hframe

/-- Watches that were ended are registered no longer. -/
theorem ended {rest : Multiset WatchId} (h : Trades s s' gave 0) (hn : s.registry.Numbered)
    (hrest : s.watched = gave + rest) (hid : id ∈ gave) : id ∉ s'.watched := by
  have hnodup := nodup_watched hn
  rw [hrest] at hnodup
  rw [h.balance rest hrest, zero_add]
  exact Multiset.disjoint_left.1 (Multiset.nodup_add.1 hnodup).2.2 hid

/-- Watches that were got are registered. -/
theorem mem_took (h : Trades s s' 0 took) (hid : id ∈ took) : id ∈ s'.watched := by
  rw [h.balance s.watched (zero_add _).symm]
  exact Multiset.mem_add.2 (.inl hid)

/-- What one owner gets is added to what another one has got already. -/
theorem add (h : Trades s s' 0 took) (h' : Trades s' s'' 0 more) :
    Trades s s'' 0 (took + more) := by
  have hframe := h'.frame took
  rw [zero_add, add_comm] at hframe
  exact h.trans hframe

/-- First something is got, then something else is ended. -/
theorem swap (h : Trades s s' 0 took) (h' : Trades s' s'' gave 0) : Trades s s'' gave took := by
  have hgot := h.frame gave
  have hended := h'.frame took
  rw [zero_add] at hgot hended
  rw [add_comm] at hended
  exact hgot.trans hended

end Trades

/-! ## Calls -/

theorem handed_trades {served : Mail × Registry} (h : s.registry.Numbered)
    (hserved : s.registry.Handed id served) : Trades s { s with registry := served.2 } 0 0 := by
  refine .same (h.kept hserved.kept) hserved.issued ?_
  show served.2.ids = s.registry.ids
  rw [← Registry.map_fst_requests, ← Registry.map_fst_requests]
  exact congrArg (List.map Prod.fst) hserved.requests_eq

theorem take_trades (h : s.registry.Numbered) (id : WatchId) : Trades s (s.take id).2 0 0 :=
  handed_trades h (Registry.take_handed s.registry id)

theorem poll_trades (h : s.registry.Numbered) (id : WatchId) : Trades s (s.poll id).2 0 0 :=
  handed_trades h (Registry.poll_handed s.registry id)

theorem cancel_trades (h : s.registry.Numbered) (id : WatchId) : Trades s (s.cancel id) 0 0 :=
  .same (h.kept (Registry.updateBell_kept s.registry id .cancel)) rfl rfl

theorem write_trades (h : s.registry.Numbered) (w : Write) : Trades s (s.write w).2 0 0 := by
  rcases s.registry_write w with hregistry | hregistry
  · refine .same ?_ ?_ ?_ <;> rw [hregistry]
    exact h
  · refine .same ?_ ?_ ?_ <;> rw [hregistry]
    · exact h.kept (Registry.evaluate_kept s.registry _)
    · rfl
    · exact Registry.map_fst_map fun _ => rfl

/-- A watch that is registered belongs to whoever has registered it. -/
theorem watch_trades (h : s.registry.Numbered) {text : String}
    (hwatch : s.watch text = .ok (id, s')) : Trades s s' 0 {id} := by
  obtain ⟨pattern, -, rfl, rfl⟩ := watch_eq_ok hwatch
  have hids : (s.registry.register pattern text s.tree).2.ids =
      s.registry.ids ++ [⟨s.registry.issued + 1⟩] := List.map_append
  have hwatched : watched { s with registry := (s.registry.register pattern text s.tree).2 } =
      s.watched + {⟨s.registry.issued + 1⟩} := by
    rw [watched, hids, ← Multiset.coe_add]
    rfl
  refine ⟨h.register, Nat.le_succ _, fun i hi hle => ?_, fun rest hrest => ?_⟩
  · rw [hwatched, Multiset.mem_add, Multiset.mem_singleton] at hi
    rcases hi with hi | rfl
    · exact hi
    · exact absurd hle (Nat.not_succ_le_self _)
  · rw [hwatched, hrest, zero_add, add_comm]

/-- Without a watch that has ended, all others are registered. -/
theorem watched_release (s : Store) (id : WatchId) :
    (s.release id).watched = s.watched.filter (· ≠ id) := by
  have hids : (s.registry.release id).ids = s.registry.ids.filter (· ≠ id) := by
    unfold Registry.release
    split
    · next hnone =>
      have hid : id ∉ s.registry.ids := fun hmem => not_mem_watched_iff.2 hnone hmem
      refine (List.filter_eq_self.2 fun i hi => ?_).symm
      simpa using fun heq : i = id => hid (heq ▸ hi)
    · rw [Registry.ids, Registry.ids, List.filter_map]
      rfl
  rw [watched, watched, show (s.release id).registry.ids = _ from hids, Multiset.filter_coe]

/-- A watch that is ended belongs to nobody. -/
theorem release_trades (h : s.registry.Numbered)
    (hgave : gave = {id} ∨ gave = 0 ∧ id ∉ s.watched) : Trades s (s.release id) gave 0 := by
  have hnumbered : (s.release id).registry.Numbered := h.kept (Registry.release_kept s.registry id)
  have hissued : (s.release id).registry.issued = s.registry.issued :=
    (Registry.release_kept s.registry id).issued
  refine ⟨hnumbered, Nat.le_of_eq hissued.symm, fun i hi _ => ?_, fun rest hrest => ?_⟩
  · rw [watched_release] at hi
    exact Multiset.mem_of_mem_filter hi
  · rw [watched_release, zero_add]
    rcases hgave with rfl | ⟨rfl, hid⟩
    · have hnodup := nodup_watched h
      rw [hrest, Multiset.singleton_add, Multiset.nodup_cons] at hnodup
      rw [hrest, Multiset.singleton_add, Multiset.filter_cons_of_neg _ (by simp),
        Multiset.filter_eq_self]
      rintro i hi rfl
      exact hnodup.1 hi
    · rw [zero_add] at hrest
      rw [← hrest, Multiset.filter_eq_self]
      rintro i hi rfl
      exact hid hi

/-- The watch of a receiver that is dropped belongs to nobody. -/
theorem drop_trades (h : s.registry.Numbered)
    (hgave : gave = {id} ∨ gave = 0 ∧ id ∉ s.watched) : Trades s (s.drop id) gave 0 :=
  (release_trades h hgave).then_same
    (.same (h.kept (Registry.drop_kept s.registry id)) rfl rfl)

theorem dropAll_trades (h : s.registry.Numbered) (ids : List WatchId) :
    Trades s (s.dropAll ids) ids 0 := by
  induction ids generalizing s with
  | nil => exact .refl h
  | cons id ids ih =>
    have hdrop : Trades s (s.drop id) {id} 0 := drop_trades h (.inl rfl)
    have hfirst := hdrop.frame ids
    rw [zero_add, Multiset.singleton_add, Multiset.cons_coe] at hfirst
    exact hfirst.trans (ih hdrop.numbered)

end Store

end Switchboard
