import Switchboard.Proofs.Store.Attention
import Switchboard.Proofs.Watch.Receiving
/-!
# Who keeps to which watches

Whoever waits for something has watches of its own. As long as it does not write, all it does is
done to these: the tree stays as it is, and so does every other watch with its mailbox and its bell
(`Store.KeepsTo`). A watch whose receiver was dropped has left nothing behind, so that whoever has
registered a watch and dropped it has changed nothing (`Store.KeepsTo.of_dropped`).
-/

namespace Switchboard

namespace Registry

variable {r : Registry} {id : WatchId}

/-- A watch whose receiver was dropped is not found any more, and neither is its bell. -/
theorem find?_drop_self (r : Registry) (id : WatchId) : (r.drop id).find? id = none :=
  Keyed.lookup_eq_none_iff.2 (not_mem_ids_release r id)

theorem bell_drop_self (r : Registry) (id : WatchId) : (r.drop id).bell id = .silent := by
  refine bell_of_not_mem fun hmem => ?_
  obtain ⟨entry, hentry, rfl⟩ := List.mem_map.1 hmem
  simpa using (List.mem_filter.1 hentry).2

end Registry

namespace Store

variable {own own' : WatchId → Prop} {s s' s'' : Store} {id : WatchId}

/-- From `s` to `s'` nothing has happened to the tree, nor to any watch but the own ones. -/
structure KeepsTo (own : WatchId → Prop) (s s' : Store) : Prop where
  scheme : s'.scheme = s.scheme
  tree : s'.tree = s.tree
  others : ∀ id, ¬ own id → s.registry.Spares s'.registry id

namespace KeepsTo

theorem refl (own : WatchId → Prop) (s : Store) : KeepsTo own s s :=
  ⟨rfl, rfl, fun id _ => .refl s.registry id⟩

theorem trans (h : KeepsTo own s s') (h' : KeepsTo own s' s'') : KeepsTo own s s'' :=
  ⟨h'.scheme.trans h.scheme, h'.tree.trans h.tree,
    fun id hid => (h.others id hid).trans (h'.others id hid)⟩

theorem mono (h : KeepsTo own s s') (hown : ∀ id, own id → own' id) : KeepsTo own' s s' :=
  ⟨h.scheme, h.tree, fun id hid => h.others id fun hmine => hid (hown id hmine)⟩

end KeepsTo

theorem take_keepsTo (s : Store) (id : WatchId) : KeepsTo (· = id) s (s.take id).2 :=
  ⟨rfl, rfl, fun _ hi => Registry.take_spares s.registry hi⟩

theorem poll_keepsTo (s : Store) (id : WatchId) : KeepsTo (· = id) s (s.poll id).2 :=
  ⟨rfl, rfl, fun _ hi => Registry.poll_spares s.registry hi⟩

theorem release_keepsTo (s : Store) (id : WatchId) : KeepsTo (· = id) s (s.release id) :=
  ⟨rfl, rfl, fun _ hi => Registry.release_spares s.registry hi⟩

theorem drop_keepsTo (s : Store) (id : WatchId) : KeepsTo (· = id) s (s.drop id) :=
  ⟨rfl, rfl, fun _ hi => Registry.drop_spares s.registry hi⟩

/-- To drop receivers matters to their watches only. -/
theorem dropAll_keepsTo (s : Store) (ids : List WatchId) : KeepsTo (· ∈ ids) s (s.dropAll ids) := by
  induction ids generalizing s with
  | nil => exact .refl _ s
  | cons id ids ih =>
    have hfirst : KeepsTo (· ∈ id :: ids) s (s.drop id) :=
      (drop_keepsTo s id).mono fun _ hi => hi ▸ List.mem_cons_self
    exact hfirst.trans ((ih (s.drop id)).mono fun _ hi => List.mem_cons_of_mem id hi)

/-- A watch that is registered is one of its own. -/
theorem watch_keepsTo {text : String} (h : s.watch text = .ok (id, s')) :
    KeepsTo (· = id) s s' := by
  obtain ⟨pattern, -, rfl, rfl⟩ := watch_eq_ok h
  exact ⟨rfl, rfl, fun i hi => Registry.register_spares hi pattern text s.tree⟩

end Store

end Switchboard
