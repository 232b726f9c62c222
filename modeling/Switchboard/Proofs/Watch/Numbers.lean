import Switchboard.Proofs.Keyed
import Switchboard.Proofs.Watch.Consumers
/-!
# Numbers of watches

In a registry in order (`Registry.Numbered`) every registered watch has a number of its own, one
that was given out, and a receiver with a bell. A registration keeps this, and so does all that
adds no watch (`Registry.Kept`), which is everything else that can happen to a registry. Under its
number a watch is therefore found (`Registry.Numbered.find?_of_mem`).
-/

namespace Switchboard

theorem Watch.key_evaluate (w : Watch) (t : Tree) : (w.evaluate t).key = w.key := by
  unfold evaluate
  split <;> rfl

namespace Registry

variable {r r' r'' : Registry} {id : WatchId} {w v : Watch} {t : Tree}

/-! ## What adds no watch -/

/-- No number is given out, no watch is added, and those that are left keep their receivers. -/
structure Kept (r r' : Registry) : Prop where
  issued : r'.issued = r.issued
  requests : r'.requests.Sublist r.requests
  receivers : ∀ id ∈ r'.ids, id ∈ r.receivers → id ∈ r'.receivers

theorem map_fst_requests (r : Registry) : r.requests.map Prod.fst = r.ids := by
  rw [requests, List.map_map]
  rfl

namespace Kept

theorem refl (r : Registry) : Kept r r where
  issued := rfl
  requests := .refl _
  receivers := fun _ _ h => h

theorem ids (h : Kept r r') : r'.ids.Sublist r.ids := by
  rw [← map_fst_requests, ← map_fst_requests]
  exact h.requests.map _

theorem trans (h : Kept r r') (h' : Kept r' r'') : Kept r r'' where
  issued := h'.issued.trans h.issued
  requests := h'.requests.trans h.requests
  receivers := fun id hid hr => h'.receivers id hid (h.receivers id (h'.ids.subset hid) hr)

theorem of_eq (hissued : r'.issued = r.issued) (hrequests : r'.requests = r.requests)
    (hreceivers : r'.receivers = r.receivers) : Kept r r' where
  issued := hissued
  requests := hrequests ▸ .refl _
  receivers := fun _ _ h => hreceivers ▸ h

end Kept

theorem updateBell_kept (r : Registry) (id : WatchId) (f : Bell → Bell) :
    Kept r (r.updateBell id f) :=
  .of_eq rfl rfl (receivers_updateBell r id f)

theorem evaluate_kept (r : Registry) (t : Tree) : Kept r (r.evaluate t) := by
  refine .of_eq rfl ?_ (map_fst_map fun _ => rfl)
  rw [requests, evaluate, List.map_map]
  exact List.map_congr_left fun entry _ =>
    congrArg (Prod.mk entry.1) (entry.2.key_evaluate t)

theorem Handed.kept {served : Mail × Registry} (h : r.Handed id served) : Kept r served.2 :=
  .of_eq h.issued h.requests_eq h.receivers

theorem release_kept (r : Registry) (id : WatchId) : Kept r (r.release id) := by
  unfold release
  split
  · exact .refl r
  · have hbell := updateBell_kept r id .ring
    exact {
      issued := rfl
      requests := List.filter_sublist.map _
      receivers := fun i hi hr =>
        hbell.receivers i ((List.filter_sublist.map _).subset hi) hr }

/-- The watch of a receiver that is dropped is not registered any more. -/
theorem not_mem_ids_release (r : Registry) (id : WatchId) : id ∉ (r.release id).ids := by
  unfold release
  split
  · next hnone => exact Keyed.lookup_eq_none_iff.1 hnone
  · rintro hmem
    obtain ⟨entry, hentry, rfl⟩ := List.mem_map.1 hmem
    simpa using (List.mem_filter.1 hentry).2

theorem drop_kept (r : Registry) (id : WatchId) : Kept r (r.drop id) := by
  -- The bell that is gone belongs to the watch that has just ended.
  refine (release_kept r id).trans ⟨rfl, .refl _, fun i hi hr => ?_⟩
  have hne : i ≠ id := fun heq => not_mem_ids_release r id (heq ▸ hi)
  obtain ⟨entry, hentry, rfl⟩ := List.mem_map.1 hr
  exact List.mem_map_of_mem (List.mem_filter.2 ⟨hentry, by simpa using hne⟩)

/-- A registration adds one watch, under the next number. -/
theorem requests_register (r : Registry) (pattern : Address) (key : String) (t : Tree) :
    (r.register pattern key t).2.requests = r.requests ++ [(⟨r.issued + 1⟩, key)] :=
  List.map_append

/-! ## The invariant -/

/-- The registered watches have different numbers, which were given out, and receivers. -/
structure Numbered (r : Registry) : Prop where
  nodup : r.ids.Nodup
  issued : ∀ id ∈ r.ids, id.number ≤ r.issued
  receivers : ∀ id ∈ r.ids, id ∈ r.receivers

namespace Numbered

theorem new : Registry.new.Numbered where
  nodup := .nil
  issued := nofun
  receivers := nofun

theorem kept (h : r.Numbered) (hr : Kept r r') : r'.Numbered where
  nodup := h.nodup.sublist hr.ids
  issued := fun id hid => hr.issued ▸ h.issued id (hr.ids.subset hid)
  receivers := fun id hid => hr.receivers id hid (h.receivers id (hr.ids.subset hid))

theorem register {pattern : Address} {key : String} (h : r.Numbered) :
    (r.register pattern key t).2.Numbered := by
  have hids : (r.register pattern key t).2.ids = r.ids ++ [⟨r.issued + 1⟩] := by
    rw [← map_fst_requests, requests_register, List.map_append, map_fst_requests]
    rfl
  have hreceivers : (r.register pattern key t).2.receivers = r.receivers ++ [⟨r.issued + 1⟩] :=
    List.map_append
  refine ⟨?_, fun id hid => ?_, fun id hid => ?_⟩
  · rw [hids, List.nodup_append]
    refine ⟨h.nodup, List.pairwise_singleton _ _, fun id hid new hnew heq => ?_⟩
    cases List.mem_singleton.1 hnew
    have hle : id.number ≤ r.issued := h.issued id hid
    rw [heq] at hle
    exact absurd hle (Nat.not_succ_le_self _)
  · rw [hids] at hid
    rcases List.mem_append.1 hid with hid | hid
    · exact Nat.le_succ_of_le (h.issued id hid)
    · cases List.mem_singleton.1 hid
      exact Nat.le_refl _
  · rw [hids] at hid
    rw [hreceivers]
    rcases List.mem_append.1 hid with hid | hid
    · exact List.mem_append_left _ (h.receivers id hid)
    · exact List.mem_append_right _ hid

/-- Under its number a registered watch is found. -/
theorem find?_of_mem (h : r.Numbered) (hw : (id, w) ∈ r.watches) : r.find? id = some w := by
  obtain ⟨before, after, hwatches⟩ := List.append_of_mem hw
  refine List.lookup_eq_some_iff.2 ⟨before, after, hwatches, fun entry hentry => ?_⟩
  have hnodup := h.nodup
  rw [ids, hwatches, List.map_append, List.nodup_append] at hnodup
  have hne := hnodup.2.2 entry.1 (List.mem_map_of_mem hentry) id (by simp)
  simpa using hne.symm

/-- No two registered watches have the same number. -/
theorem eq_of_mem (h : r.Numbered) (hw : (id, w) ∈ r.watches) (hv : (id, v) ∈ r.watches) :
    w = v :=
  Option.some.inj ((h.find?_of_mem hw).symm.trans (h.find?_of_mem hv))

end Numbered

end Registry

end Switchboard
