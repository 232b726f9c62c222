import Switchboard.Watch.Registry
/-!
# Consumers of watches

A consumer that asks for a result, be it that it looks into its mailbox once (`Registry.take`) or
that it waits at its bell if there is nothing (`Registry.poll`), is handed what is in the mailbox,
which is emptied, or it is handed nothing and no watch changes. `Registry.Handed` says so, and that
numbers and receivers stay as they are.
-/

namespace Switchboard

/-- The result that is in the mail, if there is one. -/
def Mail.result? : Mail → Option Matches
  | .ready found => some found
  | .empty | .released => none

namespace Registry

variable {r r' : Registry} {id i : WatchId} {served : Mail × Registry}

/-- The numbers of the registered watches, each with the text that was asked to be watched. -/
def requests (r : Registry) : List (WatchId × String) := r.watches.map fun (i, w) => (i, w.key)

/-- The numbers of the registered watches. -/
def ids (r : Registry) : List WatchId := r.watches.map Prod.fst

/-- The numbers of the receivers that are held. -/
def receivers (r : Registry) : List WatchId := r.bells.map Prod.fst

/-- The watches, with the mailbox of one of them emptied. -/
def emptied (r : Registry) (id : WatchId) : List (WatchId × Watch) :=
  r.watches.map fun (i, w) => (i, if i = id then { w with pending := none } else w)

/-- A watch has another number than the one whose mailbox was emptied, or is that one. -/
theorem mem_emptied {v : Watch} (h : (i, v) ∈ r.emptied id) :
    (i ≠ id ∧ (i, v) ∈ r.watches) ∨
      (i = id ∧ ∃ u, (i, u) ∈ r.watches ∧ v = { u with pending := none }) := by
  obtain ⟨⟨j, u⟩, hu, heq⟩ := List.mem_map.1 h
  obtain ⟨rfl, rfl⟩ := Prod.mk.inj heq
  by_cases hid : j = id
  · rw [if_pos hid]
    exact .inr ⟨hid, u, hu, rfl⟩
  · rw [if_neg hid]
    exact .inl ⟨hid, hu⟩

/-- The end of a watch leaves some of the others and adds none. -/
theorem release_subset (r : Registry) (id : WatchId) : (r.release id).watches ⊆ r.watches := by
  unfold release
  split
  · exact List.Subset.refl _
  · exact List.filter_sublist.subset

/-- What happens to watches or bells, each under its number, leaves the numbers. -/
theorem map_fst_map {α : Type} {entries : List (WatchId × α)} {f : WatchId × α → WatchId × α}
    (hf : ∀ entry, (f entry).1 = entry.1) :
    (entries.map f).map Prod.fst = entries.map Prod.fst := by
  rw [List.map_map]
  exact List.map_congr_left fun entry _ => hf entry

theorem receivers_updateBell (r : Registry) (id : WatchId) (f : Bell → Bell) :
    (r.updateBell id f).receivers = r.receivers :=
  map_fst_map fun _ => rfl

/-- The answer that the consumer of the watch `id` gets and the registry that is left. -/
structure Handed (r : Registry) (id : WatchId) (served : Mail × Registry) : Prop where
  issued : served.2.issued = r.issued
  receivers : served.2.receivers = r.receivers
  /-- The consumer is handed what was in its mailbox, or nothing. -/
  mail : (∃ w found, r.find? id = some w ∧ w.pending = some found ∧
      served.1 = .ready found ∧ served.2.watches = r.emptied id) ∨
    (served.1.result? = none ∧ served.2.watches = r.watches)

namespace Handed

theorem nothing (hmail : served.1.result? = none) (hserved : served.2 = r) :
    r.Handed id served where
  issued := congrArg Registry.issued hserved
  receivers := congrArg Registry.receivers hserved
  mail := .inr ⟨hmail, congrArg Registry.watches hserved⟩

/-- A consumer that asks after something has changed that is not about watches. -/
theorem of_same (h : r'.Handed id served) (hissued : r'.issued = r.issued)
    (hreceivers : r'.receivers = r.receivers) (hwatches : r'.watches = r.watches) :
    r.Handed id served where
  issued := h.issued.trans hissued
  receivers := h.receivers.trans hreceivers
  mail := by
    have hmail := h.mail
    rw [find?, emptied, hwatches] at hmail
    exact hmail

theorem of_updateBell {f : Bell → Bell} (h : (r.updateBell i f).Handed id served) :
    r.Handed id served :=
  h.of_same rfl (receivers_updateBell r i f) rfl

theorem requests_eq (h : r.Handed id served) : served.2.requests = r.requests := by
  rcases h.mail with ⟨w, found, -, -, -, hwatches⟩ | ⟨-, hwatches⟩
  · rw [requests, hwatches, emptied, List.map_map]
    refine List.map_congr_left fun entry _ => congrArg (Prod.mk entry.1) ?_
    show (if entry.1 = id then { entry.2 with pending := none } else entry.2).key = entry.2.key
    split <;> rfl
  · rw [requests, hwatches, requests]

end Handed

theorem take_handed (r : Registry) (id : WatchId) : r.Handed id (r.take id) := by
  unfold take
  split
  · exact .nothing rfl rfl
  · next w hw =>
    split
    · exact .nothing rfl rfl
    · next found hfound => exact ⟨rfl, rfl, .inl ⟨w, found, hw, hfound, rfl, rfl⟩⟩

theorem look_handed (r : Registry) (id : WatchId) (looks : Nat) :
    r.Handed id (r.look id looks) := by
  induction looks generalizing r with
  | zero => exact .nothing rfl rfl
  | succ looks ih =>
    have htake := take_handed r id
    rw [look]
    cases h : r.take id with
    | mk mail r₁ =>
      rw [h] at htake
      cases mail with
      | ready | released => exact htake
      | empty =>
        -- The mailbox was empty, so that only the bell changes before the next look.
        obtain ⟨_, _, -, -, hready, -⟩ | ⟨-, hwatches⟩ := htake.mail
        · cases hready
        · refine Handed.of_same ?_ htake.issued htake.receivers hwatches
          dsimp only
          split
          · exact (ih _).of_updateBell
          · exact ⟨rfl, receivers_updateBell _ _ _, .inr ⟨rfl, rfl⟩⟩

/-- A consumer asks for the next result. -/
theorem poll_handed (r : Registry) (id : WatchId) : r.Handed id (r.poll id) := by
  unfold poll
  split
  · exact look_handed r id 2
  · exact .nothing rfl rfl
  · exact (look_handed _ id 2).of_updateBell

end Registry

end Switchboard
