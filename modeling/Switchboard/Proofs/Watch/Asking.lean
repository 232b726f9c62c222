import Switchboard.Proofs.Watch.Delivery
/-!
# Asking for the next result

What the consumer of a watch does leaves every other watch and its bell alone (`Registry.Spares`),
and so does the registration of a new one.

A consumer that waits at its bell has to be woken by whatever fills its mailbox, so it is asleep
only while the mailbox is empty. If that is so, asking for the next result (`Registry.poll`) hands
out what is in the mailbox (`Registry.poll_filled`), or finds it empty and leaves the consumer
waiting (`Registry.poll_empty`), whether or not a ring was stored from earlier.
-/

namespace Switchboard

namespace Bell

/-- A ring leaves nobody asleep. -/
theorem waiter_ring_ne_parked (b : Bell) : b.ring.waiter ≠ .parked := by
  rcases b with ⟨stored, _ | _ | _⟩ <;> exact nofun

/-- A ring sends nobody away who waits. -/
theorem waiter_ring_ne_away {b : Bell} (h : b.waiter ≠ .away) : b.ring.waiter ≠ .away := by
  rcases b with ⟨stored, _ | _ | _⟩
  · exact absurd rfl h
  all_goals exact nofun

end Bell

namespace Registry

variable {r r' r'' : Registry} {id i : WatchId} {w : Watch} {found : Matches} {t : Tree}

/-! ## Other watches -/

/-- From `r` to `r'`, nothing happens to the watch with the number `id` and to its bell. -/
structure Spares (r r' : Registry) (id : WatchId) : Prop where
  find? : r'.find? id = r.find? id
  bell : r'.bell id = r.bell id

namespace Spares

theorem refl (r : Registry) (id : WatchId) : Spares r r id := ⟨rfl, rfl⟩

theorem trans (h : Spares r r' id) (h' : Spares r' r'' id) : Spares r r'' id :=
  ⟨h'.find?.trans h.find?, h'.bell.trans h.bell⟩

theorem undisturbed (h : Spares r r' id) (hw : r.find? id = some w) : Undisturbed r r' id w :=
  ⟨h.find?.trans hw, h.bell⟩

end Spares

/-- Entries under one number do not matter for the look-up of another one. -/
theorem lookup_filter_of_ne {α : Type} (entries : List (WatchId × α)) (h : i ≠ id) :
    (entries.filter fun entry => entry.1 ≠ id).lookup i = entries.lookup i := by
  induction entries with
  | nil => rfl
  | cons entry rest ih =>
    by_cases hentry : entry.1 = id
    · rw [List.filter_cons_of_neg (by simpa using hentry), ih, List.lookup_cons,
        beq_false_of_ne (hentry ▸ h)]
    · rw [List.filter_cons_of_pos (by simpa using hentry), List.lookup_cons, List.lookup_cons, ih]

theorem bell_updateBell_of_ne (r : Registry) (f : Bell → Bell) (h : i ≠ id) :
    (r.updateBell id f).bell i = r.bell i := by
  have hlookup : (r.updateBell id f).bells.lookup i = r.bells.lookup i := by
    refine (Keyed.lookup_map r.bells (fun j b => if j = id then f b else b) i).trans ?_
    simp only [if_neg h, Option.map_id']
  rw [bell, hlookup, bell]

theorem updateBell_spares (r : Registry) (f : Bell → Bell) (h : i ≠ id) :
    Spares r (r.updateBell id f) i :=
  ⟨rfl, bell_updateBell_of_ne r f h⟩

theorem bell_updateBell (r : Registry) (f : Bell → Bell) (h : id ∈ r.receivers) :
    (r.updateBell id f).bell id = f (r.bell id) := by
  have hlookup : (r.updateBell id f).bells.lookup id = (r.bells.lookup id).map f := by
    refine (Keyed.lookup_map r.bells (fun j b => if j = id then f b else b) id).trans ?_
    simp only [if_true]
  obtain ⟨b, hb⟩ := Keyed.mem_keys_iff.1 h
  rw [bell, bell, hlookup, hb, Option.map_some, Option.getD_some, Option.getD_some]

theorem find?_emptied (r : Registry) (id i : WatchId) :
    (r.emptied id).lookup i =
      (r.find? i).map fun w => if i = id then { w with pending := none } else w :=
  Keyed.lookup_map r.watches (fun j w => if j = id then { w with pending := none } else w) i

theorem take_spares (r : Registry) (h : i ≠ id) : Spares r (r.take id).2 i := by
  unfold take
  split
  · exact .refl r i
  · split
    · exact .refl r i
    · refine ⟨(find?_emptied r id i).trans ?_, rfl⟩
      simp only [if_neg h, Option.map_id']

theorem look_spares (r : Registry) (h : i ≠ id) (looks : Nat) : Spares r (r.look id looks).2 i := by
  induction looks generalizing r with
  | zero => exact .refl r i
  | succ looks ih =>
    have htake := take_spares r h
    rw [look]
    cases hserved : r.take id with
    | mk mail r₁ =>
      rw [hserved] at htake
      cases mail with
      | ready | released => exact htake
      | empty =>
        refine htake.trans ?_
        dsimp only
        split
        · exact (updateBell_spares r₁ _ h).trans (ih _)
        · show Spares r₁ (r₁.updateBell id fun _ => (r₁.bell id).wait.2) i
          exact updateBell_spares r₁ _ h

/-- A consumer that asks for its next result does not meddle with other watches. -/
theorem poll_spares (r : Registry) (h : i ≠ id) : Spares r (r.poll id).2 i := by
  unfold poll
  split
  · exact look_spares r h 2
  · exact .refl r i
  · exact (updateBell_spares r _ h).trans (look_spares _ h 2)

theorem receivers_release (r : Registry) (id : WatchId) :
    (r.release id).receivers = r.receivers := by
  unfold release
  split
  · rfl
  · exact receivers_updateBell r id .ring

theorem release_spares (r : Registry) (h : i ≠ id) : Spares r (r.release id) i := by
  unfold release
  split
  · exact .refl r i
  · exact ⟨lookup_filter_of_ne r.watches h, bell_updateBell_of_ne r .ring h⟩

theorem drop_spares (r : Registry) (h : i ≠ id) : Spares r (r.drop id) i := by
  refine (release_spares r h).trans ⟨rfl, ?_⟩
  exact congrArg (·.getD Bell.silent) (lookup_filter_of_ne (r.release id).bells h)

/-! ## New watches -/

/-- A number that comes after all that were given out is not among them. -/
theorem not_mem_of_issued {ids : List WatchId} (h : ∀ id ∈ ids, id.number ≤ r.issued) :
    ⟨r.issued + 1⟩ ∉ ids :=
  fun hmem => absurd (h _ hmem) (Nat.not_succ_le_self _)

/-- A new watch is found under its number. -/
theorem find?_register (h : r.Numbered) (pattern : Address) (key : String) (t : Tree) :
    (r.register pattern key t).2.find? ⟨r.issued + 1⟩ = some (.first pattern key t) := by
  refine (List.lookup_append ..).trans ?_
  rw [Keyed.lookup_eq_none_iff.2 (not_mem_of_issued h.issued), List.lookup_cons, beq_self_eq_true]
  rfl

/-- The first ring of a new watch is stored, since nobody waits yet. -/
theorem bell_register (h : ∀ i ∈ r.receivers, i.number ≤ r.issued) (pattern : Address)
    (key : String) (t : Tree) :
    (r.register pattern key t).2.bell ⟨r.issued + 1⟩ = Bell.silent.ring := by
  show ((r.bells ++ _).lookup _).getD _ = _
  rw [List.lookup_append, Keyed.lookup_eq_none_iff.2 (not_mem_of_issued h), List.lookup_cons,
    beq_self_eq_true]
  rfl

/-- A registration leaves the watches alone that are found already. -/
theorem register_undisturbed (h : r.Numbered) (hw : r.find? id = some w) (pattern : Address)
    (key : String) (t : Tree) : Undisturbed r (r.register pattern key t).2 id w := by
  obtain ⟨b, hb⟩ := Keyed.mem_keys_iff.1 (h.mem_receivers hw)
  constructor
  · refine (List.lookup_append ..).trans ?_
    rw [show r.watches.lookup id = some w from hw]
    rfl
  · show ((r.bells ++ _).lookup id).getD _ = (r.bells.lookup id).getD _
    rw [List.lookup_append, hb]
    rfl

/-! ## The own watch -/

/-- The consumer does not sleep at its bell while there is something in its mailbox. -/
def Heeds (r : Registry) (id : WatchId) (w : Watch) : Prop :=
  (r.bell id).waiter = .parked → w.pending = none

/-- A mailbox that is emptied belongs to the watch that it belonged to before. -/
theorem find?_emptied_self (hw : r.find? id = some w) :
    find? { r with watches := r.emptied id } id = some { w with pending := none } := by
  refine (find?_emptied r id id).trans ?_
  rw [hw, Option.map_some, if_pos rfl]

theorem take_filled (hw : r.find? id = some w) (hfound : w.pending = some found) :
    r.take id = (.ready found, { r with watches := r.emptied id }) := by
  simp only [take, hw, hfound]
  rfl

theorem take_empty (hw : r.find? id = some w) (hempty : w.pending = none) :
    r.take id = (.empty, r) := by
  simp only [take, hw, hempty]

theorem look_filled (hw : r.find? id = some w) (hfound : w.pending = some found) (looks : Nat) :
    r.look id (looks + 1) = (.ready found, { r with watches := r.emptied id }) := by
  rw [look, take_filled hw hfound]

theorem look_rung (hw : r.find? id = some w) (hempty : w.pending = none) {b : Bell}
    (hwait : (r.bell id).wait = (true, b)) (looks : Nat) :
    r.look id (looks + 1) = (r.updateBell id fun _ => b).look id looks := by
  rw [look, take_empty hw hempty]
  dsimp only
  rw [hwait]
  exact if_pos rfl

theorem look_waits (hw : r.find? id = some w) (hempty : w.pending = none) {b : Bell}
    (hwait : (r.bell id).wait = (false, b)) (looks : Nat) :
    r.look id (looks + 1) = (.empty, r.updateBell id fun _ => b) := by
  rw [look, take_empty hw hempty]
  dsimp only
  rw [hwait]
  exact if_neg Bool.false_ne_true

/-- A consumer that is awake and finds its mailbox empty, even when a stored ring makes it look once
more, waits. -/
theorem look_empty (hw : r.find? id = some w) (hid : id ∈ r.receivers) (hempty : w.pending = none)
    (hawake : (r.bell id).waiter = .away) :
    ∃ r', r.look id 2 = (.empty, r') ∧ r'.find? id = some w ∧ (r'.bell id).waiter = .parked := by
  have hquiet : ∀ (r₁ : Registry) (looks : Nat), r₁.find? id = some w → id ∈ r₁.receivers →
      r₁.bell id = ⟨false, .away⟩ → ∃ r', r₁.look id (looks + 1) = (.empty, r') ∧
        r'.find? id = some w ∧ (r'.bell id).waiter = .parked := by
    intro r₁ looks hw₁ hid₁ hbell₁
    have hwait : (r₁.bell id).wait = (false, ⟨false, .parked⟩) := by rw [hbell₁]; rfl
    refine ⟨_, look_waits hw₁ hempty hwait looks, hw₁, ?_⟩
    rw [bell_updateBell r₁ _ hid₁]
  cases hbell : r.bell id with
  | mk stored waiter =>
    rw [hbell] at hawake
    cases hawake
    cases stored with
    | false => exact hquiet r 1 hw hid hbell
    | true =>
      have hwait : (r.bell id).wait = (true, ⟨false, .away⟩) := by rw [hbell]; rfl
      rw [look_rung hw hempty hwait]
      refine hquiet _ 0 hw ?_ (bell_updateBell r _ hid)
      rw [receivers_updateBell]
      exact hid

/-- A consumer whose mailbox is filled is handed what is in it. -/
theorem poll_filled (hw : r.find? id = some w) (hid : id ∈ r.receivers) (hheeds : r.Heeds id w)
    (hfound : w.pending = some found) :
    ∃ r', r.poll id = (.ready found, r') ∧ r'.find? id = some { w with pending := none } ∧
      (r'.bell id).waiter = .away := by
  unfold poll
  cases hwaiter : (r.bell id).waiter with
  | away =>
    refine ⟨_, look_filled hw hfound 1, find?_emptied_self hw, ?_⟩
    exact hwaiter
  | parked =>
    rw [hheeds hwaiter] at hfound
    cases hfound
  | woken =>
    refine ⟨_, look_filled (r := r.updateBell id fun b => b.wait.2) hw hfound 1,
      find?_emptied_self (r := r.updateBell id fun b => b.wait.2) hw, ?_⟩
    show ((r.updateBell id fun b => b.wait.2).bell id).waiter = .away
    rw [bell_updateBell r _ hid]
    simp only [Bell.wait, hwaiter]

/-- A consumer whose mailbox is empty is handed nothing and waits. -/
theorem poll_empty (hw : r.find? id = some w) (hid : id ∈ r.receivers)
    (hempty : w.pending = none) :
    ∃ r', r.poll id = (.empty, r') ∧ r'.find? id = some w ∧ (r'.bell id).waiter = .parked := by
  unfold poll
  cases hwaiter : (r.bell id).waiter with
  | away => exact look_empty hw hid hempty hwaiter
  | parked => exact ⟨r, rfl, hw, hwaiter⟩
  | woken =>
    refine look_empty (r := r.updateBell id fun b => b.wait.2) hw ?_ hempty ?_
    · rw [receivers_updateBell]
      exact hid
    · rw [bell_updateBell r _ hid]
      simp only [Bell.wait, hwaiter]

end Registry

end Switchboard
