import Mathlib
import Switchboard.Proofs.Store.Keeping
import Switchboard.Proofs.Store.Waking
/-!
# Ends of watches

A watch ends when it is released or when its receiver is dropped, in whatever order and however
often that happens, and in between any steps of others (`Interleaving`). Its end is final and
concerns nobody else (`Interleaving.end_is_final`).

That it is final rests on the numbers: they are given out one after the other
(`Interleaving.numbers_eq`), so that a number that was given out and under which no watch is found
stays so (`Registry.Ended`). That a consumer which waits at the time learns of the end rests on its
bell, where it would not wait with a ring stored (`Bell.Answered`).
-/

namespace Switchboard

/-! ## Bells -/

namespace Bell

variable {b : Bell}

/-- No ring is stored while the consumer waits: it would have ended the wait. -/
def Answered (b : Bell) : Prop :=
  b.waiter = .parked → b.stored = false

theorem Answered.of_away (h : b.waiter = .away) : b.Answered := by
  intro hparked
  rw [h] at hparked
  cases hparked

theorem Answered.ring (b : Bell) : b.ring.Answered :=
  fun hparked => absurd hparked b.waiter_ring_ne_parked

theorem Answered.cancel (b : Bell) : b.cancel.Answered :=
  .of_away b.waiter_cancel

theorem Answered.wait (h : b.Answered) : b.wait.2.Answered := by
  rcases b with ⟨stored, _ | _ | _⟩
  · cases stored
    · exact fun _ => rfl
    · exact .of_away rfl
  · exact h
  · exact .of_away rfl

end Bell

namespace Registry

variable {r r' : Registry} {id : WatchId} {stage : Stage}

/-- At no bell a ring is stored while the consumer waits. -/
def Answered (r : Registry) : Prop :=
  ∀ entry ∈ r.bells, entry.2.Answered

namespace Answered

theorem bell (h : r.Answered) (id : WatchId) : (r.bell id).Answered := by
  rw [Registry.bell]
  cases hb : r.bells.lookup id with
  | none => exact .of_away rfl
  | some b => exact h (id, b) (Keyed.mem_of_lookup hb)

/-- Something happens to the bells, each under its number. -/
theorem map {f : WatchId → Bell → Bell} (h : r.Answered)
    (hf : ∀ id b, b.Answered → (f id b).Answered)
    (hbells : r'.bells = r.bells.map fun (id, b) => (id, f id b)) : r'.Answered := by
  intro entry hentry
  rw [hbells] at hentry
  obtain ⟨old, hold, rfl⟩ := List.mem_map.1 hentry
  exact hf old.1 old.2 (h old hold)

theorem updateBell {f : Bell → Bell} (h : r.Answered) (hf : ∀ b : Bell, b.Answered → (f b).Answered)
    (id : WatchId) : (r.updateBell id f).Answered :=
  h.map (f := fun i b => if i = id then f b else b) (fun i b hb => by
    split
    · exact hf b hb
    · exact hb) rfl

theorem register (h : r.Answered) (pattern : Address) (key : String) (t : Tree) :
    (r.register pattern key t).2.Answered := by
  intro entry hentry
  rcases List.mem_append.1 hentry with hentry | hentry
  · exact h entry hentry
  · rw [List.mem_singleton.1 hentry]
    exact .ring _

theorem evaluate (h : r.Answered) (t : Tree) : (r.evaluate t).Answered :=
  h.map (f := fun id b => if (r.find? id).any (·.isStale t) then b.ring else b) (fun id b hb => by
    split
    · exact .ring b
    · exact hb) rfl

theorem take (h : r.Answered) (id : WatchId) : (r.take id).2.Answered := by
  unfold Registry.take
  split
  · exact h
  · split <;> exact h

theorem release (h : r.Answered) (id : WatchId) : (r.release id).Answered := by
  unfold Registry.release
  split
  · exact h
  · exact h.updateBell (fun b _ => .ring b) id

theorem drop (h : r.Answered) (id : WatchId) : (r.drop id).Answered :=
  fun entry hentry => h.release id entry (List.mem_filter.1 hentry).1

theorem goOn (h : r.Answered) (id : WatchId) (stage : Stage) :
    (r.goOn id stage).2.2.Answered := by
  cases stage with
  | idle => exact h
  | looking =>
    rw [snd_goOn_looking]
    exact h.take id
  | turning =>
    rw [Registry.goOn]
    split
    · exact h
    · exact h.updateBell (fun b hb => hb.wait) id
    · exact h.updateBell (fun _ _ => (h.bell id).wait) id

end Answered

/-! ## Steps -/

/-- What one step can do to a registry, with the number that it hands out. -/
inductive Stepped (r : Registry) : Option WatchId → Registry → Prop where
  | unchanged : r.Stepped none r
  | evaluated (t : Tree) : r.Stepped none (r.evaluate t)
  | registered (pattern : Address) (key : String) (t : Tree) :
    r.Stepped (some ⟨r.issued + 1⟩) (r.register pattern key t).2
  | taken (id : WatchId) : r.Stepped none (r.take id).2
  | released (id : WatchId) : r.Stepped none (r.release id)
  | dropped (id : WatchId) : r.Stepped none (r.drop id)
  | cancelled (id : WatchId) : r.Stepped none (r.cancel id)
  | goneOn (id : WatchId) (stage : Stage) : r.Stepped none (r.goOn id stage).2.2

theorem Answered.stepped {number : Option WatchId} (h : r.Answered) (hr : r.Stepped number r') :
    r'.Answered := by
  cases hr with
  | unchanged => exact h
  | evaluated t => exact h.evaluate t
  | registered pattern key t => exact h.register pattern key t
  | taken id => exact h.take id
  | released id => exact h.release id
  | dropped id => exact h.drop id
  | cancelled id => exact h.updateBell (fun b _ => .cancel b) id
  | goneOn id stage => exact h.goOn id stage

theorem goOn_kept (r : Registry) (id : WatchId) (stage : Stage) :
    r.Kept (r.goOn id stage).2.2 := by
  cases stage with
  | idle => exact .refl r
  | looking =>
    rw [snd_goOn_looking]
    exact (take_handed r id).kept
  | turning =>
    rw [goOn]
    split
    · exact .refl r
    · exact updateBell_kept r id fun b => b.wait.2
    · exact updateBell_kept r id fun _ => (r.bell id).wait.2

/-- A step registers one watch under the next number, or none. -/
theorem Stepped.registered_or_kept {number : Option WatchId} (h : r.Stepped number r') :
    (number = some ⟨r.issued + 1⟩ ∧ ∃ pattern key t, r' = (r.register pattern key t).2) ∨
      (number = none ∧ r.Kept r') := by
  cases h with
  | unchanged => exact .inr ⟨rfl, .refl r⟩
  | evaluated t => exact .inr ⟨rfl, evaluate_kept r t⟩
  | registered pattern key t => exact .inl ⟨rfl, pattern, key, t, rfl⟩
  | taken id => exact .inr ⟨rfl, (take_handed r id).kept⟩
  | released id => exact .inr ⟨rfl, release_kept r id⟩
  | dropped id => exact .inr ⟨rfl, drop_kept r id⟩
  | cancelled id => exact .inr ⟨rfl, updateBell_kept r id .cancel⟩
  | goneOn id stage => exact .inr ⟨rfl, goOn_kept r id stage⟩

/-! ## Watches that have ended -/

/-- The watch with this number was registered, and is not any more. -/
structure Ended (r : Registry) (id : WatchId) : Prop where
  issued : id.number ≤ r.issued
  gone : r.find? id = none

namespace Ended

/-- What adds no watch does not bring it back. -/
theorem kept (h : r.Ended id) (hkept : r.Kept r') : r'.Ended id where
  issued := hkept.issued ▸ h.issued
  gone := Keyed.lookup_eq_none_iff.2 fun hmem =>
    Keyed.lookup_eq_none_iff.1 h.gone (hkept.ids.subset hmem)

/-- A new watch has another number. -/
theorem register (h : r.Ended id) (pattern : Address) (key : String) (t : Tree) :
    (r.register pattern key t).2.Ended id := by
  have hne : id ≠ ⟨r.issued + 1⟩ := by
    rintro rfl
    exact absurd h.issued (Nat.not_succ_le_self _)
  exact ⟨Nat.le_succ_of_le h.issued, (register_spares hne pattern key t).find?.trans h.gone⟩

/-- It stays so. -/
theorem stepped {number : Option WatchId} (h : r.Ended id) (hr : r.Stepped number r') :
    r'.Ended id := by
  rcases hr.registered_or_kept with ⟨-, pattern, key, t, rfl⟩ | ⟨-, hkept⟩
  · exact h.register pattern key t
  · exact h.kept hkept

/-- A watch that was registered ends with its release. -/
theorem of_release (h : id.number ≤ r.issued) : (r.release id).Ended id where
  issued := (release_kept r id).issued ▸ h
  gone := Keyed.lookup_eq_none_iff.2 (not_mem_ids_release r id)

/-- A watch that was registered ends when its receiver is dropped. -/
theorem of_drop (h : id.number ≤ r.issued) : (r.drop id).Ended id where
  issued := (drop_kept r id).issued ▸ h
  gone := find?_drop_self r id

theorem take (h : r.Ended id) : r.take id = (.released, r) := by
  rw [Registry.take, h.gone]

theorem release (h : r.Ended id) : r.release id = r := by
  rw [Registry.release, h.gone]

/-- Nobody waits for it. -/
theorem waiter_ne_parked (h : r.Ended id) (halert : r.Alert id stage)
    (hanswered : (r.bell id).Answered) : (r.bell id).waiter ≠ .parked := by
  intro hparked
  cases stage with
  | idle | looking => cases hparked.symm.trans halert
  | turning =>
    have hstill : (r.bell id).Still := ⟨hanswered hparked, hparked ▸ nofun⟩
    obtain ⟨w, hw, -⟩ := halert.2 hstill
    cases h.gone.symm.trans hw

theorem poll (h : r.Ended id) (hbell : (r.bell id).waiter ≠ .parked) :
    (r.poll id).1 = .released := by
  have hlook : ∀ r₁ : Registry, r₁.Ended id → (r₁.look id 2).1 = .released := by
    intro r₁ h₁
    rw [look, h₁.take]
  unfold Registry.poll
  cases hwaiter : (r.bell id).waiter with
  | away => exact hlook r h
  | parked => exact absurd hwaiter hbell
  | woken => exact hlook _ (h.kept (updateBell_kept r id _))

/-- A consumer that has turned to its bell looks into its mailbox again. -/
theorem goOn_turning (h : r.Ended id) (halert : r.Alert id .turning)
    (hanswered : (r.bell id).Answered) : (r.goOn id .turning).2.1 = .looking := by
  have hawake := h.waiter_ne_parked halert hanswered
  cases hbell : r.bell id with
  | mk stored waiter =>
    cases waiter with
    | parked =>
      rw [hbell] at hawake
      exact absurd rfl hawake
    | woken => simp only [Registry.goOn, hbell]
    | away =>
      cases stored with
      | true =>
        simp only [Registry.goOn, hbell]
        rfl
      | false =>
        have hstill : (r.bell id).Still := by
          rw [hbell]
          exact ⟨rfl, by simp⟩
        obtain ⟨w, hw, -⟩ := halert.2 hstill
        cases h.gone.symm.trans hw

end Ended

/-- What the end of a watch leaves. -/
theorem watches_release (r : Registry) (id : WatchId) :
    (r.release id).watches = r.watches.filter fun entry => entry.1 ≠ id := by
  unfold release
  split
  · next hgone => exact (Keyed.filter_of_lookup_eq_none hgone).symm
  · rfl

end Registry

namespace Interleaving

variable {m : Interleaving} {id : WatchId}

/-! ## Runs -/

theorem after_append (m : Interleaving) (before moves : List Move) :
    m.after (before ++ moves) = (m.after before).after moves := by
  induction before generalizing m with
  | nil => rfl
  | cons move before ih => exact ih (m.move move)

/-- The number that is handed out in a step. -/
def number? (m : Interleaving) : Move → Option WatchId
  | .watch pattern => (m.store.watch pattern).toOption.map Prod.fst
  | _ => none

/-- The numbers that are handed out in a run, in their order. -/
def numbers (m : Interleaving) : List Move → List WatchId
  | [] => []
  | move :: moves => (m.number? move).toList ++ (m.move move).numbers moves

/-- What a step does to the registry. -/
theorem stepped (m : Interleaving) (move : Move) :
    m.store.registry.Stepped (m.number? move) (m.move move).store.registry := by
  cases move with
  | write w =>
    show m.store.registry.Stepped none (m.store.write w).2.registry
    rcases m.store.registry_write w with hregistry | hregistry <;> rw [hregistry]
    · exact .unchanged
    · exact .evaluated _
  | watch pattern =>
    simp only [number?, move, Store.call, Store.watch]
    cases m.store.parse pattern with
    | error e => exact .unchanged
    | ok a => exact .registered a pattern m.store.tree
  | take id => exact .taken id
  | release id => exact .released id
  | drop id => exact .dropped id
  | cancel id => exact .cancelled id
  | ask id =>
    rw [move]
    split <;> exact .unchanged
  | go id => exact .goneOn id (m.stage id)

/-- The numbers of a run are those that come next. -/
theorem numbers_eq (m : Interleaving) (moves : List Move) :
    ∃ n, (m.after moves).store.registry.issued = m.store.registry.issued + n ∧
      m.numbers moves = (List.range' (m.store.registry.issued + 1) n).map WatchId.mk := by
  induction moves generalizing m with
  | nil => exact ⟨0, rfl, rfl⟩
  | cons move moves ih =>
    obtain ⟨n, hissued, hnumbers⟩ := ih (m.move move)
    rw [after, numbers, hissued, hnumbers]
    rcases (m.stepped move).registered_or_kept with
      ⟨hnumber, pattern, key, t, hregistry⟩ | ⟨hnone, hkept⟩
    · have hnext : (m.move move).store.registry.issued = m.store.registry.issued + 1 := by
        rw [hregistry]
        rfl
      refine ⟨n + 1, ?_, ?_⟩
      · rw [hnext]
        omega
      · rw [hnumber, hnext, List.range'_succ]
        rfl
    · refine ⟨n, ?_, ?_⟩
      · rw [hkept.issued]
      · rw [hnone, hkept.issued]
        rfl

theorem number_le_issued {moves : List Move} (h : id ∈ m.numbers moves) :
    id.number ≤ (m.after moves).store.registry.issued := by
  obtain ⟨n, hissued, hnumbers⟩ := m.numbers_eq moves
  rw [hnumbers] at h
  obtain ⟨k, hk, rfl⟩ := List.mem_map.1 h
  obtain ⟨i, hi, rfl⟩ := List.mem_range'.1 hk
  rw [hissued]
  show m.store.registry.issued + 1 + 1 * i ≤ _
  omega

/-- A watch that has ended stays so. -/
theorem ended_after (h : m.store.registry.Ended id) (moves : List Move) :
    (m.after moves).store.registry.Ended id := by
  induction moves generalizing m with
  | nil => exact h
  | cons move moves ih => exact ih (h.stepped (m.stepped move))

theorem answered_new (scheme : String) : (new scheme).store.registry.Answered := by
  intro entry hentry
  cases hentry

/-- In a run no consumer waits with a ring stored. -/
theorem answered_after (h : m.store.registry.Answered) (moves : List Move) :
    (m.after moves).store.registry.Answered := by
  induction moves generalizing m with
  | nil => exact h
  | cons move moves ih => exact ih (h.stepped (m.stepped move))

/-- **The end of a watch is final and concerns no other.** In a run no number is handed out twice.
Once a watch was released or its receiver was dropped, it is not registered in any later state,
whatever happened since; and there, whoever looks into its mailbox or asks for its next result
learns that it has ended, whatever was in the mailbox. So does its consumer with its next look, if
it is about to look, and if it had turned to its bell, it looks next. To release the watch again
changes nothing, and to drop its receiver takes only the bell away.

In every state of a run, to release a watch or to drop its receiver leaves the tree and all other
watches as they are, with what they have seen, what is in their mailboxes and their bells. -/
theorem end_is_final (scheme : String) (moves : List Move) :
    let m := (new scheme).after moves
    ((new scheme).numbers moves).Nodup ∧
    (∀ before ending since id, moves = before ++ ending :: since →
      id ∈ (new scheme).numbers before → ending = .release id ∨ ending = .drop id →
      m.store.registry.find? id = none ∧
      (m.store.take id).1 = .released ∧ (m.store.poll id).1 = .released ∧
      (m.stage id = .looking → (m.store.registry.goOn id (m.stage id)).1 = some .released) ∧
      (m.stage id = .turning → (m.store.registry.goOn id (m.stage id)).2.1 = .looking) ∧
      m.store.release id = m.store ∧
      m.store.drop id = { m.store with registry := { m.store.registry with
        bells := m.store.registry.bells.filter fun entry => entry.1 ≠ id } }) ∧
    ∀ id s, s = m.store.release id ∨ s = m.store.drop id →
      Store.KeepsTo (· = id) m.store s ∧
      s.registry.watches = m.store.registry.watches.filter fun entry => entry.1 ≠ id := by
  intro m
  refine ⟨?_, fun before ending since id hmoves hid hending => ?_, fun id s hs => ?_⟩
  · obtain ⟨n, -, hnumbers⟩ := (new scheme).numbers_eq moves
    rw [hnumbers]
    exact List.Nodup.map (fun _ _ heq => congrArg WatchId.number heq) List.nodup_range'
  · have hissued := number_le_issued hid
    have hend : (((new scheme).after before).move ending).store.registry.Ended id := by
      rcases hending with rfl | rfl
      · exact .of_release hissued
      · exact .of_drop hissued
    have hended : m.store.registry.Ended id := by
      have hsince := ended_after hend since
      rwa [← after, ← after_append, ← hmoves] at hsince
    have halert := ((Wakeful.new scheme).after moves).alert id
    have hanswered := (answered_after (answered_new scheme) moves).bell id
    refine ⟨hended.gone, congrArg Prod.fst hended.take,
      hended.poll (hended.waiter_ne_parked halert hanswered), fun hstage => ?_, fun hstage => ?_,
      ?_, ?_⟩
    · rw [hstage, Registry.goOn_looking, hended.take]
      rfl
    · rw [hstage]
      refine hended.goOn_turning ?_ hanswered
      rw [← hstage]
      exact halert
    · rw [Store.release, hended.release]
    · rw [Store.drop, Registry.drop, hended.release]
  · rcases hs with rfl | rfl
    · exact ⟨Store.release_keepsTo m.store id, Registry.watches_release m.store.registry id⟩
    · exact ⟨Store.drop_keepsTo m.store id, Registry.watches_release m.store.registry id⟩

/-- The watch of the lamp is released while its first result is unread, and released again after its
consumer has asked for the next one. -/
theorem lamp_released_unread :
    let before : List Move := [.watch "home://lamp", .watch "home://door"]
    let since : List Move := [.ask ⟨1⟩, .write (.set "home://lamp" (.bool true) .unchecked),
      .release ⟨1⟩]
    let m := (new "home").after (before ++ .release ⟨1⟩ :: since)
    (((new "home").after before).store.unread ⟨1⟩).isSome ∧ m.stage ⟨1⟩ = .looking ∧
      (m.store.take ⟨1⟩).1 = .released ∧
      (m.store.registry.goOn ⟨1⟩ (m.stage ⟨1⟩)).1 = some .released ∧
      m.store.registry.ids = [⟨2⟩] := by
  intro before since m
  have hunread : (((new "home").after before).store.unread ⟨1⟩).isSome := by
    subst before
    cbv
  have hnumbers : (new "home").numbers before = [⟨1⟩, ⟨2⟩] := by
    subst before
    cbv
  have hstage : m.stage ⟨1⟩ = .looking := by
    subst m since before
    cbv
  have hids : m.store.registry.ids = [⟨2⟩] := by
    subst m since before
    cbv
  obtain ⟨-, hend, -⟩ := end_is_final "home" (before ++ .release ⟨1⟩ :: since)
  obtain ⟨-, htake, -, hlooking, -⟩ := hend before (.release ⟨1⟩) since ⟨1⟩ rfl
    (hnumbers ▸ List.mem_cons_self) (.inl rfl)
  exact ⟨hunread, hstage, htake, hlooking hstage, hids⟩

end Interleaving

end Switchboard
