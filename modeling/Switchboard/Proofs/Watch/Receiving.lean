import Switchboard.Proofs.Watch.Asking
/-!
# Receiving step by step

A consumer that asks for its next result looks into its mailbox and then, in a separate step, turns
to its bell; others can come in between. `Registry.goOn` is one such step, and steps that nobody
interrupts add up to `Registry.poll` (`Registry.exists_goOnFor_eq_poll`).

A consumer that is past its look has found its mailbox empty. From then on it misses nothing
(`Registry.Alert`): as long as no wake-up is outstanding, its watch is registered and its mailbox is
still empty. Every operation on the registry keeps this, and so does every step of the consumer.
-/

namespace Switchboard

/-- How far a consumer has come with asking for its next result. -/
inductive Stage where
  /-- It does not ask. -/
  | idle
  /-- It is about to look into its mailbox. -/
  | looking
  /-- It has found its mailbox empty, and turns to its bell or waits there. -/
  | turning
deriving DecidableEq

/-- No wake-up is outstanding: no ring is stored, and the consumer was not woken. -/
def Bell.Still (b : Bell) : Prop :=
  b.stored = false ∧ b.waiter ≠ .woken

/-- A ring is outstanding until the consumer answers it. -/
theorem Bell.not_still_ring (b : Bell) : ¬ b.ring.Still := by
  rcases b with ⟨stored, _ | _ | _⟩
  · exact fun h => nomatch h.1
  · exact fun h => h.2 rfl
  · exact fun h => nomatch h.1

/-- A ring does not bring a consumer to the bell. -/
theorem Bell.waiter_ring_eq_away {b : Bell} (h : b.waiter = .away) : b.ring.waiter = .away := by
  rw [ring, h]

/-- A consumer that gives up is away, and hands a ring back that it has not answered. -/
theorem Bell.waiter_cancel (b : Bell) : b.cancel.waiter = .away := by
  rcases b with ⟨stored, _ | _ | _⟩ <;> rfl

namespace Registry

variable {r r' : Registry} {id i : WatchId} {stage : Stage} {w : Watch}

/-! ## The steps of a consumer -/

/-- One step of a consumer. It comes with mail if the consumer is through. -/
def goOn (r : Registry) (id : WatchId) : Stage → Option Mail × Stage × Registry
  | .idle => (none, .idle, r)
  | .looking =>
    match r.take id with
    | (.empty, r) => (none, .turning, r)
    | (mail, r) => (some mail, .idle, r)
  | .turning =>
    match (r.bell id).waiter with
    | .parked => (none, .turning, r)
    | .woken => (none, .looking, r.updateBell id fun b => b.wait.2)
    | .away =>
      let (rung, b) := (r.bell id).wait
      (none, if rung then .looking else .turning, r.updateBell id fun _ => b)

/-- Some steps of a consumer, with nobody coming in between. -/
def goOnFor (r : Registry) (id : WatchId) (stage : Stage) : Nat → Option Mail × Stage × Registry
  | 0 => (none, stage, r)
  | steps + 1 =>
    match r.goOn id stage with
    | (none, stage, r) => r.goOnFor id stage steps
    | (some mail, stage, r) => (some mail, stage, r)

/-- Where a consumer stands that was handed this: it is through, or it waits for its bell. -/
def handedOut : Mail × Registry → Option Mail × Stage × Registry
  | (.empty, r) => (none, .turning, r)
  | (mail, r) => (some mail, .idle, r)

theorem goOn_looking (r : Registry) (id : WatchId) :
    r.goOn id .looking = handedOut (r.take id) := by
  rw [goOn]
  rcases r.take id with ⟨_ | _ | _, r'⟩ <;> rfl

/-- A consumer that looks does to the registry what the look does. -/
theorem snd_goOn_looking (r : Registry) (id : WatchId) :
    (r.goOn id .looking).2.2 = (r.take id).2 := by
  rw [goOn_looking]
  rcases r.take id with ⟨_ | _ | _, r'⟩ <;> rfl

/-- A look is decided by the mailbox, unless that is empty. -/
theorem handedOut_look (h : ¬ ∃ w, r.find? id = some w ∧ w.pending = none) (looks : Nat) :
    handedOut (r.look id (looks + 1)) = r.goOnFor id .looking 1 := by
  rw [goOnFor, goOn_looking, look]
  cases hw : r.find? id with
  | none => simp only [take, hw, handedOut]
  | some w =>
    cases hpending : w.pending with
    | none => exact absurd ⟨w, hw, hpending⟩ h
    | some found => simp only [take, hw, hpending, handedOut]

theorem goOnFor_looking (hw : r.find? id = some w) (hempty : w.pending = none) (steps : Nat) :
    r.goOnFor id .looking (steps + 1) = r.goOnFor id .turning steps := by
  rw [goOnFor, goOn_looking, take_empty hw hempty]
  rfl

/-- The bell of a consumer is silent unless it holds a receiver. -/
theorem mem_receivers_of_bell_ne (h : r.bell id ≠ .silent) : id ∈ r.receivers := by
  refine Classical.byContradiction fun hid => h ?_
  rw [bell, Keyed.lookup_eq_none_iff.2 hid]
  rfl

/-- Looking into the mailbox, and once more after a stored ring, is a number of steps. -/
theorem exists_goOnFor_eq_look (haway : (r.bell id).waiter = .away) :
    ∃ steps, r.goOnFor id .looking steps = handedOut (r.look id 2) := by
  by_cases h : ∃ w, r.find? id = some w ∧ w.pending = none
  · obtain ⟨w, hw, hempty⟩ := h
    have hstill : ∀ r₁ : Registry, r₁.find? id = some w → r₁.bell id = ⟨false, .away⟩ →
        ∀ looks, r₁.goOnFor id .looking 2 = handedOut (r₁.look id (looks + 1)) := by
      intro r₁ hw₁ hbell looks
      have hwait : (r₁.bell id).wait = (false, ⟨false, .parked⟩) := by rw [hbell]; rfl
      rw [goOnFor_looking hw₁ hempty, look_waits hw₁ hempty hwait]
      simp only [goOnFor, goOn, hbell]
      rfl
    cases hbell : r.bell id with
    | mk stored waiter =>
      rw [hbell] at haway
      cases haway
      cases stored with
      | false => exact ⟨2, hstill r hw hbell 1⟩
      | true =>
        have hwait : (r.bell id).wait = (true, ⟨false, .away⟩) := by rw [hbell]; rfl
        have hid : id ∈ r.receivers := mem_receivers_of_bell_ne (by rw [hbell]; exact nofun)
        have hagain := hstill (r.updateBell id fun _ => ⟨false, .away⟩) hw
          (bell_updateBell r _ hid) 0
        refine ⟨4, ?_⟩
        rw [look_rung hw hempty hwait, ← hagain, goOnFor_looking hw hempty, goOnFor]
        simp only [goOn, hbell]
        rfl
  · exact ⟨1, (handedOut_look h 1).symm⟩

/-- Asking for the next result is a number of steps that nobody interrupts. They start with a look,
unless the consumer waits already. -/
theorem exists_goOnFor_eq_poll (r : Registry) (id : WatchId) :
    ∃ steps, r.goOnFor id (if (r.bell id).waiter = .away then .looking else .turning) steps =
      handedOut (r.poll id) := by
  unfold poll
  cases hwaiter : (r.bell id).waiter with
  | away => exact exists_goOnFor_eq_look hwaiter
  | parked => exact ⟨0, rfl⟩
  | woken =>
    have hid : id ∈ r.receivers := by
      refine mem_receivers_of_bell_ne fun hsilent => ?_
      rw [hsilent] at hwaiter
      cases hwaiter
    have haway : ((r.updateBell id fun b => b.wait.2).bell id).waiter = .away := by
      rw [bell_updateBell r _ hid]
      simp only [Bell.wait, hwaiter]
    obtain ⟨steps, hsteps⟩ := exists_goOnFor_eq_look haway
    refine ⟨steps + 1, ?_⟩
    rw [goOnFor]
    simp only [reduceCtorEq, if_false, goOn, hwaiter]
    exact hsteps

/-! ## Missing nothing -/

/-- The consumer at this stage misses nothing. It is not at its bell unless it has turned to it; and
then, if no wake-up is outstanding, its watch is registered and its mailbox is empty. -/
def Alert (r : Registry) (id : WatchId) : Stage → Prop
  | .idle | .looking => (r.bell id).waiter = .away
  | .turning => id ∈ r.receivers ∧
    ((r.bell id).Still → ∃ w, r.find? id = some w ∧ w.pending = none)

/-- What spares a watch keeps its consumer alert. -/
theorem Alert.spares (h : r.Alert id stage) (hr : Spares r r' id)
    (hid : id ∈ r.receivers → id ∈ r'.receivers) : r'.Alert id stage := by
  cases stage with
  | idle | looking =>
    rw [Alert, hr.bell]
    exact h
  | turning =>
    rw [Alert, hr.bell, hr.find?]
    exact ⟨hid h.1, h.2⟩

/-- A consumer whose bell is rung is alert: it is not there yet, or the ring is outstanding. -/
theorem Alert.rung (h : r.Alert id stage) (hbell : r'.bell id = (r.bell id).ring)
    (hid : id ∈ r.receivers → id ∈ r'.receivers) : r'.Alert id stage := by
  cases stage with
  | idle | looking =>
    rw [Alert, hbell]
    exact Bell.waiter_ring_eq_away h
  | turning =>
    rw [Alert, hbell]
    exact ⟨hid h.1, fun hstill => absurd hstill (Bell.not_still_ring _)⟩

/-- An evaluation leaves a watch alone that is not stale. -/
theorem evaluate_spares {t : Tree} (h : ∀ w, r.find? id = some w → ¬ w.isStale t = true) :
    Spares r (r.evaluate t) id := by
  constructor
  · rw [find?_evaluate]
    cases hw : r.find? id with
    | none => rfl
    | some w => rw [Option.map_some, Watch.evaluate, if_neg (h w hw)]
  · have hany : (r.find? id).any (·.isStale t) = false := by
      cases hw : r.find? id with
      | none => rfl
      | some w => exact Bool.eq_false_iff.2 (h w hw)
    have hrung : r.rung t id = fun b => b := funext fun b => by rw [rung, hany]; rfl
    have hlookup : (r.evaluate t).bells.lookup id = (r.bells.lookup id).map (r.rung t id) :=
      Keyed.lookup_map r.bells (r.rung t) id
    rw [bell, bell, hlookup, hrung, Option.map_id']

theorem register_spares (h : id ≠ ⟨r.issued + 1⟩) (pattern : Address) (key : String) (t : Tree) :
    Spares r (r.register pattern key t).2 id := by
  have hlookup : ∀ {α : Type} (entries : List (WatchId × α)) (new : α),
      (entries ++ [((⟨r.issued + 1⟩ : WatchId), new)]).lookup id = entries.lookup id := by
    intro α entries new
    rw [List.lookup_append, List.lookup_cons, beq_false_of_ne h, List.lookup_nil, Option.or_none]
  exact ⟨hlookup r.watches _, congrArg (·.getD Bell.silent) (hlookup r.bells _)⟩

theorem bell_of_not_mem (h : id ∉ r.receivers) : r.bell id = .silent :=
  Classical.byContradiction fun hne => h (mem_receivers_of_bell_ne hne)

/-- A consumer stays alert when all watches are evaluated after a write. -/
theorem Alert.evaluate (h : r.Alert id stage) (hr : r.Numbered) (t : Tree) :
    (r.evaluate t).Alert id stage := by
  have hreceivers : (r.evaluate t).receivers = r.receivers := map_fst_map fun _ => rfl
  by_cases hstale : ∃ w, r.find? id = some w ∧ w.isStale t = true
  · obtain ⟨w, hw, hstale⟩ := hstale
    refine h.rung ?_ fun hid => hreceivers ▸ hid
    rw [bell_evaluate (hr.mem_receivers hw), Registry.rung, hw, Option.any_some, if_pos hstale]
  · refine h.spares (evaluate_spares fun w hw hw' => hstale ⟨w, hw, hw'⟩) fun hid => ?_
    rwa [hreceivers]

/-- A consumer stays alert when a watch is registered, be it its own. -/
theorem Alert.register (h : r.Alert id stage) (hr : ∀ i ∈ r.receivers, i.number ≤ r.issued)
    (pattern : Address) (key : String) (t : Tree) :
    (r.register pattern key t).2.Alert id stage := by
  have hreceivers : id ∈ r.receivers → id ∈ (r.register pattern key t).2.receivers := by
    intro hid
    rw [receivers, show (r.register pattern key t).2.bells = r.bells ++ _ from rfl, List.map_append]
    exact List.mem_append_left _ hid
  by_cases hid : id = ⟨r.issued + 1⟩
  · subst hid
    refine h.rung ?_ hreceivers
    rw [bell_register hr, bell_of_not_mem (not_mem_of_issued hr)]
  · exact h.spares (register_spares hid pattern key t) hreceivers

/-- A consumer stays alert when a mailbox is emptied, be it its own. -/
theorem Alert.take (h : r.Alert id stage) (i : WatchId) : (r.take i).2.Alert id stage := by
  have hreceivers : (r.take i).2.receivers = r.receivers := (take_handed r i).receivers
  by_cases hid : id = i
  · subst hid
    have hbell : (r.take id).2.bell id = r.bell id := by
      unfold Registry.take
      split
      · rfl
      · split <;> rfl
    cases stage with
    | idle | looking =>
      rw [Alert, hbell]
      exact h
    | turning =>
      rw [Alert, hbell, hreceivers]
      refine ⟨h.1, fun hstill => ?_⟩
      obtain ⟨w, hw, hempty⟩ := h.2 hstill
      rw [take_empty hw hempty]
      exact ⟨w, hw, hempty⟩
  · exact h.spares (take_spares r hid) fun hid => hreceivers ▸ hid

/-- A consumer stays alert when a watch ends, be it its own: that rings its bell. -/
theorem Alert.release (h : r.Alert id stage) (hr : r.Numbered) (i : WatchId) :
    (r.release i).Alert id stage := by
  have hreceivers : (r.release i).receivers = r.receivers := receivers_release r i
  by_cases hid : id = i
  · subst hid
    cases hw : r.find? id with
    | none =>
      rw [Registry.release, hw]
      exact h
    | some w =>
      refine h.rung ?_ fun hid => hreceivers ▸ hid
      rw [Registry.release, hw]
      exact bell_updateBell r .ring (hr.mem_receivers hw)
  · exact h.spares (release_spares r hid) fun hid => hreceivers ▸ hid

/-- A consumer stays alert when another receiver is dropped; its own takes it along. -/
theorem Alert.drop_of_ne (h : r.Alert id stage) (hid : id ≠ i) : (r.drop i).Alert id stage := by
  refine h.spares (drop_spares r hid) fun hmem => ?_
  rw [← receivers_release r i] at hmem
  obtain ⟨entry, hentry, rfl⟩ := List.mem_map.1 hmem
  exact List.mem_map_of_mem (List.mem_filter.2 ⟨hentry, by simpa using hid⟩)

theorem drop_alert (r : Registry) (id : WatchId) : (r.drop id).Alert id .idle := by
  have hid : id ∉ (r.drop id).receivers := by
    intro hmem
    obtain ⟨entry, hentry, rfl⟩ := List.mem_map.1 hmem
    simpa using (List.mem_filter.1 hentry).2
  rw [Alert, bell_of_not_mem hid]
  rfl

theorem Alert.updateBell_of_ne (h : r.Alert id stage) (hid : id ≠ i) (f : Bell → Bell) :
    (r.updateBell i f).Alert id stage :=
  h.spares (updateBell_spares r f hid) fun hmem => receivers_updateBell r i f ▸ hmem

theorem cancel_alert (r : Registry) (id : WatchId) : (r.cancel id).Alert id .idle := by
  rw [Alert, cancel]
  by_cases hid : id ∈ r.receivers
  · rw [bell_updateBell r _ hid]
    exact Bell.waiter_cancel _
  · rw [bell_of_not_mem fun hmem => hid (receivers_updateBell r id .cancel ▸ hmem)]
    rfl

/-- A mailbox is found empty only if it is, and belongs to a registered watch. -/
theorem take_eq_empty (h : r.take id = (.empty, r')) :
    r' = r ∧ ∃ w, r.find? id = some w ∧ w.pending = none := by
  unfold Registry.take at h
  split at h
  · cases h
  · next w hw =>
    split at h
    · next hempty =>
      cases h
      exact ⟨rfl, w, hw, hempty⟩
    · cases h

/-- The steps of a consumer keep it alert. -/
theorem Alert.goOn (h : r.Alert id stage) (hr : r.Numbered) :
    (r.goOn id stage).2.2.Alert id (r.goOn id stage).2.1 := by
  cases stage with
  | idle => exact h
  | looking =>
    have hidle : r.Alert id .idle := h
    have htaken : (r.take id).2.Alert id .idle := hidle.take id
    rw [goOn_looking]
    rcases hserved : r.take id with ⟨found | _ | _, r'⟩ <;> rw [hserved] at htaken
    · exact htaken
    · obtain ⟨rfl, w, hw, hempty⟩ := take_eq_empty hserved
      exact ⟨hr.mem_receivers hw, fun _ => ⟨w, hw, hempty⟩⟩
    · exact htaken
  | turning =>
    obtain ⟨hid, hempty⟩ := h
    cases hbell : r.bell id with
    | mk stored waiter =>
      cases waiter with
      | parked =>
        have hgo : r.goOn id .turning = (none, .turning, r) := by
          simp only [Registry.goOn, hbell]
        rw [hgo]
        exact ⟨hid, hempty⟩
      | woken =>
        have hgo : r.goOn id .turning =
            (none, .looking, r.updateBell id fun b => b.wait.2) := by
          simp only [Registry.goOn, hbell]
        rw [hgo, Alert, bell_updateBell r _ hid, hbell]
        rfl
      | away =>
        cases stored with
        | true =>
          have hgo : r.goOn id .turning =
              (none, .looking, r.updateBell id fun _ => ⟨false, .away⟩) := by
            simp only [Registry.goOn, hbell]
            rfl
          rw [hgo, Alert, bell_updateBell r _ hid]
        | false =>
          -- Nothing was delivered since the look, or a ring would be stored.
          have hgo : r.goOn id .turning =
              (none, .turning, r.updateBell id fun _ => ⟨false, .parked⟩) := by
            simp only [Registry.goOn, hbell]
            rfl
          have hstill : (r.bell id).Still := by rw [hbell]; exact ⟨rfl, nofun⟩
          rw [hgo]
          exact ⟨receivers_updateBell r id _ ▸ hid, fun _ => hempty hstill⟩

/-- The steps of a consumer keep the others alert. -/
theorem Alert.goOn_of_ne (h : r.Alert id stage) (hid : id ≠ i) (stage' : Stage) :
    (r.goOn i stage').2.2.Alert id stage := by
  cases stage' with
  | idle => exact h
  | looking =>
    rw [snd_goOn_looking]
    exact h.take i
  | turning =>
    rw [Registry.goOn]
    split
    · exact h
    · exact h.updateBell_of_ne hid _
    · exact h.updateBell_of_ne hid _

end Registry

end Switchboard
