import Switchboard.Proofs.Store.Sound
import Switchboard.Proofs.Watch.Asking
/-!
# Consumers that keep up

Calls that are made by others reach a watch in one way only: a write may deliver a new result. If
it does not, the query still finds the same (`Store.delivered_or_undisturbed`). A consumer keeps up
with its watch (`Store.Attends`) if it is not asleep while its mailbox is filled, and if, while its
mailbox is empty, what it has noted is right for the present result. Calls of others leave it
keeping up (`Store.Attends.call`). When it asks, it is handed the present result and nothing older,
or it is handed nothing and waits (`Store.Attends.poll`).

`Store.InOrder` collects what holds of a store in every state of a run.
-/

namespace Switchboard

/-- The watch whose consumer makes the call. -/
def Call.consumer? : Call → Option WatchId
  | .take id | .poll id | .cancel id | .release id | .drop id => some id
  | .get _ | .expand _ | .write _ | .watch _ => none

namespace Store

variable {s s' : Store} {c : Call} {calls : List Call} {id : WatchId} {w : Watch}
  {knows : Matches → Prop} {found : Matches}

/-! ## Stores in order -/

/-- A store as some run can leave it. -/
structure InOrder (s : Store) : Prop where
  sound : ∃ history, s.Sound history
  numbered : s.registry.Numbered
  /-- The numbers of the receivers were given out. -/
  receivers : ∀ id ∈ s.registry.receivers, id.number ≤ s.registry.issued

/-- A watch that was registered has the next number. -/
theorem watch_eq_ok {text : String} (h : s.watch text = .ok (id, s')) :
    ∃ pattern, s.parse text = .ok pattern ∧ id = ⟨s.registry.issued + 1⟩ ∧
      s' = { s with registry := (s.registry.register pattern text s.tree).2 } := by
  unfold watch at h
  cases hparse : s.parse text with
  | error e =>
    rw [hparse] at h
    cases h
  | ok pattern =>
    rw [hparse] at h
    cases h
    exact ⟨pattern, rfl, rfl, rfl⟩

theorem issued_le_call (s : Store) (c : Call) :
    s.registry.issued ≤ (s.call c).2.registry.issued := by
  rcases (call_step s c).watching_or_kept with ⟨pattern, text, -, -, hregistry⟩ | hkept
  · rw [hregistry]
    exact Nat.le_succ _
  · exact Nat.le_of_eq hkept.issued.symm

/-- Only a registration adds a receiver. -/
theorem receivers_call (hc : ∀ text, c ≠ .watch text) :
    (s.call c).2.registry.receivers ⊆ s.registry.receivers := by
  cases c with
  | watch text => exact absurd rfl (hc text)
  | get url =>
    simp only [call]
    cases s.get url <;> exact List.Subset.refl _
  | expand text =>
    simp only [call]
    cases s.expand text <;> exact List.Subset.refl _
  | write w =>
    simp only [call]
    cases hw : s.write w with
    | mk outcome s' =>
      cases outcome with
      | ok n =>
        obtain ⟨a, hwrote⟩ := write_wrote hw
        have hsame : (s.registry.evaluate s'.tree).receivers = s.registry.receivers :=
          Registry.map_fst_map fun _ => rfl
        show s'.registry.receivers ⊆ _
        rw [hwrote.state, ← hsame]
        exact List.Subset.refl _
      | error e =>
        cases write_eq_error hw
        exact List.Subset.refl _
  | take id => exact (Registry.take_handed s.registry id).receivers ▸ List.Subset.refl _
  | poll id => exact (Registry.poll_handed s.registry id).receivers ▸ List.Subset.refl _
  | cancel id =>
    exact Registry.receivers_updateBell s.registry id .cancel ▸ List.Subset.refl _
  | release id => exact Registry.receivers_release s.registry id ▸ List.Subset.refl _
  | drop id =>
    rw [← Registry.receivers_release s.registry id]
    exact (List.filter_sublist.map Prod.fst).subset

namespace InOrder

theorem new (scheme : String) : (Store.new scheme).InOrder where
  sound := ⟨[], .new scheme⟩
  numbered := .new
  receivers := nofun

theorem call (h : s.InOrder) (c : Call) : (s.call c).2.InOrder where
  sound := h.sound.imp' _ fun _ hsound => hsound.call c
  numbered := numbered_call h.numbered c
  receivers := by
    intro id hid
    by_cases hc : ∃ text, c = .watch text
    · obtain ⟨text, rfl⟩ := hc
      cases hwatch : s.watch text with
      | error e =>
        simp only [Store.call, hwatch] at hid ⊢
        exact h.receivers id hid
      | ok result =>
        obtain ⟨new, s'⟩ := result
        simp only [Store.call, hwatch] at hid ⊢
        obtain ⟨pattern, -, -, rfl⟩ := watch_eq_ok hwatch
        rw [Registry.receivers, List.mem_map] at hid
        obtain ⟨entry, hentry, rfl⟩ := hid
        rcases List.mem_append.1 hentry with hold | hnew
        · exact Nat.le_succ_of_le (h.receivers _ (List.mem_map_of_mem hold))
        · cases List.mem_singleton.1 hnew
          exact Nat.le_refl _
    · have hold := receivers_call (s := s) (not_exists.1 hc) hid
      exact Nat.le_trans (h.receivers id hold) (issued_le_call s c)

theorem after (h : s.InOrder) (calls : List Call) : (s.after calls).InOrder := by
  induction calls generalizing s with
  | nil => exact h
  | cons c calls ih => exact ih (h.call c)

/-- A watch that is found is up to date. -/
theorem fresh (h : s.InOrder) (hw : s.registry.find? id = some w) : w.Fresh s.scheme s.tree := by
  obtain ⟨history, hsound⟩ := h.sound
  exact hsound.fresh id w (Registry.mem_of_find? hw)

theorem mem_receivers (h : s.InOrder) (hw : s.registry.find? id = some w) :
    id ∈ s.registry.receivers :=
  h.numbered.mem_receivers hw

/-- Whoever asks for the query of a watch gets the result that the watch would deliver. -/
theorem expand_key (h : s.InOrder) (hw : s.registry.find? id = some w) :
    s.expand w.key = .ok (w.result s.tree) := by
  have hfresh := h.fresh hw
  have hparse : s.parse w.key = .ok w.pattern := by
    rw [parse, hfresh.key]
    exact if_pos hfresh.scheme
  rw [expand, hparse]
  rfl

end InOrder

/-! ## Calls of others -/

/-- A call that somebody else makes leaves a watch and its bell alone, unless it writes. -/
theorem undisturbed_call (h : s.InOrder) (hw : s.registry.find? id = some w)
    (hc : c.consumer? ≠ some id) (hwrite : ∀ w, c ≠ .write w) :
    Registry.Undisturbed s.registry (s.call c).2.registry id w := by
  have hsame : Registry.Undisturbed s.registry s.registry id w := ⟨hw, rfl⟩
  have hne : ∀ i, c.consumer? = some i → id ≠ i := fun i hi heq => hc (heq ▸ hi)
  cases c with
  | get url =>
    simp only [call]
    cases s.get url <;> exact hsame
  | expand text =>
    simp only [call]
    cases s.expand text <;> exact hsame
  | write write => exact absurd rfl (hwrite write)
  | watch text =>
    simp only [call, watch]
    cases s.parse text with
    | error e => exact hsame
    | ok pattern => exact Registry.register_undisturbed h.numbered hw pattern text s.tree
  | take i => exact (Registry.take_spares s.registry (hne i rfl)).undisturbed hw
  | poll i => exact (Registry.poll_spares s.registry (hne i rfl)).undisturbed hw
  | cancel i => exact (Registry.updateBell_spares s.registry .cancel (hne i rfl)).undisturbed hw
  | release i => exact (Registry.release_spares s.registry (hne i rfl)).undisturbed hw
  | drop i => exact (Registry.drop_spares s.registry (hne i rfl)).undisturbed hw

/-- Only a write changes the tree. -/
theorem tree_call (hwrite : ∀ w, c ≠ .write w) : (s.call c).2.tree = s.tree := by
  rcases (call_step s c).written_or_same with ⟨p, left, hpath, -⟩ | ⟨htree, -⟩
  · cases c with
    | write w => exact absurd rfl (hwrite w)
    | get | expand | watch | take | poll | cancel | release | drop => cases hpath
  · exact htree

/-- A run of calls that are neither writes nor made by the consumer of the watch `id`. -/
def Quiet (calls : List Call) (id : WatchId) : Prop :=
  ∀ c ∈ calls, c.consumer? ≠ some id ∧ ∀ w, c ≠ .write w

theorem Quiet.append {calls' : List Call} (h : Quiet calls id) (h' : Quiet calls' id) :
    Quiet (calls ++ calls') id :=
  fun c hc => (List.mem_append.1 hc).elim (h c) (h' c)

/-- To register a watch and to look into its mailbox at once concerns no other watch. -/
theorem quiet_open {id' : WatchId} {text : String} (hne : id ≠ id') :
    Quiet [.watch text, .take id] id' := by
  intro c hc
  rcases List.mem_cons.1 hc with rfl | hc
  · exact ⟨nofun, nofun⟩
  · cases List.mem_singleton.1 hc
    exact ⟨fun heq => hne (Option.some.inj heq), nofun⟩

/-- A run without writes leaves the watches of others alone, and the tree as it is. -/
theorem undisturbed_after (h : s.InOrder) (hw : s.registry.find? id = some w)
    (hquiet : Quiet calls id) :
    Registry.Undisturbed s.registry (s.after calls).registry id w ∧
      (s.after calls).tree = s.tree := by
  induction calls generalizing s with
  | nil => exact ⟨⟨hw, rfl⟩, rfl⟩
  | cons c calls ih =>
    obtain ⟨hc, hwrite⟩ := hquiet c List.mem_cons_self
    have hfirst := undisturbed_call h hw hc hwrite
    obtain ⟨hrest, htree⟩ := ih (h.call c) hfirst.watch fun c' hc' =>
      hquiet c' (List.mem_cons_of_mem c hc')
    exact ⟨⟨hrest.watch, hrest.bell.trans hfirst.bell⟩, htree.trans (tree_call hwrite)⟩

/-- A call that somebody else makes delivers a new result to a watch, or the watch and its bell stay
as they are, and then its query finds what it found before. -/
theorem delivered_or_undisturbed (h : s.InOrder) (hw : s.registry.find? id = some w)
    (hc : c.consumer? ≠ some id) :
    Registry.Delivered s.registry (s.call c).2.registry (s.call c).2.tree id w ∨
      (Registry.Undisturbed s.registry (s.call c).2.registry id w ∧
        w.result (s.call c).2.tree = w.result s.tree) := by
  by_cases hwrite : ∃ write, c = .write write
  · obtain ⟨write, rfl⟩ := hwrite
    simp only [call]
    cases hwritten : s.write write with
    | mk outcome s' =>
      cases outcome with
      | error e =>
        cases write_eq_error hwritten
        exact .inr ⟨⟨hw, rfl⟩, rfl⟩
      | ok n =>
        obtain ⟨a, hwrote⟩ := write_wrote hwritten
        obtain ⟨history, hsound⟩ := h.sound
        have hregistry : s'.registry = s.registry.evaluate s'.tree :=
          congrArg Store.registry hwrote.state
        dsimp only
        rw [hregistry]
        by_cases hstale : w.isStale s'.tree = true
        · exact .inl (Registry.evaluate_delivered h.numbered hw (h.fresh hw) hstale)
        · exact .inr ⟨Registry.evaluate_undisturbed h.numbered hw hstale,
            ((h.fresh hw).result_eq (hsound.renewed hwrote) hstale).symm⟩
  · have hother := not_exists.1 hwrite
    exact .inr ⟨undisturbed_call h hw hc hother, by rw [tree_call hother]⟩

/-! ## Keeping up -/

/-- What is in the mailbox of a watch, unread. -/
def unread (s : Store) (id : WatchId) : Option Matches :=
  (s.registry.find? id).bind Watch.pending

/-- The consumer of the watch `w` keeps up with it: it does not sleep while its mailbox is filled,
and while it is empty, what the consumer `knows` is right for the present result. -/
structure Attends (s : Store) (id : WatchId) (w : Watch) (knows : Matches → Prop) : Prop where
  registered : s.registry.find? id = some w
  heeds : s.registry.Heeds id w
  told : w.pending = none → knows (w.result s.tree)

namespace Attends

theorem imp {knows' : Matches → Prop} (h : s.Attends id w knows)
    (himp : ∀ found, knows found → knows' found) : s.Attends id w knows' where
  registered := h.registered
  heeds := h.heeds
  told := fun hempty => himp _ (h.told hempty)

theorem unread_eq (h : s.Attends id w knows) : s.unread id = w.pending := by
  rw [unread, h.registered, Option.bind_some]

/-- Where nothing has happened to its watch, a consumer keeps up. -/
theorem undisturbed (h : s.Attends id w knows)
    (hsame : Registry.Undisturbed s.registry s'.registry id w)
    (hresult : w.result s'.tree = w.result s.tree) : s'.Attends id w knows where
  registered := hsame.watch
  heeds := by
    rw [Registry.Heeds, hsame.bell]
    exact h.heeds
  told := by
    rw [hresult]
    exact h.told

/-- Calls of others leave a consumer keeping up. They do not empty its mailbox, and a consumer that
waits is not sent away. -/
theorem call (h : s.Attends id w knows) (hs : s.InOrder) (hc : c.consumer? ≠ some id) :
    ∃ w', (s.call c).2.Attends id w' knows ∧ w'.key = w.key ∧
      (w'.pending = none → w.pending = none) ∧
      ((s.registry.bell id).waiter ≠ .away →
        ((s.call c).2.registry.bell id).waiter ≠ .away) := by
  rcases delivered_or_undisturbed hs h.registered hc with hdelivered | ⟨hsame, hresult⟩
  · refine ⟨_, ⟨hdelivered.watch, ?_, nofun⟩, rfl, nofun, ?_⟩
    · -- The ring of the delivery has woken a consumer that waited.
      rw [Registry.Heeds, hdelivered.bell]
      exact fun hparked => absurd hparked (Bell.waiter_ring_ne_parked _)
    · rw [hdelivered.bell]
      exact Bell.waiter_ring_ne_away
  · refine ⟨w, h.undisturbed hsame hresult, rfl, fun hempty => hempty, ?_⟩
    rw [hsame.bell]
    exact fun hwaits => hwaits

/-- A consumer that finds its mailbox filled is handed the present result, and knows it then. -/
theorem poll_filled (h : s.Attends id w knows) (hs : s.InOrder) (hfound : w.pending = some found) :
    s.poll id = (.ready (w.result s.tree), (s.call (.poll id)).2) ∧
      (s.call (.poll id)).2.Attends id { w with pending := none } (· = w.result s.tree) := by
  obtain ⟨r', hpoll, hfind, -⟩ :=
    Registry.poll_filled h.registered (hs.mem_receivers h.registered) h.heeds hfound
  have hresult := (hs.fresh h.registered).pending found hfound
  have hcall : s.poll id = (.ready found, { s with registry := r' }) := by
    rw [poll, hpoll]
  have hstate : (s.call (.poll id)).2 = { s with registry := r' } := congrArg Prod.snd hcall
  rw [hstate, ← hresult]
  exact ⟨hcall, hfind, fun _ => rfl, fun _ => hresult.symm⟩

/-- A consumer that finds its mailbox empty waits. -/
theorem poll_empty (h : s.Attends id w knows) (hs : s.InOrder) (hempty : w.pending = none) :
    s.poll id = (.empty, (s.call (.poll id)).2) ∧ (s.call (.poll id)).2.Attends id w knows ∧
      ((s.call (.poll id)).2.registry.bell id).waiter = .parked := by
  obtain ⟨r', hpoll, hfind, hparked⟩ :=
    Registry.poll_empty h.registered (hs.mem_receivers h.registered) hempty
  have hcall : s.poll id = (.empty, { s with registry := r' }) := by
    rw [poll, hpoll]
  have hstate : (s.call (.poll id)).2 = { s with registry := r' } := congrArg Prod.snd hcall
  rw [hstate]
  exact ⟨hcall, ⟨hfind, fun _ => hempty, h.told⟩, hparked⟩

end Attends

/-! ## New watches -/

/-- Whoever registers a watch keeps up with it from then on: the first result is in the mailbox. -/
theorem watch_attends (hs : s.InOrder) {text : String} (h : s.watch text = .ok (id, s')) :
    ∃ w, s'.Attends id w (fun _ => False) ∧ w.key = text ∧ w.pending = some (w.result s'.tree) := by
  obtain ⟨pattern, -, rfl, rfl⟩ := watch_eq_ok h
  refine ⟨.first pattern text s.tree, ⟨?_, fun hparked => ?_, nofun⟩, rfl, rfl⟩
  · exact Registry.find?_register hs.numbered pattern text s.tree
  · have hbell := Registry.bell_register hs.receivers pattern text s.tree
    cases (congrArg Bell.waiter hbell).symm.trans hparked

/-- The consumer of a new watch looks into its mailbox. -/
theorem Attends.take_filled (h : s.Attends id w knows) (hs : s.InOrder)
    (hfound : w.pending = some found) :
    s.take id = (.ready (w.result s.tree), (s.call (.take id)).2) ∧
      (s.call (.take id)).2.Attends id { w with pending := none } (· = w.result s.tree) := by
  have hcall : s.take id = (.ready found,
      { s with registry := { s.registry with watches := s.registry.emptied id } }) := by
    rw [take, Registry.take_filled h.registered hfound]
  have hstate : (s.call (.take id)).2 =
      { s with registry := { s.registry with watches := s.registry.emptied id } } :=
    congrArg Prod.snd hcall
  rw [hstate, ← (hs.fresh h.registered).pending found hfound]
  refine ⟨hcall, Registry.find?_emptied_self h.registered, fun _ => rfl, fun _ => ?_⟩
  exact ((hs.fresh h.registered).pending found hfound).symm

end Store

end Switchboard
