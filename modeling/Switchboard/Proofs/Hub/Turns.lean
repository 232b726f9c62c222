import Mathlib
import Switchboard.Proofs.Hub.Ledger
/-!
# Tasks come, go on and go

A hub that is accounted for stays so when a task starts with watches that were nobody's before, when
a task that owns nothing is forgotten, and when the task at the head of the line makes a step
(`Hub.turned`). So it does in a run of any length.
-/

namespace Switchboard

open Store (Trades)

variable {h h' : Hub} {b : Books} {s : Store} {t t' : Task} {id : TaskId} {rest : List TaskId}
  {progress : Progress}

namespace Hub

/-- The hub after a step of the first task in the line. -/
def turned (h : Hub) (id : TaskId) (rest : List TaskId) : Progress × Task × Store → Hub
  | (progress, t, s) =>
    let h := h.updateTask id fun _ => t
    let h := if progress = .runs then h else { h with line := rest }
    let h := if h.isForgotten id t then
        { h with tasks := h.tasks.filter fun entry => entry.1 ≠ id }
      else h
    h.withStore s

/-- A step of a hub is a step of the first task in its line. -/
theorem step_of_lookup (hline : h.line = id :: rest) (hlookup : h.tasks.lookup id = some t) :
    h.step = some (h.turned id rest (t.step h.clock h.timeout h.store)) := by
  simp only [step, hline, hlookup]
  rfl

/-- A task that is gone leaves the line. -/
theorem step_of_lookup_none (hline : h.line = id :: rest) (hlookup : h.tasks.lookup id = none) :
    h.step = some { h with line := rest } := by
  simp only [step, hline, hlookup]

namespace Accounted

/-- A task starts with watches that were nobody's before. -/
theorem spawn (H : h.Accounted b) (rules requests : List (String × TaskId))
    {spare : Multiset WatchId} (hspare : b.spare = spare + t.owned)
    (hrules : (rules.map Prod.fst).Nodup) (hkept : h.rules.map Prod.snd ⊆ rules.map Prod.snd)
    (htended : ∀ r, t = .rule r → r.isAlive = true → r.watch.Fits r.rule.condition ∧
      (r.cancelled = true ∨ TaskId.mk (h.started + 1) ∈ rules.map Prod.snd)) :
    Accounted { b with spare } { (h.spawn t).2 with rules, requests } where
  numbered := H.numbered
  ledger := by
    refine H.ledger.trans ?_
    rw [Hub.ledger, Hub.ledger, Hub.spawn, total_append, total_singleton, hspare]
    abel
  released := H.released
  watchNames := H.watchNames
  conditionNames := H.conditionNames
  conditions := H.conditions
  ruleNames := hrules
  taskIds := by
    rw [Hub.spawn, List.map_append, List.nodup_append]
    refine ⟨H.taskIds, List.pairwise_singleton _ _, fun i hi i' hi' => ?_⟩
    obtain ⟨entry, hentry, rfl⟩ := List.mem_map.1 hi
    cases List.mem_singleton.1 hi'
    intro heq
    have hstarted := (H.tasks entry hentry).started
    rw [heq] at hstarted
    exact Nat.not_succ_le_self _ hstarted
  tasks := fun entry hentry => by
    rcases List.mem_append.1 hentry with hold | hnew
    · have htends := H.tasks entry hold
      exact ⟨htends.started.trans (Nat.le_succ _),
        fun hrestless => List.mem_append_left _ (htends.restless hrestless),
        fun r hr halive => (htends.rule r hr halive).imp_right (Or.imp_right (hkept ·))⟩
    · cases List.mem_singleton.1 hnew
      exact ⟨Nat.le_refl _, fun _ => List.mem_append_right _ (List.mem_singleton_self _), htended⟩
  told := fun id watches htells => by
    rcases H.told id watches htells with ⟨r, hr, hbound⟩ | hover
    · exact .inl ⟨r, List.mem_append_left _ hr, hbound⟩
    · refine .inr (hover.mono ?_ (Nat.le_succ _) (.refl H.numbered))
      rintro ⟨r, hr, halive⟩
      rcases List.mem_append.1 hr with hold | hnew
      · exact ⟨r, hold, halive⟩
      · cases List.mem_singleton.1 hnew
        exact absurd hover.started (Nat.not_succ_le_self _)

/-- A task that owns nothing and does nothing is forgotten. -/
theorem forget {requests : List (String × TaskId)} (H : h.Accounted b)
    (howned : ∀ t, (id, t) ∈ h.tasks → t.owned = 0)
    (hdone : ¬ h.Runs id) :
    Accounted b { h with
      requests, tasks := h.tasks.filter fun entry => entry.1 ≠ id } where
  numbered := H.numbered
  ledger := by
    refine H.ledger.trans ?_
    rw [Hub.ledger, Hub.ledger, total_filter]
    rintro ⟨i, t⟩ hentry hi
    obtain rfl : i = id := by simpa using hi
    exact howned t hentry
  released := H.released
  watchNames := H.watchNames
  conditionNames := H.conditionNames
  conditions := H.conditions
  ruleNames := H.ruleNames
  taskIds := nodup_keys_filter H.taskIds
  tasks := fun entry hentry =>
    have htends := H.tasks entry (List.mem_of_mem_filter hentry)
    ⟨htends.started, htends.restless, htends.rule⟩
  told := fun i watches htells => by
    rcases H.told i watches htells with ⟨r, hr, halive, hbound⟩ | hover
    · have hne : i ≠ id := fun heq => hdone ⟨r, heq ▸ hr, halive⟩
      exact .inl ⟨r, List.mem_filter.2 ⟨hr, by simpa using hne⟩, halive, hbound⟩
    · refine .inr (hover.mono ?_ (Nat.le_refl _) (.refl H.numbered))
      rintro ⟨r, hr, halive⟩
      exact ⟨r, List.mem_of_mem_filter hr, halive⟩

/-! ## Steps of a hub -/

theorem mem_update {i : TaskId} {u : Task}
    (h' : (i, u) ∈ (h.updateTask id fun _ => t').tasks) :
    i = id ∧ u = t' ∨ i ≠ id ∧ (i, u) ∈ h.tasks := by
  obtain ⟨⟨i', u'⟩, hu, heq⟩ := List.mem_map.1 h'
  obtain ⟨rfl, rfl⟩ := Prod.mk.inj heq
  by_cases hi : i' = id
  · exact .inl ⟨hi, if_pos hi⟩
  · rw [if_neg hi]
    exact .inr ⟨hi, hu⟩

theorem mem_update_self (hlookup : h.tasks.lookup id = some t) :
    (id, t') ∈ (h.updateTask id fun _ => t').tasks :=
  List.mem_map.2 ⟨(id, t), Keyed.mem_of_lookup hlookup, by simp⟩

theorem mem_update_of_ne {i : TaskId} {u : Task} (hi : i ≠ id) (hu : (i, u) ∈ h.tasks) :
    (i, u) ∈ (h.updateTask id fun _ => t').tasks :=
  List.mem_map.2 ⟨(i, u), hu, by simp [hi]⟩

/-- What a task owns is registered, and apart from that what is owned by others. -/
theorem watched_of_lookup (H : h.Accounted b) (hlookup : h.tasks.lookup id = some t) :
    h.store.watched = t.owned + (b.spare + (total (unreleased b.released) h.watches +
      total ConditionWatch.owned h.conditions) +
      total Task.owned (h.tasks.filter fun entry => entry.1 ≠ id)) := by
  rw [H.ledger, Hub.ledger, total_of_lookup Task.owned H.taskIds hlookup]
  abel

/-- The task of a rule that ends is over when its watches have ended. -/
theorem over_of_ended {r : RuleTask} (H : h.Accounted b)
    (hlookup : h.tasks.lookup id = some (.rule r)) (halive : r.isAlive = true)
    (hended : ¬ h'.Runs id) (hstarted : h'.started = h.started)
    (htrades : Trades h.store h'.store (Task.rule r).owned 0) : h'.Over id r.watch.watches := by
  have hwatched := H.watched_of_lookup hlookup
  have hgave : ∀ watch ∈ r.watch.watches, watch ∈ (Task.rule r).owned := fun watch hwatch => by
    rwa [Task.owned, RuleTask.owned_of_alive halive, ConditionWatch.owned]
  refine ⟨hended, hstarted ▸ (H.tasks _ (Keyed.mem_of_lookup hlookup)).started, fun watch hwatch => ?_,
    fun watch hwatch => htrades.ended H.numbered hwatched (hgave watch hwatch)⟩
  refine (Store.issued_of_mem_watched H.numbered ?_).trans htrades.issued
  rw [hwatched]
  exact Multiset.mem_add.2 (.inl (hgave watch hwatch))

/-- No task lives that did not live before the step of a task. -/
theorem runs_of_update {i : TaskId} (hlookup : h.tasks.lookup id = some t)
    (hbecomes : t.Becomes t') (hruns : (h.updateTask id fun _ => t').Runs i) : h.Runs i := by
  obtain ⟨r, hr, halive⟩ := hruns
  rcases mem_update hr with ⟨rfl, rfl⟩ | ⟨-, hr⟩
  · cases hbecomes with
    | rule goesOn => exact ⟨_, Keyed.mem_of_lookup hlookup, (goesOn halive).1⟩
  · exact ⟨r, hr, halive⟩

/-- A task that is bound to end remains so in the step of some task. -/
theorem ending_stepped {line : List TaskId} {i : TaskId} {watches : List WatchId}
    (H : h.Accounted b) (hlookup : h.tasks.lookup id = some t)
    (hturned : t.Turned h.store (progress, t', s)) (hending : h.Ending i watches) :
    Ending { h.updateTask id fun _ => t' with line, store := s } i watches := by
  obtain ⟨htrades, hbecomes, -⟩ := hturned
  rcases hending with ⟨r, hr, halive, hwatches, hbound⟩ | hover
  · by_cases hi : i = id
    · subst hi
      cases eq_of_mem_of_lookup H.taskIds hlookup hr
      cases hbecomes with
      | @rule _ r' goesOn =>
        by_cases halive' : r'.isAlive = true
        · obtain ⟨-, hgoes⟩ := goesOn halive'
          refine .inl ⟨r', mem_update_self hlookup, halive', ?_, ?_⟩
          · rw [hgoes.feeds.watches, hwatches]
          · rwa [hgoes.cancelled, hgoes.stopping]
        · have howned : (Task.rule r').owned = 0 :=
            RuleTask.owned_of_ended (Bool.eq_false_iff.2 halive')
          dsimp only at htrades
          rw [howned] at htrades
          refine .inr (hwatches ▸ H.over_of_ended hlookup halive ?_ rfl htrades)
          rintro ⟨u, hu, hlives⟩
          rcases mem_update hu with ⟨-, heq⟩ | ⟨hi, -⟩
          · cases heq
            exact halive' hlives
          · exact hi rfl
    · exact .inl ⟨r, mem_update_of_ne hi hr, halive, hwatches, hbound⟩
  · exact .inr (hover.mono (runs_of_update hlookup hbecomes) (Nat.le_refl _) htrades)

/-- Some task makes a step. It may leave the line if it does not run on. -/
theorem stepped {line : List TaskId} (H : h.Accounted b)
    (hlookup : h.tasks.lookup id = some t) (hturned : t.Turned h.store (progress, t', s))
    (hothers : ∀ i ∈ h.line, i ≠ id → i ∈ line) (hself : progress = .runs → id ∈ line) :
    Accounted b { h.updateTask id fun _ => t' with line, store := s } where
  numbered := hturned.trades.numbered
  ledger := by
    have hafter : total Task.owned (h.updateTask id fun _ => t').tasks =
        t'.owned + total Task.owned (h.tasks.filter fun entry => entry.1 ≠ id) :=
      total_update Task.owned H.taskIds hlookup fun _ => t'
    refine (hturned.trades.balance _ (H.watched_of_lookup hlookup)).trans ?_
    rw [Hub.ledger, hafter, Hub.updateTask]
    abel
  released := H.released_of_trades hturned.trades
  watchNames := H.watchNames
  conditionNames := H.conditionNames
  conditions := H.conditions
  ruleNames := H.ruleNames
  taskIds := by
    rw [show ((h.updateTask id fun _ => t').tasks.map Prod.fst) = h.tasks.map Prod.fst from
      List.map_map]
    exact H.taskIds
  tasks := by
    rintro ⟨i, u⟩ hu
    rcases mem_update hu with ⟨rfl, rfl⟩ | ⟨hi, hu⟩
    · have htends := H.tasks _ (Keyed.mem_of_lookup hlookup)
      refine ⟨htends.started, fun hrestless => ?_, ?_⟩
      · by_contra hline
        exact hturned.calm (fun hgoes => hline (hself hgoes)) hrestless
      · rintro r rfl halive
        cases hturned.becomes with
        | rule goesOn =>
          obtain ⟨halive₀, hgoes⟩ := goesOn halive
          obtain ⟨hfits, hregistered⟩ := htends.rule _ rfl halive₀
          exact ⟨hgoes.rule ▸ hgoes.feeds.fits hfits, hgoes.cancelled ▸ hregistered⟩
    · have htends := H.tasks _ hu
      exact ⟨htends.started, fun hrestless => hothers i (htends.restless hrestless) hi, htends.rule⟩
  told := fun i watches htells => H.ending_stepped hlookup hturned (H.told i watches htells)

/-- A task of no more use owns nothing, and is not the living task of a rule. -/
theorem owned_of_isForgotten (h' : h.isForgotten id t = true) :
    t.owned = 0 ∧ ∀ r, t = .rule r → r.isAlive = false := by
  cases t with
  | rule r =>
    obtain ⟨hended, -⟩ := Bool.and_eq_true_iff.1 h'
    rw [Bool.not_eq_true'] at hended
    exact ⟨RuleTask.owned_of_ended hended, fun r' hr => by cases hr; exact hended⟩
  | request q =>
    cases q with
    | cancelled watch =>
      cases watch with
      | none => exact ⟨rfl, nofun⟩
      | some watch => cases h'
    | arrived | waiting | answered => cases h'

/-- The task at the head of the line makes a step. -/
theorem turned (H : h.Accounted b) (hline : h.line = id :: rest)
    (hlookup : h.tasks.lookup id = some t) (hturned : t.Turned h.store (progress, t', s)) :
    (h.turned id rest (progress, t', s)).Accounted b := by
  have hstepped : Accounted b { (if progress = .runs then h.updateTask id fun _ => t'
      else { h.updateTask id fun _ => t' with line := rest }) with store := s } := by
    split
    · exact H.stepped hlookup hturned (fun i hi _ => hi) fun _ => hline ▸ List.mem_cons_self
    · next hwaits =>
      refine H.stepped hlookup hturned (fun i hi hne => ?_) fun hruns => absurd hruns hwaits
      rw [hline] at hi
      exact (List.mem_cons.1 hi).resolve_left hne
  have htasks : (if progress = .runs then h.updateTask id fun _ => t'
      else { h.updateTask id fun _ => t' with line := rest }).tasks =
      (h.updateTask id fun _ => t').tasks := by
    split <;> rfl
  rw [Hub.turned]
  generalize (if progress = .runs then h.updateTask id fun _ => t'
      else { h.updateTask id fun _ => t' with line := rest }) = stepped at *
  split
  · next hforgotten =>
    obtain ⟨howned, hended⟩ := owned_of_isForgotten hforgotten
    have hself : ∀ u, (id, u) ∈ stepped.tasks → u = t' := fun u hu =>
      (mem_update (htasks ▸ hu)).elim And.right fun h => absurd rfl h.1
    refine (hstepped.forget (fun u hu => hself u hu ▸ howned) ?_).rouse
    rintro ⟨r, hr, halive⟩
    rw [hended r (hself _ hr).symm] at halive
    cases halive
  · exact hstepped.rouse

/-- Every step of a hub leaves it accounted for. -/
theorem step (H : h.Accounted b) (hstep : h.step = some h') : h'.Accounted b := by
  cases hline : h.line with
  | nil =>
    rw [Hub.step, hline] at hstep
    cases hstep
  | cons id rest =>
    cases hlookup : h.tasks.lookup id with
    | none =>
      rw [step_of_lookup_none hline hlookup] at hstep
      cases hstep
      refine H.setLine rest h.clock h.requests fun i hi hkept => ?_
      rw [hline] at hi
      rcases List.mem_cons.1 hi with rfl | hi
      · exact absurd hkept (Keyed.lookup_eq_none_iff.1 hlookup)
      · exact hi
    | some t =>
      rw [step_of_lookup hline hlookup] at hstep
      cases hstep
      exact H.turned hline hlookup (t.step_turned H.numbered h.clock h.timeout)

theorem run (H : h.Accounted b) (steps : Nat) : (h.run steps).Accounted b := by
  induction steps generalizing h with
  | zero => exact H
  | succ steps ih =>
    rw [Hub.run]
    cases hstep : h.step with
    | none => exact H
    | some next => exact ih (H.step hstep)

theorem settle (H : h.Accounted b) : h.settle.Accounted b := H.run patience

/-! ## Time -/

theorem enqueue (H : h.Accounted b) (ids : List TaskId) : (h.enqueue ids).Accounted b :=
  H.setLine _ _ _ fun _ hid _ => List.mem_append_left _ hid

theorem moveTo (H : h.Accounted b) (time : Nat) : (h.moveTo time).Accounted b :=
  (H.setLine h.line time h.requests fun _ hid _ => hid).enqueue _

theorem waitUntil (H : h.Accounted b) (target tries : Nat) :
    (h.waitUntil target tries).Accounted b := by
  induction tries generalizing h with
  | zero => exact H
  | succ tries ih =>
    rw [Hub.waitUntil]
    split
    · split
      · exact ih (H.settle.moveTo _)
      · exact H.settle.moveTo _
    · exact H.settle.moveTo _

end Accounted

/-! ## Requests that are waited for -/

@[simp]
theorem clock_withStore (h : Hub) (s : Store) : (h.withStore s).clock = h.clock := rfl

@[simp]
theorem clock_updateTask (h : Hub) (id : TaskId) (f : Task → Task) :
    (h.updateTask id f).clock = h.clock := rfl

theorem clock_turned (h : Hub) (id : TaskId) (rest : List TaskId)
    (stepped : Progress × Task × Store) : (h.turned id rest stepped).clock = h.clock := by
  simp only [turned, clock_withStore, apply_ite Hub.clock, clock_updateTask, ite_self]

theorem clock_step (hstep : h.step = some h') : h'.clock = h.clock := by
  cases hline : h.line with
  | nil =>
    rw [Hub.step, hline] at hstep
    cases hstep
  | cons id rest =>
    cases hlookup : h.tasks.lookup id with
    | none =>
      rw [step_of_lookup_none hline hlookup] at hstep
      cases hstep
      rfl
    | some t =>
      rw [step_of_lookup hline hlookup] at hstep
      cases hstep
      exact clock_turned ..

/-- Time does not pass while a hub settles. -/
theorem clock_run (h : Hub) (steps : Nat) : (h.run steps).clock = h.clock := by
  induction steps generalizing h with
  | zero => rfl
  | succ steps ih =>
    rw [Hub.run]
    cases hstep : h.step with
    | none => rfl
    | some next => exact (ih next).trans (clock_step hstep)

/-- The next alarm is still to come. -/
theorem lt_nextAlarm {time : Nat} (halarm : h.nextAlarm? = some time) : h.clock < time := by
  have hmem := List.min?_mem halarm
  simpa using (List.mem_filter.1 hmem).2

end Hub

end Switchboard
