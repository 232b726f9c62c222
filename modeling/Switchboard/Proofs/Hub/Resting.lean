import Mathlib
import Switchboard.Proofs.Hub.Chronicle
/-!
# While the tasks of rules rest

Whatever happens to a hub at once, the task of at most one rule has its turn in it, and all others
rest: they have the same rule, stand where they stood, and have fired as often as before
(`Hub.after_cases`). Tasks that start later have other numbers.

In between all bells that were rung have been passed on (`Hub.Roused`), so that a turn in which no
bell of others rings leaves them as they are.
-/

namespace Switchboard

/-! ## Bells are passed on -/

namespace ConditionWatch

variable {w : ConditionWatch} {s s' : Store}

/-- Feeds that were woken are in the queue when they have been put there. -/
theorem woken_rouse (w : ConditionWatch) (s : Store) : (w.rouse s).woken s = [] := by
  refine List.filter_eq_nil_iff.2 fun i hi hwoken => ?_
  obtain ⟨hqueue, hrung⟩ := Bool.and_eq_true_iff.1 hwoken
  have hnot : i ∉ w.queue ++ w.woken s := by
    rw [Bool.not_eq_true', ← Bool.not_eq_true, List.contains_iff_mem] at hqueue
    exact hqueue
  refine hnot (List.mem_append_right _ (List.mem_filter.2 ⟨hi, Bool.and_eq_true_iff.2 ⟨?_, hrung⟩⟩))
  simpa using fun hmem => hnot (List.mem_append_left _ hmem)

theorem rouse_of_woken (h : w.woken s = []) : w.rouse s = w := by
  rw [rouse, h, List.append_nil]

/-- Only what stands in the queue and the bells of the feeds matter. -/
theorem woken_congr {w' : ConditionWatch} (hfeeds : w'.feeds = w.feeds)
    (hqueue : ∀ i, i ∈ w'.queue ↔ i ∈ w.queue)
    (hbells : ∀ id ∈ w.watches, s'.registry.bell id = s.registry.bell id) :
    w'.woken s' = w.woken s := by
  rw [woken, woken, hfeeds]
  refine List.filter_congr fun i _ => ?_
  have hcontains : w'.queue.contains i = w.queue.contains i := by
    rw [Bool.eq_iff_iff, List.contains_iff_mem, List.contains_iff_mem]
    exact hqueue i
  rw [hcontains]
  cases hfeed : w.feeds[i]? with
  | none => rfl
  | some feed =>
    have hmem : feed.watch ∈ w.watches := List.mem_map_of_mem (List.mem_of_getElem? hfeed)
    simp only [Option.any_some, hbells feed.watch hmem]

/-- All feeds of a condition stand in the queue at first. -/
theorem woken_start {c : Condition} {s₀ : Store} (h : start s₀ c = (.ok w, s)) (s' : Store) :
    w.woken s' = [] := by
  unfold start at h
  split at h
  · rcases hopened : openFeeds s₀ c.leaves with ⟨e | feeds, s₁⟩ <;> rw [hopened] at h <;> cases h
    refine List.filter_eq_nil_iff.2 fun i hi => ?_
    simp [List.mem_range.1 hi]
  · cases h

end ConditionWatch

namespace Task

variable {t : Task} {s : Store}

/-- No feed of the task is still to be told that its bell was rung. -/
def IsRoused (s : Store) : Task → Prop
  | rule t => t.watch.woken s = []
  | request _ => True

theorem isRoused_rouse (t : Task) (s : Store) : (t.rouse s).IsRoused s := by
  cases t with
  | rule t => exact t.watch.woken_rouse s
  | request t => trivial

theorem rouse_of_isRoused (h : t.IsRoused s) : t.rouse s = t := by
  cases t with
  | rule t => exact congrArg (fun w => rule { t with watch := w }) (ConditionWatch.rouse_of_woken h)
  | request t => rfl

/-- The task of a rule whose feeds have been told is not woken any more. -/
theorem isWoken_of_isRoused {t : RuleTask} (h : IsRoused s (rule t)) :
    (rule t).isWoken s = false := by
  have hnone : t.watch.woken s = [] := h
  rw [isWoken, hnone]
  exact Bool.and_false _

/-- Only the bells of its own watches wake a task. -/
theorem isWoken_congr {s' : Store}
    (hbells : ∀ id ∈ t.owned, s'.registry.bell id = s.registry.bell id) :
    t.isWoken s' = t.isWoken s := by
  cases t with
  | rule t =>
    by_cases halive : t.isAlive = true
    · have howned : (rule t).owned = t.watch.owned := RuleTask.owned_of_alive halive
      have hwoken : t.watch.woken s' = t.watch.woken s :=
        ConditionWatch.woken_congr rfl (fun _ => Iff.rfl) fun id hid =>
          hbells id (by rw [howned]; exact Multiset.mem_coe.2 hid)
      rw [isWoken, isWoken, hwoken]
    · rw [Bool.not_eq_true] at halive
      rw [isWoken, isWoken, halive, Bool.false_and, Bool.false_and]
  | request t =>
    cases t with
    | waiting p => rw [isWoken, isWoken, hbells p.watch (Multiset.mem_singleton_self _)]
    | arrived | answered | cancelled => rfl

end Task

namespace Hub

variable {h h' : Hub}

/-- All bells that were rung have been passed on: to the feeds of the tasks, and to the tasks, which
stand in the line. -/
def Roused (h : Hub) : Prop :=
  ∀ id t, (id, t) ∈ h.tasks →
    t.IsRoused h.store ∧ (t.isWoken h.store = true → id ∈ h.line)

theorem mem_enqueue {id : TaskId} {ids : List TaskId} (hid : id ∈ ids) :
    id ∈ (h.enqueue ids).line := by
  by_cases hline : id ∈ h.line
  · exact List.mem_append_left _ hline
  · exact List.mem_append_right _ (List.mem_filter.2 ⟨hid, by simpa using hline⟩)

theorem roused_rouse (h : Hub) : h.rouse.Roused := by
  intro id t ht
  obtain ⟨⟨i, u⟩, hu, heq⟩ := List.mem_map.1 ht
  obtain ⟨rfl, rfl⟩ := Prod.mk.inj heq
  refine ⟨u.isRoused_rouse h.store, fun hwoken => mem_enqueue ?_⟩
  cases u with
  | rule u =>
    have hquiet := Task.isWoken_of_isRoused ((Task.rule u).isRoused_rouse h.store)
    cases hquiet.symm.trans hwoken
  | request u => exact List.mem_map_of_mem (List.mem_filter.2 ⟨hu, hwoken⟩)

/-- Where no bell has been rung in vain, no task joins the line. -/
theorem line_rouse (hquiet : ∀ id t, (id, t) ∈ h.tasks → t.isWoken h.store = true → id ∈ h.line) :
    h.rouse.line = h.line := by
  have hnone : (h.tasksWhere fun t => t.isWoken h.store).filter
      (fun id => !h.line.contains id) = [] := by
    refine List.filter_eq_nil_iff.2 fun id hid => ?_
    obtain ⟨⟨i, t⟩, ht, rfl⟩ := List.mem_map.1 hid
    obtain ⟨hmem, hwoken⟩ := List.mem_filter.1 ht
    simpa using hquiet i t hmem hwoken
  exact (congrArg (h.line ++ ·) hnone).trans (List.append_nil _)

end Hub

/-! ## Tasks rest -/

/-- From `t` to `t'` the task has not done anything. Feeds may have come back into the queue, or
have changed places in it. -/
structure RuleTask.Rests (t t' : RuleTask) : Prop where
  rule : t'.rule = t.rule
  phase : t'.phase = t.phase
  fired : t'.fired = t.fired
  cancelled : t.cancelled = true → t'.cancelled = true
  working : t'.working = t.working
  watch : ∃ queue, t'.watch = { t.watch with queue }

namespace RuleTask

theorem Rests.refl (t : RuleTask) : t.Rests t :=
  ⟨rfl, rfl, rfl, id, rfl, _, rfl⟩

theorem Rests.isAborted {t t' : RuleTask} (h : t.Rests t') (haborted : t.isAborted = true) :
    t'.isAborted = true := by
  obtain ⟨hcancelled, hwaits⟩ := Bool.and_eq_true_iff.1 haborted
  rw [RuleTask.isAborted, h.cancelled hcancelled, h.working, hwaits]
  rfl

theorem Rests.poised {t t' : RuleTask} (h : t.Rests t') (hpoised : t.Poised) : t'.Poised := by
  rw [Poised, IsEngaged, h.working, h.phase]
  exact hpoised

theorem rests_cancel (t : RuleTask) : t.Rests t.cancel :=
  ⟨rfl, rfl, rfl, fun _ => rfl, rfl, _, rfl⟩

theorem rests_stop (t : RuleTask) : t.Rests t.stop := by
  unfold stop
  split <;> exact ⟨rfl, rfl, rfl, id, rfl, _, rfl⟩

theorem watch_stop (t : RuleTask) : t.stop.watch = t.watch := by
  unfold stop
  split <;> rfl

end RuleTask

namespace Task

/-- The task of a rule has not done anything. -/
inductive Rests : Task → Task → Prop
  | rule {t t' : RuleTask} (h : t.Rests t') : Rests (.rule t) (.rule t')
  | request (t t' : RequestTask) : Rests (.request t) (.request t')

theorem Rests.refl (t : Task) : Rests t t := by
  cases t with
  | rule t => exact .rule (.refl t)
  | request t => exact .request t t

theorem Rests.trans {t t' t'' : Task} (h : Rests t t') (h' : Rests t' t'') : Rests t t'' := by
  cases h with
  | rule h =>
    cases h' with
    | rule h' =>
      obtain ⟨queue, hwatch⟩ := h.watch
      obtain ⟨queue', hwatch'⟩ := h'.watch
      exact .rule ⟨h'.rule.trans h.rule, h'.phase.trans h.phase, h'.fired.trans h.fired,
        fun hcancelled => h'.cancelled (h.cancelled hcancelled), h'.working.trans h.working, queue',
        by rw [hwatch', hwatch]⟩
  | request t t' =>
    cases h' with
    | request _ t'' => exact .request t t''

theorem rests_rouse (t : Task) (s : Store) : Rests t (t.rouse s) := by
  cases t with
  | rule t => exact .rule ⟨rfl, rfl, rfl, id, rfl, _, rfl⟩
  | request t => exact .request t t

theorem rests_onRule {f : RuleTask → RuleTask} (hf : ∀ t : RuleTask, t.Rests (f t)) (t : Task) :
    Rests t (t.onRule f) := by
  cases t with
  | rule t => exact .rule (hf t)
  | request t => exact .request t t

/-- The task has just been started. -/
def IsNew : Task → Prop
  | rule t => t.phase = .starting ∧ t.fired = 0 ∧ t.working = false
  | request _ => True

theorem IsNew.rests {t t' : Task} (h : t.IsNew) (hrests : Rests t t') : t'.IsNew := by
  cases hrests with
  | rule hrests =>
    exact ⟨hrests.phase.trans h.1, hrests.fired.trans h.2.1, hrests.working.trans h.2.2⟩
  | request => trivial

end Task

namespace Hub

variable {h h' : Hub} {id : TaskId} {ids rest : List TaskId} {t' : Task} {s : Store}
  {progress : Progress}

/-- From `h` to `h'` the tasks of rules have not done anything. -/
structure Rests (h h' : Hub) : Prop where
  started : h.started ≤ h'.started
  task : ∀ id t', (id, t') ∈ h'.tasks →
    (∃ t, (id, t) ∈ h.tasks ∧ t.Rests t') ∨ h.started < id.number ∧ t'.IsNew
  kept : ∀ id t, (id, Task.rule t) ∈ h.tasks → ∃ t', (id, Task.rule t') ∈ h'.tasks
  rules : ∀ entry ∈ h'.rules, entry ∈ h.rules ∨ ∃ t, (entry.2, Task.rule t) ∈ h'.tasks

namespace Rests

/-- Tasks are touched, but do not do anything. -/
theorem of_map {f : TaskId → Task → Task} (hf : ∀ id t, (id, t) ∈ h.tasks → t.Rests (f id t))
    (htasks : h'.tasks = h.tasks.map fun entry => (entry.1, f entry.1 entry.2))
    (hstarted : h'.started = h.started) (hrules : h'.rules ⊆ h.rules) : Rests h h' where
  started := Nat.le_of_eq hstarted.symm
  task := fun id t' ht' => by
    rw [htasks] at ht'
    obtain ⟨⟨i, t⟩, ht, heq⟩ := List.mem_map.1 ht'
    obtain ⟨rfl, rfl⟩ := Prod.mk.inj heq
    exact .inl ⟨t, ht, hf i t ht⟩
  kept := fun id t ht => by
    have hmem : (id, f id (.rule t)) ∈ h'.tasks := htasks ▸ List.mem_map_of_mem ht
    have hrests := hf id _ ht
    generalize f id (.rule t) = t' at hmem hrests
    cases hrests with
    | rule => exact ⟨_, hmem⟩
  rules := fun entry hentry => .inl (hrules hentry)

theorem of_eq (htasks : h'.tasks = h.tasks) (hstarted : h'.started = h.started)
    (hrules : h'.rules ⊆ h.rules) : Rests h h' :=
  .of_map (f := fun _ t => t) (fun _ t _ => .refl t) (htasks.trans (List.map_id _).symm) hstarted
    hrules

theorem refl (h : Hub) : Rests h h :=
  .of_eq rfl rfl (List.Subset.refl _)

theorem trans {h'' : Hub} (hr : Rests h h') (hr' : Rests h' h'') : Rests h h'' where
  started := hr.started.trans hr'.started
  task := fun id t'' ht'' => by
    rcases hr'.task id t'' ht'' with ⟨t', ht', hrests'⟩ | ⟨hlt, hnew⟩
    · rcases hr.task id t' ht' with ⟨t, ht, hrests⟩ | ⟨hlt, hnew⟩
      · exact .inl ⟨t, ht, hrests.trans hrests'⟩
      · exact .inr ⟨hlt, hnew.rests hrests'⟩
    · exact .inr ⟨Nat.lt_of_le_of_lt hr.started hlt, hnew⟩
  kept := fun id t ht => by
    obtain ⟨t', ht'⟩ := hr.kept id t ht
    exact hr'.kept id t' ht'
  rules := fun entry hentry => by
    rcases hr'.rules entry hentry with hold | hnew
    · rcases hr.rules entry hold with hold | ⟨t, ht⟩
      · exact .inl hold
      · exact .inr (hr'.kept entry.2 t ht)
    · exact .inr hnew

/-- Callers do something with the store. -/
theorem withStore (h : Hub) (watches : List (String × WatchId))
    (conditions : List (String × ConditionWatch)) (s : Store) :
    Rests h (Hub.withStore { h with watches, conditions } s) :=
  .of_map (f := fun _ t => t.rouse s) (fun _ t _ => t.rests_rouse s) rfl rfl (List.Subset.refl _)

/-- A task starts. -/
theorem spawn {t : Task} {rules requests : List (String × TaskId)} (hnew : t.IsNew)
    (hrules : ∀ entry ∈ rules, entry ∈ h.rules ∨
      entry.2 = ⟨h.started + 1⟩ ∧ ∃ r, t = .rule r) :
    Rests h { (h.spawn t).2 with rules, requests } where
  started := Nat.le_succ _
  task := fun id t' ht' => by
    rcases List.mem_append.1 ht' with hold | hself
    · exact .inl ⟨t', hold, .refl t'⟩
    · cases List.mem_singleton.1 hself
      exact .inr ⟨Nat.lt_succ_self _, hnew⟩
  kept := fun id t ht => ⟨t, List.mem_append_left _ ht⟩
  rules := fun entry hentry => by
    rcases hrules entry hentry with hold | ⟨hid, r, rfl⟩
    · exact .inl hold
    · rw [hid]
      exact .inr ⟨r, List.mem_append_right _ (List.mem_singleton_self _)⟩

end Rests

namespace Roused

/-- Some tasks are touched and join the line. -/
theorem touched {f : Task → Task} (hr : h.Roused)
    (hf : ∀ t, t.IsRoused h.store → (f t).IsRoused h.store)
    (hwoken : ∀ t, (f t).isWoken h.store = true → t.isWoken h.store = true)
    (rules requests : List (String × TaskId)) :
    (Hub.touched { h with rules, requests } ids f).Roused := by
  intro id t ht
  obtain ⟨⟨i, u⟩, hu, heq⟩ := List.mem_map.1 ht
  obtain ⟨rfl, rfl⟩ := Prod.mk.inj heq
  obtain ⟨hroused, hline⟩ := hr i u hu
  dsimp only
  split
  · exact ⟨hf u hroused, fun h' => List.mem_append_left _ (hline (hwoken u h'))⟩
  · exact ⟨hroused, fun h' => List.mem_append_left _ (hline h')⟩

/-- A task starts, and stands in the line. -/
theorem spawn {t : Task} (hr : h.Roused) (ht : t.IsRoused h.store)
    (rules requests : List (String × TaskId)) :
    Hub.Roused { (h.spawn t).2 with rules, requests } := by
  intro id u hu
  rcases List.mem_append.1 hu with hold | hself
  · exact ⟨(hr id u hold).1, fun hwoken => List.mem_append_left _ ((hr id u hold).2 hwoken)⟩
  · cases List.mem_singleton.1 hself
    exact ⟨ht, fun _ => List.mem_append_right _ (List.mem_singleton_self _)⟩

/-- No task leaves the line, but tasks may be gone. -/
theorem mono {line : List TaskId} {tasks : List (TaskId × Task)} (hr : h.Roused)
    (hline : ∀ id ∈ h.line, id ∈ tasks.map Prod.fst → id ∈ line) (htasks : tasks ⊆ h.tasks)
    (clock : Nat) (requests : List (String × TaskId)) :
    Hub.Roused { h with line, tasks, clock, requests } := by
  intro id t ht
  obtain ⟨hheard, hlined⟩ := hr id t (htasks ht)
  exact ⟨hheard, fun hwoken => hline id (hlined hwoken) (List.mem_map_of_mem ht)⟩

end Roused

/-! ## Turns -/

/-- The hub after a turn, at a glance. -/
theorem turned_eq (h : Hub) (id : TaskId) (rest : List TaskId) (progress : Progress) (t' : Task)
    (s : Store) : h.turned id rest (progress, t', s) = Hub.withStore { h with
      line := if progress = .runs then h.line else rest
      tasks := if h.isForgotten id t' then
          (h.updateTask id fun _ => t').tasks.filter fun entry => entry.1 ≠ id
        else (h.updateTask id fun _ => t').tasks } s := by
  have hforgotten : ∀ (g : Hub), g.rules = h.rules → g.isForgotten id t' = h.isForgotten id t' := by
    intro g hg
    simp only [isForgotten, hg]
  rw [turned]
  by_cases hruns : progress = .runs
  · have hsame := hforgotten (h.updateTask id fun _ => t') rfl
    rw [if_pos hruns, if_pos hruns, hsame]
    split <;> rfl
  · have hsame := hforgotten { h.updateTask id fun _ => t' with line := rest } rfl
    rw [if_neg hruns, if_neg hruns, hsame]
    split <;> rfl

/-- The tasks that are left after a turn: the one whose turn it was, if it is not forgotten, and all
others. -/
theorem mem_left {i : TaskId} {u : Task}
    (hu : (i, u) ∈ if h.isForgotten id t' then
        (h.updateTask id fun _ => t').tasks.filter fun entry => entry.1 ≠ id
      else (h.updateTask id fun _ => t').tasks) :
    i = id ∧ u = t' ∨ i ≠ id ∧ (i, u) ∈ h.tasks := by
  refine Accounted.mem_update ?_
  split at hu
  · exact List.mem_of_mem_filter hu
  · exact hu

theorem mem_turned {i : TaskId} {u' : Task}
    (hu : (i, u') ∈ (h.turned id rest (progress, t', s)).tasks) :
    ∃ u, u' = u.rouse s ∧ (i = id ∧ u = t' ∨ i ≠ id ∧ (i, u) ∈ h.tasks) := by
  rw [turned_eq] at hu
  obtain ⟨⟨i', u⟩, hmem, heq⟩ := List.mem_map.1 hu
  obtain ⟨rfl, rfl⟩ := Prod.mk.inj heq
  exact ⟨u, rfl, mem_left hmem⟩

theorem mem_turned_of_ne {i : TaskId} {u : Task} (hi : i ≠ id) (hu : (i, u) ∈ h.tasks) :
    (i, u.rouse s) ∈ (h.turned id rest (progress, t', s)).tasks := by
  have hupdated : (i, u) ∈ (h.updateTask id fun _ => t').tasks := Accounted.mem_update_of_ne hi hu
  rw [turned_eq]
  refine List.mem_map.2 ⟨(i, u), ?_, rfl⟩
  dsimp only
  split
  · exact List.mem_filter.2 ⟨hupdated, by simpa using hi⟩
  · exact hupdated

/-- The tasks of rules after a turn of one of them. -/
theorem mem_turned_rule {i : TaskId} {t' u' : RuleTask}
    (hu : (i, Task.rule u') ∈ (h.turned id rest (progress, .rule t', s)).tasks) :
    ∃ u, u.Rests u' ∧ (i = id ∧ u = t' ∨ i ≠ id ∧ (i, Task.rule u) ∈ h.tasks) := by
  obtain ⟨u, heq, hcases⟩ := mem_turned hu
  cases u with
  | request q => cases heq
  | rule u =>
    have hrests := (Task.rule u).rests_rouse s
    rw [← heq] at hrests
    cases hrests with
    | rule hrests =>
      refine ⟨u, hrests, hcases.imp_left fun hself => ⟨hself.1, ?_⟩⟩
      exact Task.rule.inj hself.2

/-- The tasks of rules that are registered are not forgotten. -/
theorem exists_mem_turned {i : TaskId} {t t' u : RuleTask}
    (hlookup : h.tasks.lookup id = some (.rule t)) (hu : (i, Task.rule u) ∈ h.tasks)
    (hregistered : i ∈ h.rules.map Prod.snd) :
    ∃ u', (i, Task.rule u') ∈ (h.turned id rest (progress, .rule t', s)).tasks := by
  by_cases hi : i = id
  · subst hi
    have hkept : h.isForgotten i (.rule t') = false := by
      rw [isForgotten, List.contains_iff_mem.2 hregistered]
      exact Bool.and_false _
    refine ⟨{ t' with watch := t'.watch.rouse s }, ?_⟩
    rw [turned_eq]
    refine List.mem_map.2 ⟨(i, .rule t'), ?_, rfl⟩
    dsimp only
    rw [if_neg (by simp [hkept])]
    exact Accounted.mem_update_self hlookup
  · exact ⟨{ u with watch := u.watch.rouse s }, mem_turned_of_ne hi hu⟩

/-- In the step of a request the tasks of rules rest. -/
theorem rests_turned_request {q q' : RequestTask} (hnodup : (h.tasks.map Prod.fst).Nodup)
    (hlookup : h.tasks.lookup id = some (.request q)) :
    h.Rests (h.turned id rest (progress, .request q', s)) where
  started := by
    rw [turned_eq]
    exact Nat.le_refl _
  task := fun i u' hu' => by
    obtain ⟨u, rfl, ⟨rfl, rfl⟩ | ⟨-, hu⟩⟩ := mem_turned hu'
    · exact .inl ⟨_, Keyed.mem_of_lookup hlookup, .request q q'⟩
    · exact .inl ⟨u, hu, u.rests_rouse s⟩
  kept := fun i t ht => by
    have hi : i ≠ id := by
      rintro rfl
      cases eq_of_mem_of_lookup hnodup hlookup ht
    exact ⟨_, mem_turned_of_ne hi ht⟩
  rules := fun entry hentry => by
    rw [turned_eq] at hentry
    exact .inl hentry

theorem firstRule?_of_lookup {t : RuleTask} (hline : h.line = id :: rest)
    (hlookup : h.tasks.lookup id = some (.rule t)) : h.firstRule? = some (id, t) := by
  simp only [firstRule?, hline, hlookup]

theorem turn?_step {t : RuleTask} (hline : h.line = id :: rest)
    (hlookup : h.tasks.lookup id = some (.rule t)) :
    h.turn? .step = some (id, t, (t.step h.clock h.store).2.1) := by
  rw [turn?, firstRule?_of_lookup hline hlookup, Option.map_some]

/-- What happens at once: the task of a rule has its turn, or all of them rest. -/
inductive Happens (h : Hub) (e : Event) : Hub → Prop
  | rests {h' : Hub} (hturn : h.turn? e = none) (hrests : h.Rests h') (hroused : h'.Roused) :
      Happens h e h'
  | turn {id : TaskId} {rest : List TaskId} {t t' : RuleTask} {progress : Progress} {s : Store}
      (hturn : h.turn? e = some (id, t, t')) (hline : h.line = id :: rest)
      (hlookup : h.tasks.lookup id = some (.rule t)) (hdoes : t.Does h.store (t.deed? t') t' s)
      (hpoised : t.Poised → t'.Poised) :
      Happens h e (h.turned id rest (progress, .rule t', s))

theorem step_happens (hnodup : (h.tasks.map Prod.fst).Nodup) (hroused : h.Roused) :
    h.Happens .step (h.after .step) := by
  have hfirst : h.firstRule? = none → h.turn? .step = none := fun hnone => by
    rw [turn?, hnone, Option.map_none]
  cases hline : h.line with
  | nil =>
    have hsame : h.after .step = h := by
      rw [after, step, hline]
      rfl
    rw [hsame]
    exact .rests (hfirst (by simp only [firstRule?, hline])) (.refl h) hroused
  | cons id rest =>
    cases hlookup : h.tasks.lookup id with
    | none =>
      rw [after, step_of_lookup_none hline hlookup]
      refine .rests (hfirst (by simp only [firstRule?, hline, hlookup]))
        (.of_eq rfl rfl (List.Subset.refl _))
        (hroused.mono (fun i hi hkept => ?_) (List.Subset.refl _) h.clock h.requests)
      rw [hline] at hi
      refine (List.mem_cons.1 hi).resolve_left ?_
      rintro rfl
      exact Keyed.lookup_eq_none_iff.1 hlookup hkept
    | some t =>
      rw [after, step_of_lookup hline hlookup]
      cases t with
      | rule t =>
        exact .turn (turn?_step hline hlookup) hline hlookup (t.step_does h.clock h.store)
          fun hpoised => RuleTask.step_poised hpoised h.clock h.store
      | request q =>
        exact .rests (hfirst (by simp only [firstRule?, hline, hlookup]))
          (rests_turned_request hnodup hlookup) (roused_rouse _)

theorem overlook_happens (hroused : h.Roused) : h.Happens .overlook (h.after .overlook) := by
  have hstays : h.overlook = h → h.turn? .overlook = none →
      h.Happens .overlook (h.after .overlook) := fun hsame hnone => by
    rw [after, hsame]
    exact .rests hnone (.refl h) hroused
  cases hline : h.line with
  | nil =>
    exact hstays (by simp only [overlook, hline])
      (by simp only [turn?, firstRule?, hline, Option.bind_none])
  | cons id rest =>
    cases hlookup : h.tasks.lookup id with
    | none =>
      exact hstays (by simp only [overlook, hline, hlookup])
        (by simp only [turn?, firstRule?, hline, hlookup, Option.bind_none])
    | some t =>
      cases t with
      | request q =>
        exact hstays (by simp only [overlook, hline, hlookup])
          (by simp only [turn?, firstRule?, hline, hlookup, Option.bind_none])
      | rule t =>
        have hfirst := firstRule?_of_lookup hline hlookup
        cases hphase : t.phase with
        | following armed =>
          by_cases hgoes : t.isAborted = false ∧
              (RuleTask.yield (t.follow armed h.store)).1 = .runs
          · have hturned : h.overlook = h.turned id rest
                ((RuleTask.yield (t.follow armed h.store)).1,
                  .rule (RuleTask.yield (t.follow armed h.store)).2.1,
                  (RuleTask.yield (t.follow armed h.store)).2.2) := by
              simp only [overlook, hline, hlookup, hphase, if_pos hgoes]
            rw [after, hturned]
            refine .turn ?_ hline hlookup (RuleTask.yield_follow_does hphase hgoes.1 hgoes.2)
              fun _ => RuleTask.yield_follow_poised hphase hgoes.2
            simp only [turn?, hfirst, Option.bind_some, hphase, if_pos hgoes]
          · exact hstays (by simp only [overlook, hline, hlookup, hphase, if_neg hgoes])
              (by simp only [turn?, hfirst, Option.bind_some, hphase, if_neg hgoes])
        | starting | acting | sleeping | ended =>
          exact hstays (by simp only [overlook, hline, hlookup, hphase])
            (by simp only [turn?, hfirst, Option.bind_some, hphase])

/-- Some tasks are told something, and join the line. -/
theorem Happens.touched {e : Event} {f : Task → Task} {rules : List (String × TaskId)}
    (hturn : h.turn? e = none) (hroused : h.Roused) (hrules : rules ⊆ h.rules)
    (hf : ∀ t : Task, t.Rests (f t)) (hheard : ∀ s (t : Task), t.IsRoused s → (f t).IsRoused s)
    (hwoken : ∀ s (t : Task), (f t).isWoken s = true → t.isWoken s = true) (ids : List TaskId)
    (requests : List (String × TaskId)) :
    h.Happens e (Hub.touched { h with rules, requests } ids f) := by
  refine .rests hturn (.of_map (f := fun id t => if id ∈ ids then f t else t) ?_ rfl rfl hrules)
    (hroused.touched (hheard _) (hwoken _) rules requests)
  intro id t _
  split
  · exact hf t
  · exact .refl t

/-- Tasks of rules are told to end. -/
theorem Happens.touchedRules {e : Event} {f : RuleTask → RuleTask}
    {rules : List (String × TaskId)} (hturn : h.turn? e = none) (hroused : h.Roused)
    (hrules : rules ⊆ h.rules) (hf : ∀ t : RuleTask, t.Rests (f t))
    (hwatch : ∀ t : RuleTask, (f t).watch = t.watch) (ids : List TaskId) :
    h.Happens e (Hub.touched { h with rules } ids (Task.onRule f)) := by
  refine .touched hturn hroused hrules (Task.rests_onRule hf) ?_ ?_ ids h.requests
  · rintro s (t | t) hheard
    · show (f t).watch.woken s = []
      rw [hwatch]
      exact hheard
    · trivial
  · rintro s (t | t) hwoken
    · have halive : (f t).isAlive = t.isAlive := by
        rw [RuleTask.isAlive, (hf t).phase]
        rfl
      rw [Task.onRule, Task.isWoken, halive, hwatch] at hwoken
      exact hwoken
    · exact hwoken

/-- A request is cancelled. -/
theorem Happens.dropRequest {e : Event} (hturn : h.turn? e = none) (hroused : h.Roused)
    (name : String) (id : TaskId) : h.Happens e (h.dropRequest name id) := by
  rw [dropRequest_eq]
  refine .touched hturn hroused (List.Subset.refl h.rules) ?_ ?_ ?_ [id] _
  · rintro (t | t)
    · exact .refl _
    · exact .request t t.cancel
  · rintro s (t | t) hheard
    · exact hheard
    · trivial
  · rintro s (t | t) hwoken
    · exact hwoken
    · cases t with
      | arrived | waiting => cases hwoken
      | answered | cancelled => exact hwoken

/-- The feeds of a rule change places. -/
theorem preferFeed_happens (hroused : h.Roused) (id : TaskId) (place : Nat) :
    h.Happens (.preferFeed id place) (h.after (.preferFeed id place)) := by
  have hwoken : ∀ (t : RuleTask) s, (t.watch.prefer place).woken s = t.watch.woken s :=
    fun t s => ConditionWatch.woken_congr rfl
      (fun i => (ConditionWatch.perm_front t.watch.queue place).mem_iff) fun _ _ => rfl
  let touch : Task → Task := Task.onRule fun t => { t with watch := t.watch.prefer place }
  have hrests : ∀ t : Task, t.Rests (touch t) :=
    Task.rests_onRule (f := fun t => { t with watch := t.watch.prefer place })
      fun _ => ⟨rfl, rfl, rfl, fun hcancelled => hcancelled, rfl, _, rfl⟩
  have hmoved : ∀ t, t.IsRoused h.store → (touch t).IsRoused h.store := by
    rintro (t | t) hheard
    · exact (hwoken t h.store).trans hheard
    · trivial
  have hsame : ∀ t, (touch t).isWoken h.store = t.isWoken h.store := by
    rintro (t | t)
    · exact congrArg (fun l : List Nat => t.isAlive && !l.isEmpty) (hwoken t h.store)
    · rfl
  refine .rests rfl (.of_map (f := fun i t => if i = id then touch t else t) ?_ rfl rfl
    (List.Subset.refl _)) fun i u hu => ?_
  · intro i t _
    split
    · exact hrests t
    · exact .refl t
  · obtain ⟨⟨i', t⟩, ht, heq⟩ := List.mem_map.1 hu
    obtain ⟨rfl, rfl⟩ := Prod.mk.inj heq
    obtain ⟨hheard, hlined⟩ := hroused i' t ht
    split
    · exact ⟨hmoved t hheard, fun h' => hlined ((hsame t).symm.trans h')⟩
    · exact ⟨hheard, hlined⟩

/-- A rule is registered and its task starts, or it is refused. -/
theorem addRule_happens (hroused : h.Roused) (rule : Rule) :
    h.Happens (.addRule rule) (h.after (.addRule rule)) := by
  rw [after, addRule]
  split
  · exact .rests rfl (.refl h) hroused
  · split
    · exact .rests rfl (.withStore h _ _ _) (roused_rouse _)
    · next w s hstarted =>
      have hnew : Task.IsNew (.rule (.start rule w)) := ⟨rfl, rfl, rfl⟩
      refine .rests rfl ((Rests.withStore h _ _ s).trans (.spawn hnew fun entry hentry => ?_))
        ((roused_rouse { h with store := s }).spawn (t := .rule (.start rule w))
          (ConditionWatch.woken_start hstarted s) _ _)
      refine (List.mem_append.1 hentry).imp id fun hself => ?_
      cases List.mem_singleton.1 hself
      exact ⟨rfl, _, rfl⟩

/-- The response to a request is handed out. -/
theorem response_happens {name asked : String} {answered : Response × Hub}
    (hnodup : (h.tasks.map Prod.fst).Nodup) (hroused : h.Roused)
    (hanswered : h.response? name id = some answered) : h.Happens (.response asked) answered.2 := by
  unfold response? at hanswered
  split at hanswered
  · next r hlookup =>
    cases hanswered
    have htasks : (h.tasks.filter fun entry => entry.1 ≠ id) ⊆ h.tasks :=
      fun _ => List.mem_of_mem_filter
    refine .rests rfl ⟨Nat.le_refl _, ?_, ?_, fun entry hentry => .inl hentry⟩
      (hroused.mono (fun _ hid _ => hid) htasks h.clock _)
    · exact fun i t ht => .inl ⟨t, htasks ht, .refl t⟩
    · intro i t ht
      have hi : i ≠ id := by
        rintro rfl
        cases eq_of_mem_of_lookup hnodup hlookup ht
      exact ⟨t, List.mem_filter.2 ⟨ht, by simpa using hi⟩⟩
  · cases hanswered

/-- In whatever happens at once, the task of a rule has its turn or all of them rest. -/
theorem after_happens {e : Event} (he : e.isAtOnce = true) (hnodup : (h.tasks.map Prod.fst).Nodup)
    (hroused : h.Roused) : h.Happens e (h.after e) := by
  have hstays : h.turn? e = none → h.Happens e h := fun hturn => .rests hturn (.refl h) hroused
  have helim : ∀ {α : Type} {found : Option α} {f : α → Hub}, h.turn? e = none →
      (∀ a, found = some a → h.Happens e (f a)) → h.Happens e (found.elim h f) := by
    intro α found f hturn hf
    cases found with
    | none => exact hstays hturn
    | some a => exact hf a rfl
  have hcalls : h.turn? e = none → ∀ watches conditions s,
      h.Happens e (Hub.withStore { h with watches, conditions } s) :=
    fun hturn watches conditions s =>
      .rests hturn (.withStore h watches conditions s) (roused_rouse _)
  cases e with
  | write w => exact hcalls rfl _ _ _
  | watch name pattern =>
    rw [after, watch]
    split
    · exact hstays rfl
    · exact hcalls rfl _ _ _
  | take name => exact helim rfl fun id _ => hcalls rfl _ _ _
  | receive name =>
    refine helim rfl fun id _ => ?_
    rw [receive]
    split <;> exact hcalls rfl _ _ _
  | release name => exact helim rfl fun id _ => hcalls rfl _ _ _
  | dropWatch name => exact helim rfl fun id _ => hcalls rfl _ _ _
  | follow name c =>
    rw [after, follow]
    split <;> exact hcalls rfl _ _ _
  | changed name => exact helim rfl fun w _ => hcalls rfl _ _ _
  | dropCondition name => exact helim rfl fun w _ => hcalls rfl _ _ _
  | act action =>
    cases action with
    | delay => cases he
    | set | remove => exact hcalls rfl _ _ _
  | addRule rule => exact addRule_happens hroused rule
  | removeRule name =>
    rw [after, removeRule]
    split
    · exact hstays rfl
    · rw [cancelRules_eq]
      exact .touchedRules rfl hroused (fun _ => List.mem_of_mem_filter)
        RuleTask.rests_cancel (fun _ => rfl) _
  | dropRules =>
    rw [after, dropRules, cancelRules_eq]
    exact .touchedRules rfl hroused (List.nil_subset _) RuleTask.rests_cancel (fun _ => rfl) _
  | stopRules =>
    rw [after, stopRules_eq]
    exact .touchedRules rfl hroused (List.Subset.refl _) RuleTask.rests_stop RuleTask.watch_stop _
  | request | advance => cases he
  | startRequest name r =>
    exact .rests rfl (.spawn trivial fun entry hentry => .inl hentry)
      (hroused.spawn (t := .request (.arrived r)) trivial _ _)
  | response name =>
    exact helim rfl fun id _ => helim rfl fun answered hanswered =>
      response_happens hnodup hroused hanswered
  | dropRequest name => exact helim rfl fun id _ => .dropRequest rfl hroused name id
  | step => exact step_happens hnodup hroused
  | overlook => exact overlook_happens hroused
  | preferTask place =>
    exact .rests rfl (.of_eq rfl rfl (List.Subset.refl _)) (hroused.mono
      (fun id hid _ => (ConditionWatch.perm_front h.line place).mem_iff.2 hid)
      (List.Subset.refl _) h.clock h.requests)
  | preferFeed id place => exact preferFeed_happens hroused id place
  | preferLeaf name place => exact .rests rfl (.of_eq rfl rfl (List.Subset.refl _)) hroused
  | pass milliseconds =>
    exact .rests rfl (.of_eq rfl rfl (List.Subset.refl _)) (hroused.mono
      (fun id hid _ => List.mem_append_left _ hid) (List.Subset.refl _) _ h.requests)

end Hub

end Switchboard
