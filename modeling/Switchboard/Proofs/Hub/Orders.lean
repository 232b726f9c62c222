import Mathlib
import Switchboard.Proofs.Hub.Dealings
/-!
# Tasks are told something

Rules are stopped and cancelled, and requests are cancelled, in one way: some tasks are changed and
join the line (`Hub.touched`). A hub that is accounted for stays so, if every rule whose task is not
cancelled stays registered (`Hub.Accounted.touched`). A task that is told to stop is bound to end
(`Hub.Accounted.stopRules`).
-/

namespace Switchboard

/-- Changes the task of a rule. -/
def Task.onRule (f : RuleTask → RuleTask) : Task → Task
  | .rule t => .rule (f t)
  | .request t => .request t

/-- Changes a request. -/
def Task.onRequest (f : RequestTask → RequestTask) : Task → Task
  | .rule t => .rule t
  | .request t => .request (f t)

/-- The task is cancelled. -/
def RuleTask.cancel (t : RuleTask) : RuleTask :=
  { t with cancelled := true }

/-- The task is told to stop. -/
def RuleTask.stop (t : RuleTask) : RuleTask :=
  if t.isAlive then { t with stopping := true } else t

theorem RuleTask.stop_stop (t : RuleTask) : t.stop.stop = t.stop := by
  by_cases halive : t.isAlive = true
  · have hstop : t.stop = { t with stopping := true } := if_pos halive
    rw [hstop]
    exact if_pos halive
  · have hstop : t.stop = t := if_neg halive
    rw [hstop, hstop]

theorem RuleTask.carries_stop (t : RuleTask) : Task.Carries (.rule t) (.rule t.stop) := by
  unfold stop
  split
  · exact .rule rfl rfl (.refl _) (fun hcancelled => hcancelled) fun _ => rfl
  · exact .refl _

theorem RequestTask.owned_cancel (t : RequestTask) : t.cancel.owned = t.owned := by
  cases t <;> rfl

namespace Hub

variable {h : Hub} {b : Books} {name : String} {id : TaskId} {ids : List TaskId}

/-- Changes some tasks, which join the line. -/
def touched (h : Hub) (ids : List TaskId) (f : Task → Task) : Hub :=
  enqueue { h with tasks := h.tasks.map fun entry =>
    (entry.1, if entry.1 ∈ ids then f entry.2 else entry.2) } ids

theorem foldl_updateRule {f : RuleTask → RuleTask} (hf : ∀ t, f (f t) = f t) (ids : List TaskId)
    (h : Hub) : ids.foldl (fun h id => h.updateRule id f) h = { h with
      tasks := h.tasks.map fun entry =>
        (entry.1, if entry.1 ∈ ids then entry.2.onRule f else entry.2) } := by
  induction ids generalizing h with
  | nil => simp
  | cons id ids ih =>
    rw [List.foldl_cons, ih]
    simp only [updateRule, updateTask, List.map_map]
    congr 1
    refine List.map_congr_left fun entry _ => ?_
    obtain ⟨i, t⟩ := entry
    by_cases hi : i = id <;> by_cases hids : i ∈ ids <;> cases t <;>
      simp [hi, hids, Task.onRule, hf]

theorem cancelRules_eq (h : Hub) (ids : List TaskId) :
    h.cancelRules ids = h.touched ids (Task.onRule .cancel) :=
  congrArg (enqueue · ids) (foldl_updateRule (f := .cancel) (fun _ => rfl) ids h)

theorem stopRules_eq (h : Hub) :
    h.stopRules = h.touched (h.rules.map Prod.snd) (Task.onRule .stop) :=
  congrArg (enqueue · _) (foldl_updateRule (f := .stop) RuleTask.stop_stop _ h)

theorem dropRequest_eq (h : Hub) (name : String) (id : TaskId) :
    h.dropRequest name id =
      { h with requests := letGo name h.requests }.touched [id] (Task.onRequest .cancel) := by
  refine congrArg (enqueue · [id]) ?_
  simp only [updateTask, List.mem_singleton]
  congr 1
  refine List.map_congr_left fun entry _ => ?_
  obtain ⟨i, t⟩ := entry
  cases t <;> rfl

namespace Accounted

variable {f : Task → Task}

/-- Tasks are told something, and join the line. A rule whose task is not cancelled then is
registered. -/
theorem touched (H : h.Accounted b) (rules : List (String × TaskId))
    (hf : ∀ t, Task.Carries t (f t)) (hrules : (rules.map Prod.fst).Nodup)
    (hkept : ∀ entry ∈ h.rules, entry.2 ∈ rules.map Prod.snd ∨
      entry.2 ∈ ids ∧ ∀ r r', f (.rule r) = .rule r' → r'.cancelled = true) :
    (Hub.touched { h with rules } ids f).Accounted b := by
  have hcarries : ∀ id t, (id, t) ∈ h.tasks → Task.Carries t (if id ∈ ids then f t else t) := by
    intro id t _
    split
    · exact hf t
    · exact .refl t
  refine H.mapTasks _ rules hrules hcarries ?_ ?_
  · intro id t ht hrestless
    by_cases hids : id ∈ ids
    · by_cases hline : id ∈ h.line
      · exact List.mem_append_left _ hline
      · refine List.mem_append_right _ (List.mem_filter.2 ⟨hids, ?_⟩)
        simpa using hline
    · rw [if_neg hids] at hrestless
      exact List.mem_append_left _ ((H.tasks _ ht).restless hrestless)
  · intro id t r ht hr halive
    have hcarried := hcarries id t ht
    rw [hr] at hcarried
    cases hcarried with
    | @rule r₀ _ halive₀ hrule hfeeds hcancelled hstopping =>
      rcases ((H.tasks _ ht).rule r₀ rfl (halive₀ ▸ halive)).2 with hbound | hregistered
      · exact .inl (hcancelled hbound)
      · obtain ⟨entry, hentry, rfl⟩ := List.mem_map.1 hregistered
        rcases hkept entry hentry with hkept | ⟨hids, hcancel⟩
        · exact .inr hkept
        · rw [if_pos hids] at hr
          exact .inl (hcancel r₀ r hr)

/-- A request is cancelled. -/
theorem dropRequest (H : h.Accounted b) (name : String) (id : TaskId) :
    (h.dropRequest name id).Accounted b := by
  rw [dropRequest_eq]
  refine (H.setLine h.line h.clock (letGo name h.requests) fun _ hid _ => hid).touched h.rules ?_
    H.ruleNames fun entry hentry => .inl (List.mem_map_of_mem hentry)
  rintro (t | t)
  · exact .refl _
  · exact .request t.owned_cancel

/-! ## Rules -/

theorem carries_cancel (t : Task) : Task.Carries t (t.onRule .cancel) := by
  cases t with
  | rule t => exact .rule rfl rfl (.refl _) (fun _ => rfl) fun hstopping => hstopping
  | request t => exact .refl _

theorem cancelled_of_onRule (r r' : RuleTask)
    (h' : (Task.rule r).onRule .cancel = .rule r') : r'.cancelled = true := by
  cases h'
  rfl

/-- A rule is registered and its task starts, or it is refused and leaves nothing behind. -/
theorem addRule (H : h.Accounted b) (rule : Rule) : (h.addRule rule).2.Accounted b := by
  unfold Hub.addRule
  cases hlookup : h.rules.lookup rule.name with
  | some id => exact H
  | none =>
    have hstart := ConditionWatch.start_trades H.numbered rule.condition
    rcases hstarted : ConditionWatch.start h.store rule.condition with ⟨e | w, s⟩ <;>
      rw [hstarted] at hstart
    · exact H.served hstart
    · have hframed := hstart.frame b.spare
      rw [zero_add] at hframed
      have hstored : (h.withStore s).Accounted { b with spare := w.owned + b.spare } :=
        H.trade_spare hframed
      refine hstored.spawn (h.rules ++ [(rule.name, ⟨h.started + 1⟩)]) h.requests
        (t := .rule (.start rule w)) (add_comm _ _) ?_ ?_ ?_
      · rw [List.map_append, List.nodup_append]
        refine ⟨H.ruleNames, List.pairwise_singleton _ _, fun name hname name' hname' => ?_⟩
        cases List.mem_singleton.1 hname'
        intro heq
        rw [heq] at hname
        exact Keyed.lookup_eq_none_iff.1 hlookup hname
      · rw [List.map_append]
        exact List.subset_append_left _ _
      · rintro r ⟨⟩ -
        refine ⟨ConditionWatch.fits_start hstarted, .inr ?_⟩
        rw [List.map_append]
        exact List.mem_append_right _ (List.mem_singleton_self _)

/-- A rule is removed; its task was cancelled. -/
theorem removeRule (H : h.Accounted b) (name : String) : (h.removeRule name).2.Accounted b := by
  unfold Hub.removeRule
  cases hlookup : h.rules.lookup name with
  | none => exact H
  | some id =>
    dsimp only
    rw [cancelRules_eq]
    refine H.touched _ carries_cancel (nodup_keys_filter H.ruleNames) fun entry hentry => ?_
    by_cases hname : entry.1 = name
    · refine .inr ⟨List.mem_singleton.2 ?_, cancelled_of_onRule⟩
      exact eq_of_mem_of_lookup H.ruleNames hlookup (hname ▸ hentry)
    · exact .inl (List.mem_map_of_mem (List.mem_filter.2 ⟨hentry, by simpa using hname⟩))

/-- All rules are removed; their tasks were cancelled. -/
theorem dropRules (H : h.Accounted b) : h.dropRules.Accounted b := by
  rw [Hub.dropRules, cancelRules_eq]
  exact H.touched _ carries_cancel .nil fun entry hentry =>
    .inr ⟨List.mem_map_of_mem hentry, cancelled_of_onRule⟩

/-- The rules are told to stop. Each task of a rule is bound to end then. -/
theorem stopRules (H : h.Accounted b) : h.stopRules.Accounted { b with
    told := fun id watches => b.told id watches ∨
      ∃ t, (id, Task.rule t) ∈ h.tasks ∧ t.isAlive = true ∧ t.watch.watches = watches } := by
  rw [stopRules_eq]
  have hcarries : ∀ t : Task, Task.Carries t (t.onRule .stop) := by
    rintro (t | t)
    · exact t.carries_stop
    · exact .refl _
  have htouched : (Hub.touched h (h.rules.map Prod.snd) (Task.onRule .stop)).Accounted b :=
    H.touched h.rules hcarries H.ruleNames fun entry hentry =>
      .inl (List.mem_map_of_mem hentry)
  refine { htouched with told := fun id watches htells => ?_ }
  rcases htells with htells | ⟨t, ht, halive, hwatches⟩
  · exact htouched.told id watches htells
  · have hmem : (id, if id ∈ h.rules.map Prod.snd then (Task.rule t).onRule .stop else .rule t) ∈
        (Hub.touched h (h.rules.map Prod.snd) (Task.onRule .stop)).tasks :=
      List.mem_map_of_mem ht
    by_cases hregistered : id ∈ h.rules.map Prod.snd
    · rw [if_pos hregistered] at hmem
      have hstop : t.stop = { t with stopping := true } := if_pos halive
      exact .inl ⟨t.stop, hmem, hstop ▸ halive, hstop ▸ hwatches, .inr (hstop ▸ rfl)⟩
    · rw [if_neg hregistered] at hmem
      have hcancelled := ((H.tasks _ ht).rule t rfl halive).2.resolve_right hregistered
      exact .inl ⟨t, hmem, halive, hwatches, .inl hcancelled⟩

end Accounted

end Hub

end Switchboard
