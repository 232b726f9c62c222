import Mathlib
import Switchboard.Hub.Calls
import Switchboard.Proofs.Hub.Owners
/-!
# The ledger of a hub

Callers own the watches whose receivers they hold, as far as they have not released them, and those
of the conditions that they follow; the others belong to tasks. `Hub.ledger` lists all of them, and
a hub is accounted for (`Hub.Accounted`) if they are the watches that are registered. Apart from
that it says what is known of the tasks: those that have to go on soon stand in the line.

What can happen to a hub is made of few things, each of which keeps it accounted for: watches change
hands, tasks or conditions are touched without that, a task starts, is gone or makes a step.
-/

namespace Switchboard

/-! ## Totals over named things -/

section

variable {κ α : Type} {m : List (κ × α)} {k : κ} {v w : α}

/-- What all entries of a list own together. -/
def total (owned : α → Multiset WatchId) (m : List (κ × α)) : Multiset WatchId :=
  (m.map fun entry => owned entry.2).sum

variable (owned : α → Multiset WatchId)

theorem total_append (m m' : List (κ × α)) :
    total owned (m ++ m') = total owned m + total owned m' := by
  rw [total, List.map_append, List.sum_append]
  rfl

theorem total_singleton (k : κ) (v : α) : total owned [(k, v)] = owned v := by
  simp [total]

/-- The total does not depend on what is done to the entries, if they own the same. -/
theorem total_map {f : κ → α → α} (h : ∀ k v, (k, v) ∈ m → owned (f k v) = owned v) :
    total owned (m.map fun entry => (entry.1, f entry.1 entry.2)) = total owned m := by
  rw [total, List.map_map, total]
  exact congrArg List.sum (List.map_congr_left fun entry hentry => h entry.1 entry.2 hentry)

/-- The total does not depend on entries that own nothing. -/
theorem total_filter {p : κ × α → Bool} (h : ∀ entry ∈ m, p entry = false → owned entry.2 = 0) :
    total owned (m.filter p) = total owned m := by
  induction m with
  | nil => rfl
  | cons entry rest ih =>
    have hrest := ih fun e he => h e (List.mem_cons_of_mem _ he)
    have hcons : total owned (entry :: rest) = owned entry.2 + total owned rest := List.sum_cons
    cases hp : p entry with
    | true =>
      rw [List.filter_cons_of_pos hp, hcons, ← hrest]
      exact List.sum_cons
    | false =>
      rw [List.filter_cons_of_neg (by simp [hp]), hrest, hcons, h entry List.mem_cons_self hp,
        zero_add]

theorem mem_total {watch : WatchId} (h : (k, v) ∈ m) (hwatch : watch ∈ owned v) :
    watch ∈ total owned m :=
  Multiset.mem_of_le (List.single_le_sum (fun _ _ => Multiset.zero_le _) _
    (List.mem_map_of_mem (f := fun entry => owned entry.2) h)) hwatch

theorem nodup_keys_filter {p : κ × α → Bool} (h : (m.map Prod.fst).Nodup) :
    ((m.filter p).map Prod.fst).Nodup :=
  h.sublist (List.filter_sublist.map _)

variable [BEq κ] [LawfulBEq κ] [DecidableEq κ]

/-- Where no name is used twice, there are an entry and the others. -/
theorem perm_of_lookup (hnodup : (m.map Prod.fst).Nodup) (h : m.lookup k = some v) :
    m.Perm ((k, v) :: m.filter fun entry => entry.1 ≠ k) := by
  induction m with
  | nil => cases h
  | cons entry rest ih =>
    obtain ⟨l, w⟩ := entry
    obtain ⟨hl, hrest⟩ := List.nodup_cons.1 hnodup
    by_cases hk : k = l
    · subst hk
      rw [List.lookup_cons_self] at h
      cases h
      have hfilter : (rest.filter fun entry => entry.1 ≠ k) = rest := by
        refine List.filter_eq_self.2 fun entry hentry => ?_
        have hne : entry.1 ≠ k := fun heq => hl (List.mem_map.2 ⟨entry, hentry, heq⟩)
        simpa using hne
      rw [List.filter_cons_of_neg (by simp), hfilter]
    · rw [List.lookup_cons, beq_false_of_ne hk] at h
      rw [List.filter_cons_of_pos (by simpa using Ne.symm hk)]
      exact ((ih hrest h).cons _).trans (.swap _ _ _)

/-- Where no name is used twice, there is one entry under a name. -/
theorem eq_of_mem_of_lookup (hnodup : (m.map Prod.fst).Nodup) (h : m.lookup k = some v)
    (hw : (k, w) ∈ m) : w = v := by
  rcases List.mem_cons.1 ((perm_of_lookup hnodup h).mem_iff.1 hw) with heq | hmem
  · exact (Prod.mk.inj heq).2
  · simpa using (List.mem_filter.1 hmem).2

/-- Where no name is used twice, every entry is found under its name. -/
theorem lookup_of_mem (hnodup : (m.map Prod.fst).Nodup) (h : (k, v) ∈ m) :
    m.lookup k = some v := by
  cases hlookup : m.lookup k with
  | none => exact absurd (List.mem_map_of_mem h) (Keyed.lookup_eq_none_iff.1 hlookup)
  | some w => rw [eq_of_mem_of_lookup hnodup hlookup h]

/-- What an entry owns, and what all others own. -/
theorem total_of_lookup (hnodup : (m.map Prod.fst).Nodup) (h : m.lookup k = some v) :
    total owned m = owned v + total owned (m.filter fun entry => entry.1 ≠ k) := by
  have hperm := (perm_of_lookup hnodup h).map fun entry => owned entry.2
  rw [total, hperm.sum_eq]
  rfl

/-- What is owned under a name, and under all others. -/
theorem total_letGo (hnodup : (m.map Prod.fst).Nodup) (k : κ) :
    total owned m =
      (m.lookup k).elim 0 owned + total owned (m.filter fun entry => entry.1 ≠ k) := by
  cases h : m.lookup k with
  | none => rw [Keyed.filter_of_lookup_eq_none h, Option.elim_none, zero_add]
  | some v => rw [total_of_lookup owned hnodup h, Option.elim_some]

/-- What one entry owns after it was changed, and what all others own. -/
theorem total_update (hnodup : (m.map Prod.fst).Nodup) (h : m.lookup k = some v) (f : α → α) :
    total owned (m.map fun entry => (entry.1, if entry.1 = k then f entry.2 else entry.2)) =
      owned (f v) + total owned (m.filter fun entry => entry.1 ≠ k) := by
  have hperm := (perm_of_lookup hnodup h).map fun entry =>
    owned (if entry.1 = k then f entry.2 else entry.2)
  rw [total, List.map_map]
  refine hperm.sum_eq.trans ?_
  rw [List.map_cons, List.sum_cons, if_pos rfl, total]
  congr 2
  refine List.map_congr_left fun entry hentry => ?_
  rw [if_neg (by simpa using (List.mem_filter.1 hentry).2)]

/-- What is owned after something was put under a name. -/
theorem total_hold (k : String) (v : α) (m : List (String × α)) :
    total owned (Hub.hold k v m) = total owned (m.filter fun entry => entry.1 ≠ k) + owned v := by
  rw [Hub.hold, total_append, total_singleton]

theorem nodup_keys_hold {m : List (String × α)} (h : (m.map Prod.fst).Nodup) (k : String) (v : α) :
    ((Hub.hold k v m).map Prod.fst).Nodup := by
  rw [Hub.hold, List.map_append, List.nodup_append]
  refine ⟨nodup_keys_filter h, List.pairwise_singleton _ _, fun l hl l' hl' => ?_⟩
  obtain ⟨entry, hentry, rfl⟩ := List.mem_map.1 hl
  cases List.mem_singleton.1 hl'
  simpa using (List.mem_filter.1 hentry).2

end

/-! ## What becomes of a task -/

/-- From `t` to `t'` a task keeps its watches and what it was told. -/
inductive Task.Carries : Task → Task → Prop
  | rule {t t' : RuleTask} (alive : t'.isAlive = t.isAlive) (rule : t'.rule = t.rule)
      (feeds : ConditionWatch.SameFeeds t.watch t'.watch)
      (cancelled : t.cancelled = true → t'.cancelled = true)
      (stopping : t.stopping = true → t'.stopping = true) : Carries (.rule t) (.rule t')
  | request {t t' : RequestTask} (owned : t'.owned = t.owned) : Carries (.request t) (.request t')

namespace Task.Carries

variable {t t' : Task}

theorem refl (t : Task) : Carries t t := by
  cases t with
  | rule t => exact .rule rfl rfl (.refl _) id id
  | request t => exact .request rfl

theorem owned_eq (h : Carries t t') : t'.owned = t.owned := by
  cases h with
  | rule alive _ feeds => rw [owned, owned, RuleTask.owned, RuleTask.owned, alive, feeds.owned]
  | request owned => exact owned

end Task.Carries

/-! ## What holds of every hub -/

/-- A receiver owns its watch until the watch is released. -/
def unreleased (released : List WatchId) (id : WatchId) : Multiset WatchId :=
  if id ∈ released then 0 else {id}

namespace Hub

variable {h h' : Hub}

/-- All watches that belong to somebody. -/
def ledger (h : Hub) (released : List WatchId) : Multiset WatchId :=
  total (unreleased released) h.watches +
    total ConditionWatch.owned h.conditions + total Task.owned h.tasks

/-- The task of a rule lives. -/
def Runs (h : Hub) (id : TaskId) : Prop :=
  ∃ t, (id, Task.rule t) ∈ h.tasks ∧ t.isAlive = true

/-- The task of a rule has ended, and so have its watches. -/
structure Over (h : Hub) (id : TaskId) (watches : List WatchId) : Prop where
  ended : ¬ h.Runs id
  started : id.number ≤ h.started
  issued : ∀ watch ∈ watches, watch.number ≤ h.store.registry.issued
  unwatched : ∀ watch ∈ watches, watch ∉ h.store.watched

/-- The task of a rule, which has these watches, is bound to end: it was cancelled or told to stop,
or it is over. -/
def Ending (h : Hub) (id : TaskId) (watches : List WatchId) : Prop :=
  (∃ t, (id, Task.rule t) ∈ h.tasks ∧ t.isAlive = true ∧ t.watch.watches = watches ∧
    (t.cancelled = true ∨ t.stopping = true)) ∨ h.Over id watches

/-- What is over does not come back. -/
theorem Over.mono {id : TaskId} {watches : List WatchId} {gave took : Multiset WatchId}
    (hover : h.Over id watches) (hruns : h'.Runs id → h.Runs id) (hstarted : h.started ≤ h'.started)
    (ht : Store.Trades h.store h'.store gave took) : h'.Over id watches where
  ended := fun hrunning => hover.ended (hruns hrunning)
  started := hover.started.trans hstarted
  issued := fun watch hwatch => (hover.issued watch hwatch).trans ht.issued
  unwatched := fun watch hwatch hmem =>
    hover.unwatched watch hwatch (ht.back watch hmem (hover.issued watch hwatch))

/-- What is known of a task of the hub. -/
structure Tends (h : Hub) (id : TaskId) (t : Task) : Prop where
  started : id.number ≤ h.started
  /-- A task that has to go on soon stands in the line. -/
  restless : t.IsRestless → id ∈ h.line
  /-- The task of a rule follows its condition, and its rule is registered unless it was
  cancelled. -/
  rule : ∀ r, t = .rule r → r.isAlive = true →
    r.watch.Fits r.rule.condition ∧ (r.cancelled = true ∨ id ∈ h.rules.map Prod.snd)

/-- What is remembered of a run, besides the state of the hub. -/
structure Books where
  /-- Watches that belong to a request that is handled at once. -/
  spare : Multiset WatchId
  /-- The watches that callers have released. -/
  released : List WatchId
  /-- The tasks of rules that were told to stop, with their watches. -/
  told : TaskId → List WatchId → Prop

/-- Every watch has an owner, and every task is tended. -/
structure Accounted (b : Books) (h : Hub) : Prop where
  numbered : h.store.registry.Numbered
  ledger : h.store.watched = b.spare + h.ledger b.released
  released : ∀ id ∈ b.released, id.number ≤ h.store.registry.issued ∧ id ∉ h.store.watched
  watchNames : (h.watches.map Prod.fst).Nodup
  conditionNames : (h.conditions.map Prod.fst).Nodup
  conditions : ∀ entry ∈ h.conditions, entry.2.Fits entry.2.condition
  ruleNames : (h.rules.map Prod.fst).Nodup
  taskIds : (h.tasks.map Prod.fst).Nodup
  tasks : ∀ entry ∈ h.tasks, h.Tends entry.1 entry.2
  told : ∀ id watches, b.told id watches → h.Ending id watches

namespace Accounted

variable {b b' : Books} {s : Store} {gave took : Multiset WatchId}

/-- A new hub has no watches. -/
theorem new (scheme : String) (timeout : Nat) :
    (Hub.new scheme timeout).Accounted ⟨0, [], fun _ _ => False⟩ where
  numbered := .new
  ledger := rfl
  released := nofun
  watchNames := .nil
  conditionNames := .nil
  conditions := nofun
  ruleNames := .nil
  taskIds := .nil
  tasks := nofun
  told := nofun

/-! ## Watches change hands -/

/-- A watch that was released does not come back. -/
theorem released_of_trades (H : h.Accounted b) (ht : Store.Trades h.store s gave took) :
    ∀ id ∈ b.released, id.number ≤ s.registry.issued ∧ id ∉ s.watched := fun id hid =>
  have hissued := (H.released id hid).1
  ⟨hissued.trans ht.issued, fun hmem => (H.released id hid).2 (ht.back id hmem hissued)⟩

/-- Watches change hands among callers, or are registered or ended by them. -/
theorem trade (H : h.Accounted b) (b' : Books) (watches : List (String × WatchId))
    (conditions : List (String × ConditionWatch))
    (ht : Store.Trades h.store s gave took) (htold : b'.told = b.told)
    (hledger : ∃ rest, b.spare + h.ledger b.released = gave + rest ∧
      b'.spare + Hub.ledger { h with watches, conditions } b'.released = took + rest)
    (hreleased : ∀ id ∈ b'.released, id.number ≤ s.registry.issued ∧ id ∉ s.watched)
    (hwatches : (watches.map Prod.fst).Nodup) (hconditions : (conditions.map Prod.fst).Nodup)
    (hfits : ∀ entry ∈ conditions, entry.2.Fits entry.2.condition) :
    Accounted b' { h with store := s, watches, conditions } where
  numbered := ht.numbered
  ledger := by
    obtain ⟨rest, hbefore, hafter⟩ := hledger
    exact (ht.balance rest (H.ledger.trans hbefore)).trans hafter.symm
  released := hreleased
  watchNames := hwatches
  conditionNames := hconditions
  conditions := hfits
  ruleNames := H.ruleNames
  taskIds := H.taskIds
  tasks := fun entry hentry => ⟨(H.tasks entry hentry).started, (H.tasks entry hentry).restless,
    (H.tasks entry hentry).rule⟩
  told := fun id ws htells => by
    rcases H.told id ws (htold ▸ htells) with hrunning | hover
    · exact .inl hrunning
    · exact .inr (hover.mono (fun hruns => hruns) (Nat.le_refl _) ht)

/-! ## Tasks and conditions are touched -/

/-- All tasks in the line stay there. Besides that time may pass, and callers may wait for other
responses. -/
theorem setLine (H : h.Accounted b) (line : List TaskId) (clock : Nat)
    (requests : List (String × TaskId))
    (hline : ∀ id ∈ h.line, id ∈ h.tasks.map Prod.fst → id ∈ line) :
    Accounted b { h with line, clock, requests } where
  numbered := H.numbered
  ledger := H.ledger
  released := H.released
  watchNames := H.watchNames
  conditionNames := H.conditionNames
  conditions := H.conditions
  ruleNames := H.ruleNames
  taskIds := H.taskIds
  tasks := fun entry hentry => ⟨(H.tasks entry hentry).started,
    fun hrestless => hline _ ((H.tasks entry hentry).restless hrestless)
      (List.mem_map_of_mem hentry), (H.tasks entry hentry).rule⟩
  told := fun id watches htells => by
    rcases H.told id watches htells with hrunning | hover
    · exact .inl hrunning
    · exact .inr (hover.mono (fun hruns => hruns) (Nat.le_refl _) (.refl H.numbered))

/-- Conditions are touched, and keep their feeds. -/
theorem mapConditions {f : String → ConditionWatch → ConditionWatch} (H : h.Accounted b)
    (hf : ∀ name w, (name, w) ∈ h.conditions → ConditionWatch.SameFeeds w (f name w)) :
    Accounted b { h with
      conditions := h.conditions.map fun entry => (entry.1, f entry.1 entry.2) } := by
  refine H.trade b h.watches _ (.refl H.numbered) rfl
    ⟨b.spare + h.ledger b.released, (zero_add _).symm, ?_⟩
    H.released H.watchNames ?_ fun entry hentry => ?_
  · rw [zero_add, Hub.ledger, Hub.ledger, total_map _ fun name w hw => (hf name w hw).owned]
  · rw [List.map_map]
    exact H.conditionNames
  · obtain ⟨⟨name, w⟩, hw, rfl⟩ := List.mem_map.1 hentry
    exact (hf name w hw).fits_self (H.conditions _ hw)

/-- Tasks are touched, and keep their watches. -/
theorem mapTasks {f : TaskId → Task → Task} (H : h.Accounted b) (line : List TaskId)
    (rules : List (String × TaskId)) (hrules : (rules.map Prod.fst).Nodup)
    (hf : ∀ id t, (id, t) ∈ h.tasks → Task.Carries t (f id t))
    (hline : ∀ id t, (id, t) ∈ h.tasks → (f id t).IsRestless → id ∈ line)
    (hregistered : ∀ id t r, (id, t) ∈ h.tasks → f id t = .rule r → r.isAlive = true →
      r.cancelled = true ∨ id ∈ rules.map Prod.snd) :
    Accounted b { h with
      tasks := h.tasks.map fun entry => (entry.1, f entry.1 entry.2), line, rules } where
  numbered := H.numbered
  ledger := by
    rw [Hub.ledger, total_map _ fun id t ht => (hf id t ht).owned_eq]
    exact H.ledger
  released := H.released
  watchNames := H.watchNames
  conditionNames := H.conditionNames
  conditions := H.conditions
  ruleNames := hrules
  taskIds := by
    rw [List.map_map]
    exact H.taskIds
  tasks := fun entry hentry => by
    obtain ⟨⟨id, t⟩, ht, rfl⟩ := List.mem_map.1 hentry
    refine ⟨(H.tasks _ ht).started, hline id t ht, fun r hr halive => ?_⟩
    refine ⟨?_, hregistered id t r ht hr halive⟩
    have hcarries := hf id t ht
    rw [show f id t = .rule r from hr] at hcarries
    cases hcarries with
    | rule alive rule feeds =>
      rw [rule]
      exact feeds.fits ((H.tasks _ ht).rule _ rfl (alive ▸ halive)).1
  told := fun id watches htells => by
    rcases H.told id watches htells with ⟨t, ht, halive, rfl, hbound⟩ | hover
    · have hmem : (id, f id (.rule t)) ∈ h.tasks.map fun entry => (entry.1, f entry.1 entry.2) :=
        List.mem_map_of_mem ht
      have hcarries := hf id _ ht
      generalize f id (.rule t) = touched at hmem hcarries
      cases hcarries with
      | rule alive _ feeds cancelled stopping =>
        exact .inl ⟨_, hmem, alive.trans halive, feeds.watches, hbound.imp cancelled stopping⟩
    · refine .inr (hover.mono ?_ (Nat.le_refl _) (.refl H.numbered))
      rintro ⟨r, hr, halive⟩
      obtain ⟨⟨i, t⟩, ht, heq⟩ := List.mem_map.1 hr
      obtain ⟨rfl, hfr⟩ := Prod.mk.inj heq
      have hcarries := hf i t ht
      rw [show f i t = .rule r from hfr] at hcarries
      cases hcarries with
      | rule alive => exact ⟨_, ht, alive ▸ halive⟩

/-- Passing on the bells that were rung leaves a hub accounted for. -/
theorem rouse (H : h.Accounted b) : h.rouse.Accounted b := by
  have hcarries : ∀ (i : TaskId) t, (i, t) ∈ h.tasks → Task.Carries t (t.rouse h.store) := by
    intro i t _
    cases t with
    | rule t => exact .rule rfl rfl ⟨rfl, rfl⟩ id id
    | request t => exact .refl _
  have hroused := (H.mapTasks h.line h.rules H.ruleNames hcarries ?_ ?_).mapConditions
    (f := fun _ w => w.rouse h.store) fun _ _ _ => ⟨rfl, rfl⟩
  · exact hroused.setLine _ _ _ fun _ hid _ => List.mem_append_left _ hid
  · intro id t ht hrestless
    refine (H.tasks _ ht).restless ?_
    cases t <;> exact hrestless
  · intro id t r ht hr halive
    cases t with
    | rule t =>
      cases hr
      exact ((H.tasks _ ht).rule t rfl halive).2
    | request t => cases hr

end Accounted

end Hub

end Switchboard
