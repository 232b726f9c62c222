import Mathlib
import Switchboard.Proofs.Hub.Resting
/-!
# Removed rules are dead

When a rule is removed, or all of them are, its task is cancelled. If the task waits, be it before
its first step, with news that would make it fire, or asleep in the middle of its actions, it has no
deeds any more, whatever happens. All that is left to it is to end its own watches (`Dead`). If it
is at work, it goes on up to the next point where it would have to wait, and ends there (`Lingers`).

`Hub.Chronicle.removed_rules_are_dead` says it for every state of a run.
-/

namespace Switchboard

namespace Hub

variable {h : Hub} {e : Event} {id : TaskId}

/-- A task that ends and leaves the mailboxes of the others as they are: it leaves the line, and the
rules that live stand where they stood. -/
theorem turned_ends {t' : RuleTask} {rest : List TaskId} {s : Store} (hroused : h.Roused)
    (hline : h.line = id :: rest) (hended : t'.isAlive = false)
    (hbells : ∀ i u, i ≠ id → (i, u) ∈ h.tasks → ∀ watch ∈ u.owned,
      s.registry.bell watch = h.store.registry.bell watch) :
    (h.turned id rest (.ends, .rule t', s)).line = rest ∧
      ∀ i (t : RuleTask), i ≠ id → (i, .rule t) ∈ h.tasks → t.isAlive = true →
        (i, .rule t) ∈ (h.turned id rest (.ends, .rule t', s)).tasks := by
  refine ⟨?_, fun i t hi ht halive => ?_⟩
  · rw [turned_eq, if_neg (show ¬ Progress.ends = .runs by decide)]
    refine line_rouse fun i u hu hwoken => ?_
    rcases mem_left hu with ⟨rfl, rfl⟩ | ⟨hi, hmem⟩
    · rw [Task.isWoken, hended] at hwoken
      cases hwoken
    · have hlined := (hroused i u hmem).2 ((Task.isWoken_congr (hbells i u hi hmem)).symm.trans
        hwoken)
      rw [hline] at hlined
      exact (List.mem_cons.1 hlined).resolve_left hi
  · have howned : (Task.rule t).owned = t.watch.owned := RuleTask.owned_of_alive halive
    have hheard : Task.IsRoused s (.rule t) :=
      (ConditionWatch.woken_congr rfl (fun _ => Iff.rfl) fun watch hwatch =>
        hbells i _ hi ht watch (by rw [howned]; exact Multiset.mem_coe.2 hwatch)).trans
        (hroused i _ ht).1
    have hmem : (i, (Task.rule t).rouse s) ∈ (h.turned id rest (.ends, .rule t', s)).tasks :=
      mem_turned_of_ne hi ht
    rwa [Task.rouse_of_isRoused hheard] at hmem

/-- The task whose turn it was is there as long as it lives. -/
theorem lookup_turned_self {t t' : RuleTask} {rest : List TaskId} {progress : Progress} {s : Store}
    (hlookup : h.tasks.lookup id = some (.rule t))
    (halive : t'.isAlive = true) :
    (h.turned id rest (progress, .rule t', s)).tasks.lookup id =
      some (.rule { t' with watch := t'.watch.rouse s }) := by
  have hkept : h.isForgotten id (.rule t') = false := by
    rw [isForgotten, halive]
    rfl
  have hupdated : (h.updateTask id fun _ => .rule t').tasks.lookup id = some (.rule t') := by
    refine (Keyed.lookup_map h.tasks (fun i u => if i = id then .rule t' else u) id).trans ?_
    rw [hlookup, Option.map_some, if_pos rfl]
  rw [turned_eq, hkept]
  refine (Keyed.lookup_map _ (fun _ u => Task.rouse u s) id).trans ?_
  rw [if_neg Bool.false_ne_true, hupdated]
  rfl

namespace Chronicle

variable {c c' : Chronicle} {i : TaskId}

/-! ## The deeds of tasks -/

/-- What a move does: all tasks of rules rest, or one of them has its turn. -/
inductive Goes (c c' : Chronicle) : Prop
  | rests (hdeeds : c'.deeds = c.deeds) (hrests : c.hub.Rests c'.hub) (hroused : c'.hub.Roused)
  | turn {id : TaskId} {rest : List TaskId} {t t' : RuleTask} {progress : Progress} {s : Store}
      (hlookup : c.hub.tasks.lookup id = some (.rule t))
      (hdoes : t.Does c.hub.store (t.deed? t') t' s)
      (hpoised : t.Poised → t'.Poised)
      (hdeeds : c'.deeds = c.deeds ++ (t.deed? t').toList.map (id, ·))
      (hhub : c'.hub = c.hub.turned id rest (progress, .rule t', s))

theorem next_goes (H : c.Accounted) (hroused : c.hub.Roused) (m : Move) : c.Goes (c.next m) := by
  have hlooked : ∀ others handled, c.Goes (c.looked others handled) := fun others handled =>
    .rests rfl (.withStore c.hub c.hub.watches c.hub.conditions handled.2) (roused_rouse _)
  have hstays : c.Goes c := .rests rfl (.refl c.hub) hroused
  cases m with
  | event e =>
    rw [next]
    split
    · next he =>
      have hhappens := after_happens he H.taskIds hroused
      generalize hafter : c.hub.after e = h' at hhappens
      cases hhappens with
      | rests hturn hrests hroused' =>
        subst hafter
        refine .rests ?_ hrests hroused'
        show c.deeds ++ c.hub.deedsIn e = c.deeds
        rw [deedsIn, hturn]
        exact List.append_nil _
      | turn hturn _ hlookup hdoes hpoised =>
        refine .turn hlookup hdoes hpoised ?_ hafter
        show c.deeds ++ c.hub.deedsIn e = _
        rw [deedsIn, hturn]
    · exact hstays
  | arrive r => exact hlooked _ _
  | look place =>
    rw [next]
    split
    · exact hlooked _ _
    · exact hstays

theorem deedsOf_append {deeds : List Deed} (hdeeds : c'.deeds = c.deeds ++ deeds.map (i, ·))
    (id : TaskId) : c'.deedsOf id = c.deedsOf id ++ if i = id then deeds else [] := by
  rw [deedsOf, hdeeds, List.filterMap_append, List.filterMap_map]
  congr 1
  by_cases hi : i = id <;> simp [hi]

/-- The deeds of others are not those of the task. -/
theorem deedsOf_append_of_ne {deeds : List Deed} (hdeeds : c'.deeds = c.deeds ++ deeds.map (i, ·))
    {id : TaskId} (hi : i ≠ id) : c'.deedsOf id = c.deedsOf id := by
  rw [deedsOf_append hdeeds, if_neg hi]
  exact List.append_nil _

theorem deedsOf_congr (hdeeds : c'.deeds = c.deeds) (id : TaskId) :
    c'.deedsOf id = c.deedsOf id := by
  rw [deedsOf, hdeeds, deedsOf]

/-- Each task of a rule has its deeds on record, and every rule that is registered has a task. -/
structure Orderly (c : Chronicle) : Prop where
  accounted : c.Accounted
  roused : c.hub.Roused
  registered : ∀ entry ∈ c.hub.rules, ∃ t, (entry.2, Task.rule t) ∈ c.hub.tasks
  recorded : ∀ id t, (id, Task.rule t) ∈ c.hub.tasks →
    ∃ firings, t.Recorded firings (c.deedsOf id)
  known : ∀ deed ∈ c.deeds, deed.1.number ≤ c.hub.started
  poised : ∀ id t, (id, Task.rule t) ∈ c.hub.tasks → t.Poised

theorem Orderly.start (scheme : String) (timeout : Nat) : (start scheme timeout).Orderly :=
  ⟨.new scheme timeout, nofun, nofun, nofun, nofun, nofun⟩

/-- A task that has not been started has no deeds. -/
theorem Orderly.deedsOf_eq_nil (H : c.Orderly) (hid : c.hub.started < id.number) :
    c.deedsOf id = [] := by
  refine List.filterMap_eq_nil_iff.2 fun deed hdeed => if_neg ?_
  rintro rfl
  exact absurd (H.known deed hdeed) (Nat.not_le_of_lt hid)

theorem Orderly.next (H : c.Orderly) (m : Move) : (c.next m).Orderly := by
  have haccounted := H.accounted.next m
  have hgoes := next_goes H.accounted H.roused m
  generalize c.next m = c' at haccounted hgoes
  cases hgoes with
  | rests hdeeds hrests hroused =>
    refine ⟨haccounted, hroused, fun entry hentry => ?_, fun id t' ht' => ?_, fun deed hdeed => ?_,
      fun id t' ht' => ?_⟩
    · rcases hrests.rules entry hentry with hold | hnew
      · obtain ⟨t, ht⟩ := H.registered entry hold
        exact hrests.kept _ t ht
      · exact hnew
    · rw [deedsOf_congr hdeeds]
      rcases hrests.task id _ ht' with ⟨t, ht, hrest⟩ | ⟨hlt, hnew⟩
      · cases hrest with
        | rule hrest =>
          obtain ⟨firings, hrecorded⟩ := H.recorded id _ ht
          exact ⟨firings, hrecorded.of_eq hrest.rule hrest.fired hrest.phase⟩
      · refine ⟨[], (H.deedsOf_eq_nil hlt).trans rfl, hnew.2.1.symm, nofun,
          fun remaining hleft => ?_⟩
        rw [hnew.1] at hleft
        cases hleft
    · rw [hdeeds] at hdeed
      exact (H.known deed hdeed).trans hrests.started
    · rcases hrests.task id _ ht' with ⟨t, ht, hrest⟩ | ⟨-, hnew⟩
      · cases hrest with
        | rule hrest => exact hrest.poised (H.poised id _ ht)
      · exact fun hworks => absurd hworks (Bool.eq_false_iff.1 hnew.2.2)
  | @turn id rest t t' progress s hlookup hdoes hpoised hdeeds hhub =>
    have hstarted : c'.hub.started = c.hub.started := by
      rw [hhub, turned_eq]
      rfl
    have hself := Keyed.mem_of_lookup hlookup
    refine ⟨haccounted, ?_, fun entry hentry => ?_, fun i u hu => ?_, fun deed hdeed => ?_,
      fun i u hu => ?_⟩
    · rw [hhub, turned_eq]
      exact roused_rouse _
    · have hold : entry ∈ c.hub.rules := by
        rw [hhub, turned_eq] at hentry
        exact hentry
      obtain ⟨r, hr⟩ := H.registered entry hold
      rw [hhub]
      exact exists_mem_turned hlookup hr (List.mem_map_of_mem hold)
    · rw [hhub] at hu
      obtain ⟨u', hrest, ⟨rfl, rfl⟩ | ⟨hi, hmem⟩⟩ := mem_turned_rule hu
      · obtain ⟨firings, hrecorded⟩ := H.recorded i t hself
        obtain ⟨firings', hturned⟩ := hrecorded.turn hdoes
        rw [deedsOf_append hdeeds, if_pos rfl]
        exact ⟨firings', hturned.of_eq hrest.rule hrest.fired hrest.phase⟩
      · obtain ⟨firings, hrecorded⟩ := H.recorded i u' hmem
        rw [deedsOf_append_of_ne hdeeds (Ne.symm hi)]
        exact ⟨firings, hrecorded.of_eq hrest.rule hrest.fired hrest.phase⟩
    · rw [hstarted]
      rw [hdeeds] at hdeed
      rcases List.mem_append.1 hdeed with hold | hnew
      · exact H.known deed hold
      · obtain ⟨_, -, rfl⟩ := List.mem_map.1 hnew
        exact (H.accounted.tasks _ hself).started
    · rw [hhub] at hu
      obtain ⟨u', hrest, ⟨rfl, rfl⟩ | ⟨-, hmem⟩⟩ := mem_turned_rule hu
      · exact hrest.poised (hpoised (H.poised i t hself))
      · exact hrest.poised (H.poised i u' hmem)

theorem Orderly.after (H : c.Orderly) (moves : List Move) : (c.after moves).Orderly := by
  induction moves generalizing c with
  | nil => exact H
  | cons m moves ih => exact ih (H.next m)

/-! ## Dead tasks -/

/-- The task of the rule is at work. -/
def AtWork (c : Chronicle) (id : TaskId) : Prop :=
  ∃ t, (id, Task.rule t) ∈ c.hub.tasks ∧ t.working = true

/-- The task is not resumed any more, or it is gone. It has done all that it will do: its deeds are
those in the record, and it has fired so often. -/
structure Dead (c : Chronicle) (id : TaskId) (fired : Nat) (deeds : List Deed) : Prop where
  started : id.number ≤ c.hub.started
  task : ∀ u, (id, u) ∈ c.hub.tasks → ∃ t, u = .rule t ∧ t.isAborted = true ∧ t.fired = fired
  deeds : c.deedsOf id = deeds

variable {fired : Nat} {deeds : List Deed}

theorem Dead.next (h : c.Dead id fired deeds) (H : c.Orderly) (m : Move) :
    (c.next m).Dead id fired deeds := by
  have hgoes := next_goes H.accounted H.roused m
  generalize c.next m = c' at hgoes
  cases hgoes with
  | rests hdeeds hrests hroused =>
    refine ⟨h.started.trans hrests.started, fun u hu => ?_, ?_⟩
    · rcases hrests.task id u hu with ⟨u₀, hu₀, hrest⟩ | ⟨hlt, -⟩
      · obtain ⟨r, rfl, haborted, hfired⟩ := h.task u₀ hu₀
        cases hrest with
        | rule hrest => exact ⟨_, rfl, hrest.isAborted haborted, hrest.fired.trans hfired⟩
      · exact absurd h.started (Nat.not_le_of_lt hlt)
    · exact (deedsOf_congr hdeeds id).trans h.deeds
  | @turn i rest r r' progress s hlookup hdoes _ hdeeds hhub =>
    have hself : i = id → r'.isAborted = true ∧ r'.fired = fired ∧ r.deed? r' = none := by
      rintro rfl
      obtain ⟨_, ⟨⟩, haborted, hfired⟩ := h.task _ (Keyed.mem_of_lookup hlookup)
      obtain ⟨hnone, haborted', hfired'⟩ := hdoes.of_aborted haborted
      exact ⟨haborted', hfired'.trans hfired, hnone⟩
    refine ⟨?_, fun u hu => ?_, ?_⟩
    · rw [hhub, turned_eq]
      exact h.started
    · rw [hhub] at hu
      obtain ⟨u', rfl, ⟨rfl, rfl⟩ | ⟨-, hmem⟩⟩ := mem_turned hu
      · obtain ⟨haborted, hfired, -⟩ := hself rfl
        exact ⟨_, rfl, haborted, hfired⟩
      · obtain ⟨r₀, rfl, haborted, hfired⟩ := h.task u' hmem
        exact ⟨_, rfl, haborted, hfired⟩
    · by_cases hi : i = id
      · rw [deedsOf_append hdeeds, h.deeds, if_pos hi, (hself hi).2.2]
        exact List.append_nil _
      · exact (deedsOf_append_of_ne hdeeds hi).trans h.deeds

theorem Dead.after (h : c.Dead id fired deeds) (H : c.Orderly) (moves : List Move) :
    (c.after moves).Dead id fired deeds := by
  induction moves generalizing c with
  | nil => exact h
  | cons m moves ih => exact ih (h.next H m) (H.next m)

/-- The task of the rule was cancelled, and maybe it is gone. It has done `deeds` before, with the
actions `left` before it then, and what it has done since is no more than its last deeds. -/
structure Lingers (c : Chronicle) (id : TaskId) (rule : Rule) (left : List Action)
    (deeds : List Deed) : Prop where
  started : id.number ≤ c.hub.started
  firings : ∃ firings, c.deedsOf id = Deed.ofFirings firings ∧
    ∀ done ∈ firings, done <+: rule.actions
  since : ∃ more, c.deedsOf id = deeds ++ more ∧ LastDeeds left more ∧
    ∀ u, (id, u) ∈ c.hub.tasks → ∃ t, u = .rule t ∧ t.rule = rule ∧ t.Winds left more

variable {rule : Rule} {left : List Action}

theorem Lingers.next (h : c.Lingers id rule left deeds) (H : c.Orderly) (m : Move) :
    (c.next m).Lingers id rule left deeds := by
  have hgoes := next_goes H.accounted H.roused m
  generalize c.next m = c' at hgoes
  obtain ⟨more, hmore, hlast, htasks⟩ := h.since
  cases hgoes with
  | rests hdeeds hrests hroused =>
    have hsame := deedsOf_congr hdeeds id
    refine ⟨h.started.trans hrests.started, hsame ▸ h.firings, more, hsame.trans hmore, hlast,
      fun u hu => ?_⟩
    rcases hrests.task id u hu with ⟨u₀, hu₀, hrest⟩ | ⟨hlt, -⟩
    · obtain ⟨r, rfl, hrule, hwinds⟩ := htasks u₀ hu₀
      cases hrest with
      | rule hrest =>
        exact ⟨_, rfl, hrest.rule.trans hrule,
          hwinds.of_eq (hrest.cancelled hwinds.cancelled) hrest.phase⟩
    · exact absurd h.started (Nat.not_le_of_lt hlt)
  | @turn i rest r r' progress s hlookup hdoes _ hdeeds hhub =>
    have hstarted : id.number ≤ c'.hub.started := by
      rw [hhub, turned_eq]
      exact h.started
    have hself := Keyed.mem_of_lookup hlookup
    by_cases hi : i = id
    · subst hi
      obtain ⟨_, ⟨⟩, hrule, hwinds⟩ := htasks _ hself
      have hnow : c'.deedsOf i = c.deedsOf i ++ (r.deed? r').toList := by
        rw [deedsOf_append hdeeds, if_pos rfl]
      have hwinds' := hwinds.turn hdoes
      have hrule' : r'.rule = rule := hdoes.rule_eq.trans hrule
      obtain ⟨firings, hrecorded⟩ := H.recorded i r hself
      obtain ⟨firings', hrecorded'⟩ := hrecorded.turn hdoes
      refine ⟨hstarted, ⟨firings', hnow.trans hrecorded'.deeds, hrule' ▸ hrecorded'.inOrder⟩, _,
        ?_, hwinds'.lastDeeds, fun u hu => ?_⟩
      · rw [hnow, hmore, List.append_assoc]
      · rw [hhub] at hu
        obtain ⟨u', rfl, ⟨-, rfl⟩ | ⟨hne, -⟩⟩ := mem_turned hu
        · exact ⟨_, rfl, hrule', hwinds'.of_eq hwinds'.cancelled rfl⟩
        · exact absurd rfl hne
    · have hsame := deedsOf_append_of_ne hdeeds hi
      refine ⟨hstarted, hsame ▸ h.firings, more, hsame.trans hmore, hlast, fun u hu => ?_⟩
      rw [hhub] at hu
      obtain ⟨u', rfl, ⟨rfl, -⟩ | ⟨-, hmem⟩⟩ := mem_turned hu
      · exact absurd rfl hi
      · obtain ⟨t, rfl, hrule, hwinds⟩ := htasks u' hmem
        exact ⟨_, rfl, hrule, hwinds.of_eq hwinds.cancelled rfl⟩

theorem Lingers.after (h : c.Lingers id rule left deeds) (H : c.Orderly) (moves : List Move) :
    (c.after moves).Lingers id rule left deeds := by
  induction moves generalizing c with
  | nil => exact h
  | cons m moves ih => exact ih (h.next H m) (H.next m)

/-- From `c` to `c'` the task at the head of the line has left it, and all else is as it was: no
task has done anything, and the other rules that live have their mailboxes as before. -/
structure OnlyEnds (c : Chronicle) (id : TaskId) (c' : Chronicle) : Prop where
  deeds : c'.deeds = c.deeds
  tree : c'.hub.store.tree = c.hub.store.tree
  line : c'.hub.line = c.hub.line.tail
  rules : c'.hub.rules = c.hub.rules
  others : ∀ i t, i ≠ id → (i, Task.rule t) ∈ c.hub.tasks → t.isAlive = true →
    (i, Task.rule t) ∈ c'.hub.tasks ∧
      ∀ watch ∈ t.watch.watches, c.hub.store.registry.Spares c'.hub.store.registry watch

/-- No watch belongs to two tasks. -/
theorem Accounted.not_mem_owned {t u : Task} {watch : WatchId} (H : c.Accounted)
    (hlookup : c.hub.tasks.lookup id = some t) (hi : i ≠ id) (hu : (i, u) ∈ c.hub.tasks)
    (hwatch : watch ∈ u.owned) : watch ∉ t.owned := by
  have hnodup := Store.nodup_watched H.numbered
  rw [Hub.Accounted.watched_of_lookup H hlookup] at hnodup
  refine Multiset.disjoint_right.1 (Multiset.nodup_add.1 hnodup).2.2 ?_
  refine Multiset.mem_add.2 (.inr (mem_total Task.owned (k := i) (v := u) ?_ hwatch))
  exact List.mem_filter.2 ⟨hu, by simpa using hi⟩

/-- A task that was cancelled ends with its step, and keeps to the watches that it owns, or it is at
work and stays so. -/
theorem step_of_cancelled {t : RuleTask} (hcancelled : t.cancelled = true) (clock : Nat)
    (s : Store) :
    (∃ t' s', t.step clock s = (.ends, t', s') ∧ t'.isAlive = false ∧ t'.fired = t.fired ∧
      s.KeepsTo (· ∈ t.owned) s') ∨
    t.working = true ∧
      ∃ t' s', t.step clock s = (.runs, t', s') ∧ t'.isAlive = true ∧ t'.working = true := by
  have hfinish : t.isAlive = true → ∀ stepped, stepped = t.finish s → ∃ t' s',
      stepped = (.ends, t', s') ∧ t'.isAlive = false ∧ t'.fired = t.fired ∧
        s.KeepsTo (· ∈ t.owned) s' := by
    rintro halive _ rfl
    rw [RuleTask.owned_of_alive halive]
    exact ⟨_, _, rfl, rfl, rfl, s.dropAll_keepsTo t.watch.watches⟩
  have htaken := t.step_taken clock s
  generalize t.step clock s = stepped at htaken
  cases htaken with
  | stays hended => exact .inl ⟨t, s, rfl, hended, rfl, .refl _ s⟩
  | dropped halive => exact .inl (hfinish halive _ rfl)
  | @advanced progress t' s' halive haborted hadvance hwaits =>
    cases progress with
    | runs =>
      have hworks : t.working = true := by
        rw [RuleTask.isAborted, hcancelled] at haborted
        simpa using haborted
      exact .inr ⟨hworks, _, _, rfl, (RuleTask.advance_eq_runs hadvance).isAlive, rfl⟩
    | waits => exact absurd hcancelled (Bool.eq_false_iff.1 (hwaits rfl))
    | ends =>
      obtain ⟨-, rfl, rfl⟩ := RuleTask.advance_eq_ends halive hadvance
      exact .inl (hfinish halive _ rfl)

theorem hub_of_step {t t' : RuleTask} {rest : List TaskId} {progress : Progress} {s' : Store}
    (hline : c.hub.line = id :: rest) (hlookup : c.hub.tasks.lookup id = some (.rule t))
    (hstep : t.step c.hub.clock c.hub.store = (progress, t', s')) :
    (c.next (.event .step)).hub = c.hub.turned id rest (progress, .rule t', s') := by
  have hturned := step_of_lookup hline hlookup
  rw [Task.step, hstep] at hturned
  exact congrArg (Option.getD · c.hub) hturned

/-- A step of a task that ends does nothing else. -/
theorem onlyEnds_of_step {t t' : RuleTask} {rest : List TaskId} {s' : Store} (H : c.Orderly)
    (hline : c.hub.line = id :: rest) (hlookup : c.hub.tasks.lookup id = some (.rule t))
    (hstep : t.step c.hub.clock c.hub.store = (.ends, t', s')) (hended : t'.isAlive = false)
    (hfired : t'.fired = t.fired) (hkeeps : c.hub.store.KeepsTo (· ∈ t.owned) s') :
    c.OnlyEnds id (c.next (.event .step)) := by
  have hhub := hub_of_step hline hlookup hstep
  have hdeeds : (c.next (.event .step)).deeds = c.deeds := by
    show c.deeds ++ c.hub.deedsIn .step = c.deeds
    rw [deedsIn, turn?_step hline hlookup, hstep]
    dsimp only
    rw [RuleTask.deed?_eq_none hfired fun _ _ _ => hended]
    exact List.append_nil _
  -- What belongs to other tasks is not touched.
  have hspares : ∀ i u, i ≠ id → (i, u) ∈ c.hub.tasks → ∀ watch ∈ u.owned,
      c.hub.store.registry.Spares s'.registry watch := fun i u hi hu watch hwatch =>
    hkeeps.others watch (H.accounted.not_mem_owned hlookup hi hu hwatch)
  obtain ⟨hrest, hothers⟩ := turned_ends H.roused hline hended
    fun i u hi hu watch hwatch => (hspares i u hi hu watch hwatch).bell
  refine ⟨hdeeds, ?_, ?_, ?_, fun i t hi ht halive => ⟨?_, fun watch hwatch => ?_⟩⟩ <;> rw [hhub]
  · rw [turned_eq]
    exact hkeeps.tree
  · rw [hrest, hline]
    rfl
  · rw [turned_eq]
    rfl
  · exact hothers i t hi ht halive
  · rw [turned_eq]
    have howned : (Task.rule t).owned = t.watch.owned := RuleTask.owned_of_alive halive
    exact hspares i _ hi ht watch (by rw [howned]; exact Multiset.mem_coe.2 hwatch)

/-- Nothing happens if the task at the head of the line is gone. -/
theorem onlyEnds_of_gone {rest : List TaskId} (hline : c.hub.line = id :: rest)
    (hlookup : c.hub.tasks.lookup id = none) : c.OnlyEnds id (c.next (.event .step)) := by
  have hhub : (c.next (.event .step)).hub = { c.hub with line := rest } := by
    have hstep := step_of_lookup_none hline hlookup
    exact congrArg (Option.getD · c.hub) hstep
  have hdeeds : (c.next (.event .step)).deeds = c.deeds := by
    have hfirst : c.hub.firstRule? = none := by simp only [firstRule?, hline, hlookup]
    show c.deeds ++ c.hub.deedsIn .step = c.deeds
    rw [deedsIn, turn?, hfirst]
    exact List.append_nil _
  refine ⟨hdeeds, ?_, ?_, ?_, fun i t _ ht _ => ?_⟩ <;> rw [hhub]
  · rw [hline]
    rfl
  · exact ⟨ht, fun watch _ => .refl _ watch⟩

/-- The step of a task that was cancelled only ends it, unless it is at work and stays so. -/
theorem Lingers.step (h : c.Lingers id rule left deeds) (H : c.Orderly)
    (hhead : c.hub.line.head? = some id) :
    c.OnlyEnds id (c.next (.event .step)) ∨ c.AtWork id ∧ (c.next (.event .step)).AtWork id := by
  obtain ⟨rest, hline⟩ := List.head?_eq_some_iff.1 hhead
  obtain ⟨more, -, -, htasks⟩ := h.since
  cases hlookup : c.hub.tasks.lookup id with
  | none => exact .inl (onlyEnds_of_gone hline hlookup)
  | some u =>
    have hself := Keyed.mem_of_lookup hlookup
    obtain ⟨t, rfl, -, hwinds⟩ := htasks u hself
    rcases step_of_cancelled hwinds.cancelled c.hub.clock c.hub.store with
      ⟨t', s', hstep, hended, hfired, hkeeps⟩ | ⟨hworks, t', s', hstep, halive, hworks'⟩
    · exact .inl (onlyEnds_of_step H hline hlookup hstep hended hfired hkeeps)
    · refine .inr ⟨⟨t, hself, hworks⟩, { t' with watch := t'.watch.rouse s' }, ?_, hworks'⟩
      rw [hub_of_step hline hlookup hstep]
      exact Keyed.mem_of_lookup (lookup_turned_self hlookup halive)

end Chronicle

end Hub

end Switchboard
