import Mathlib
import Switchboard.Proofs.Hub.Admission
import Switchboard.Proofs.Hub.Removal
/-!
# The careers of tasks

In a run of a hub the task of a rule has its turns, and in between it rests. `Chronicle.turnsOf`
lists the turns that a task has during some moves, each with the store that it meets, and a career
(`RuleTask.Career`) leads through them. Whatever else goes on in the hub, a task that is there at
the end has had the career that is listed (`Chronicle.Orderly.career`). So what holds of the task at
first, and is kept while it rests and in each of its turns, holds after every run.

All that a turn can be is said once, by `TaskTurn.Made.outcome`.
-/

namespace Switchboard

/-! ## Actions -/

/-- The action fails, and not because it has lost against another write. -/
def Action.failsHard (s : Store) (action : Action) : Bool :=
  match (action.run s).1 with
  | .ok _ => false
  | .error e => !e.isConflict

/-- The time for which a task asks to be woken when it carries out the action. -/
def Action.wakeUp? (clock : Nat) (action : Action) : Option Nat :=
  if action.ticks = 0 then none else some (clock + action.ticks)

/-- Where a task stands that has carried out an action, with others remaining. -/
def Phase.afterAction (clock : Nat) (s : Store) (action : Action) (rest : List Action) : Phase :=
  if action.failsHard s then .following false
  else
    match action.wakeUp? clock with
    | some wakeUp => .sleeping wakeUp rest
    | none => .acting rest

/-- The store after an action. -/
def Store.acted (s : Store) (action : Action) : Store :=
  (action.run s).2

namespace Phase

/-- Where a task stands after an action: it gives up the others if this one has failed for good, it
sleeps if this was a delay, and otherwise it goes on. -/
theorem afterAction_cases (clock : Nat) (s : Store) (action : Action) (rest : List Action) :
    action.failsHard s = true ∧ action.wakeUp? clock = none ∧
      afterAction clock s action rest = .following false ∨
    action.failsHard s = false ∧
      ((∃ duration, action = .delay duration ∧ duration.ticks ≠ 0 ∧
          afterAction clock s action rest = .sleeping (clock + duration.ticks) rest) ∨
        action.wakeUp? clock = none ∧ afterAction clock s action rest = .acting rest) := by
  rw [afterAction]
  cases hfails : action.failsHard s with
  | true =>
    cases action with
    | set | remove => exact .inl ⟨rfl, rfl, rfl⟩
    | delay => cases hfails
  | false =>
    refine .inr ⟨rfl, ?_⟩
    cases action with
    | set | remove => exact .inr ⟨rfl, rfl⟩
    | delay duration =>
      rw [Action.wakeUp?]
      by_cases hzero : (Action.delay duration).ticks = 0
      · rw [if_pos hzero]
        exact .inr ⟨rfl, rfl⟩
      · rw [if_neg hzero]
        exact .inl ⟨duration, rfl, hzero, rfl⟩

end Phase

/-- An action is carried out: this is what becomes of the task and of the store. -/
theorem RuleTask.act_cons (t : RuleTask) (clock : Nat) (s : Store) (action : Action)
    (rest : List Action) : t.act clock s (action :: rest) =
      (if (action.wakeUp? clock).isSome then .waits else .runs,
        { t with phase := .afterAction clock s action rest }, (action.run s).2) := by
  cases action with
  | delay duration =>
    by_cases hzero : duration.ticks = 0 <;>
      simp [act, Phase.afterAction, Action.failsHard, Action.run, Action.wakeUp?, Action.ticks,
        hzero]
  | set | remove =>
    rw [act, Phase.afterAction, Action.failsHard]
    · generalize Action.run s _ = outcome
      obtain ⟨e | n, s₁⟩ := outcome
      · cases hconflict : e.isConflict <;> simp [Action.wakeUp?, Action.ticks, hconflict]
      · rfl
    · exact fun _ hdelay => by cases hdelay

/-! ## Turns -/

theorem RuleTask.isAlive_of_ne_ended {t : RuleTask} (h : t.phase ≠ .ended) : t.isAlive = true := by
  unfold isAlive
  cases hphase : t.phase with
  | ended => exact absurd hphase h
  | starting | following | acting | sleeping => rfl

/-- A turn of the task of a rule: what the task meets, and the task before and after it. -/
structure TaskTurn where
  clock : Nat
  store : Store
  before : RuleTask
  after : RuleTask

namespace TaskTurn

/-- The task makes a step, or it serves its condition although it was told to stop. -/
inductive Made : TaskTurn → Prop
  | step (clock : Nat) (s : Store) (t : RuleTask) : Made ⟨clock, s, t, (t.step clock s).2.1⟩
  | overlooked {clock : Nat} {s : Store} {t : RuleTask} {armed : Bool}
      (hphase : t.phase = .following armed) (haborted : t.isAborted = false)
      (hruns : (RuleTask.yield (t.follow armed s)).1 = .runs) :
      Made ⟨clock, s, t, (RuleTask.yield (t.follow armed s)).2.1⟩

/-- The rule fires. -/
def Fires (r : TaskTurn) : Prop :=
  r.before.fired < r.after.fired

/-- The action that is carried out, with the store on which that is done. -/
def carried? (r : TaskTurn) : Option (Store × Action) :=
  match r.before.deed? r.after with
  | some (.acts action) => some (r.store, action)
  | _ => none

/-- What becomes of the task in a turn. -/
inductive Outcome (r : TaskTurn) : Prop
  /-- It ends, or has ended before. -/
  | ends (hafter : r.after = { r.before with phase := .ended, working := r.after.working })
  /-- It waits. -/
  | waits (hidle : ∀ actions, r.before.phase ≠ .acting actions)
      (hserve : ∀ armed, r.before.phase = .following armed → r.before.watch.serve r.store = none)
      (hcancelled : r.before.cancelled = false)
      (hafter : r.after = { r.before with working := false })
  /-- It notes the value at the start. -/
  | starts (hphase : r.before.phase = .starting)
      (hafter : r.after = { r.before with
        watch := { r.before.watch with reported := some r.before.watch.value }
        phase := .following !r.before.watch.value
        working := true })
  /-- It serves a feed of its condition. -/
  | serves {armed : Bool} {news : Option Bool} {w : ConditionWatch} {s : Store}
      (hphase : r.before.phase = .following armed)
      (hserve : r.before.watch.serve r.store = some (news, w, s))
      (hafter : r.after = { news.elim { r.before with watch := w }
        (RuleTask.react { r.before with watch := w } armed) with working := true })
  /-- Its time has come, and it goes on with its actions. -/
  | wakes {wakeUp : Nat} {remaining : List Action}
      (hphase : r.before.phase = .sleeping wakeUp remaining)
      (hafter : r.after = { r.before with phase := .acting remaining, working := true })
  /-- It carries out an action. A task that was cancelled carries out no delay. -/
  | acts {action : Action} {rest : List Action} (hphase : r.before.phase = .acting (action :: rest))
      (hcancelled : r.before.cancelled = true → action.wakeUp? r.clock = none)
      (hafter : r.after = { r.before with
        phase := .afterAction r.clock r.store action rest
        working := (action.wakeUp? r.clock).isNone })
  /-- It has carried out all actions. -/
  | rounds (hphase : r.before.phase = .acting [])
      (hafter : r.after = { r.before with phase := .following false, working := true })

variable {r : TaskTurn} {clock : Nat} {s s' : Store} {t t' : RuleTask} {progress : Progress}

theorem outcome_follow {armed : Bool} (hphase : t.phase = .following armed)
    (hfollow : t.follow armed s = (progress, t', s'))
    (hwaits : progress = .waits → t.cancelled = false) :
    Outcome ⟨clock, s, t, { t' with working := progress == .runs }⟩ := by
  unfold RuleTask.follow at hfollow
  cases hserve : t.watch.serve s with
  | none =>
    rw [hserve] at hfollow
    dsimp only at hfollow
    split at hfollow
    · cases hfollow
      exact .ends rfl
    · cases hfollow
      exact .waits (by rw [hphase]; exact nofun) (fun _ _ => hserve) (hwaits rfl) rfl
  | some served =>
    obtain ⟨news, w, s₁⟩ := served
    rw [hserve] at hfollow
    cases news <;> cases hfollow <;> exact .serves hphase hserve rfl

theorem outcome_act {actions : List Action} (hphase : t.phase = .acting actions)
    (hact : t.act clock s actions = (progress, t', s'))
    (hwaits : progress = .waits → t.cancelled = false) :
    Outcome ⟨clock, s, t, { t' with working := progress == .runs }⟩ := by
  cases actions with
  | nil =>
    cases hact
    exact .rounds hphase rfl
  | cons action rest =>
    rw [RuleTask.act_cons] at hact
    cases hact
    refine .acts hphase (fun hcancelled => ?_) ?_
    · cases hwakeUp : action.wakeUp? clock with
      | none => rfl
      | some wakeUp =>
        rw [hwakeUp] at hwaits
        exact absurd hcancelled (Bool.eq_false_iff.1 (hwaits rfl))
    · cases action.wakeUp? clock <;> rfl

theorem outcome_advance (hadvance : t.advance clock s = (progress, t', s'))
    (hwaits : progress = .waits → t.cancelled = false) :
    Outcome ⟨clock, s, t, { t' with working := progress == .runs }⟩ := by
  unfold RuleTask.advance at hadvance
  cases hphase : t.phase with
  | ended =>
    rw [hphase] at hadvance
    cases hadvance
    exact .ends (by rw [← hphase])
  | starting =>
    rw [hphase] at hadvance
    cases hadvance
    exact .starts hphase rfl
  | following armed =>
    rw [hphase] at hadvance
    dsimp only at hadvance
    split at hadvance
    · cases hadvance
      exact .ends rfl
    · exact outcome_follow hphase hadvance hwaits
  | acting remaining =>
    rw [hphase] at hadvance
    exact outcome_act hphase hadvance hwaits
  | sleeping wakeUp remaining =>
    rw [hphase] at hadvance
    dsimp only at hadvance
    split at hadvance
    · cases hadvance
      exact .wakes hphase rfl
    · cases hadvance
      exact .waits (by rw [hphase]; exact nofun) (by rw [hphase]; exact nofun) (hwaits rfl) rfl

/-- Every turn is one of these. -/
theorem Made.outcome (h : r.Made) : r.Outcome := by
  cases h with
  | @overlooked clock s t armed hphase haborted hruns =>
    obtain ⟨t', s', hfollow, hyields⟩ := RuleTask.yield_eq_runs hruns
    rw [hyields]
    exact outcome_follow hphase hfollow nofun
  | step clock s t =>
    have htaken := t.step_taken clock s
    generalize t.step clock s = stepped at htaken
    cases htaken with
    | stays hended =>
      refine .ends ?_
      have hphase : t.phase = .ended := by
        unfold RuleTask.isAlive at hended
        split at hended
        · assumption
        · cases hended
      exact congrArg (fun phase => { t with phase }) hphase
    | dropped => exact .ends rfl
    | advanced _ _ hadvance hwaits => exact outcome_advance hadvance hwaits

end TaskTurn

/-! ## Careers -/

/-- The career of a task from `t` on: it has its turns, one after the other, and rests in
between. -/
inductive RuleTask.Career (t : RuleTask) : List TaskTurn → RuleTask → Prop
  | start : Career t [] t
  | rests {turns : List TaskTurn} {u u' : RuleTask} (h : Career t turns u) (hrests : u.Rests u') :
      Career t turns u'
  | turn {turns : List TaskTurn} {r : TaskTurn} (h : Career t turns r.before) (hmade : r.Made) :
      Career t (turns ++ [r]) r.after

/-- A career can be taken up at each of its turns. -/
theorem RuleTask.Career.split {t u : RuleTask} {turns before later : List TaskTurn} {r : TaskTurn}
    (h : t.Career turns u) (hturns : turns = before ++ r :: later) :
    t.Career before r.before ∧ r.Made ∧ r.after.Career later u := by
  induction h generalizing later with
  | start => simp at hturns
  | rests _ hrests ih =>
    obtain ⟨hbefore, hmade, hlater⟩ := ih hturns
    exact ⟨hbefore, hmade, hlater.rests hrests⟩
  | turn h hmade ih =>
    rcases List.eq_nil_or_concat later with rfl | ⟨rest, last, rfl⟩
    · obtain ⟨rfl, rfl⟩ := List.append_singleton_inj.1 hturns
      exact ⟨h, hmade, .start⟩
    · rw [List.concat_eq_append, ← List.cons_append, ← List.append_assoc] at hturns
      obtain ⟨hinit, rfl⟩ := List.append_singleton_inj.1 hturns
      obtain ⟨hbefore, hmade', hlater⟩ := ih hinit
      rw [List.concat_eq_append]
      exact ⟨hbefore, hmade', hlater.turn hmade⟩

namespace Hub

theorem firstRule?_eq_some {h : Hub} {id : TaskId} {t : RuleTask}
    (hfirst : h.firstRule? = some (id, t)) :
    ∃ rest, h.line = id :: rest ∧ h.tasks.lookup id = some (.rule t) := by
  unfold firstRule? at hfirst
  split at hfirst
  · cases hfirst
  · next i rest hline =>
    split at hfirst
    · next u hlookup =>
      cases hfirst
      exact ⟨rest, hline, hlookup⟩
    · cases hfirst

/-- The task that has its turn is the first one in the line. It makes a step, or serves its
condition although it was told to stop. -/
theorem after_of_turn? {h : Hub} {e : Event} {id : TaskId} {t t' : RuleTask}
    (hturn : h.turn? e = some (id, t, t')) :
    ∃ rest progress s, e.isAtOnce = true ∧ h.line = id :: rest ∧
      h.tasks.lookup id = some (.rule t) ∧
      h.after e = h.turned id rest (progress, .rule t', s) ∧
      (t.step h.clock h.store = (progress, t', s) ∨
        ∃ armed, t.phase = .following armed ∧ t.isAborted = false ∧ progress = .runs ∧
          RuleTask.yield (t.follow armed h.store) = (progress, t', s)) := by
  cases e with
  | step =>
    obtain ⟨⟨i, u⟩, hfirst, heq⟩ := Option.map_eq_some_iff.1 hturn
    cases heq
    obtain ⟨rest, hline, hlookup⟩ := firstRule?_eq_some hfirst
    refine ⟨rest, _, _, rfl, hline, hlookup, ?_, .inl rfl⟩
    exact congrArg (Option.getD · h) (step_of_lookup hline hlookup)
  | overlook =>
    obtain ⟨⟨i, u⟩, hfirst, hserved⟩ := Option.bind_eq_some_iff.1 hturn
    dsimp only at hserved
    split at hserved
    · next armed hphase =>
      split at hserved
      · next hgoes =>
        cases hserved
        obtain ⟨rest, hline, hlookup⟩ := firstRule?_eq_some hfirst
        refine ⟨rest, (RuleTask.yield (t.follow armed h.store)).1,
          (RuleTask.yield (t.follow armed h.store)).2.2, rfl, hline, hlookup, ?_,
          .inr ⟨armed, hphase, hgoes.1, hgoes.2, rfl⟩⟩
        simp only [after, overlook, hline, hlookup, hphase, if_pos hgoes]
      · cases hserved
    · cases hserved
  | _ => cases hturn

theorem made_of_turn? {h : Hub} {e : Event} {id : TaskId} {t t' : RuleTask}
    (hturn : h.turn? e = some (id, t, t')) : TaskTurn.Made ⟨h.clock, h.store, t, t'⟩ := by
  obtain ⟨_, progress, s, -, -, -, -, hstep | ⟨armed, hphase, haborted, rfl, hyields⟩⟩ :=
    after_of_turn? hturn
  · have hmade := TaskTurn.Made.step h.clock h.store t
    rwa [hstep] at hmade
  · have hmade : TaskTurn.Made
        ⟨h.clock, h.store, t, (RuleTask.yield (t.follow armed h.store)).2.1⟩ :=
      .overlooked hphase haborted (congrArg Prod.fst hyields)
    rwa [hyields] at hmade

namespace Chronicle

variable {c : Chronicle} {id : TaskId} {t u : RuleTask} {turns : List TaskTurn}

/-- The turn that a task has in a move. -/
def turnIn? (c : Chronicle) (id : TaskId) : Move → Option TaskTurn
  | .event e =>
    match c.hub.turn? e with
    | some (i, t, t') => if i = id then some ⟨c.hub.clock, c.hub.store, t, t'⟩ else none
    | none => none
  | .arrive _ | .look _ => none

/-- The turns that a task has during some moves. -/
def turnsOf (c : Chronicle) (id : TaskId) : List Move → List TaskTurn
  | [] => []
  | m :: moves => (c.turnIn? id m).toList ++ (c.next m).turnsOf id moves

theorem turnsOf_concat (c : Chronicle) (id : TaskId) (moves : List Move) (m : Move) :
    c.turnsOf id (moves ++ [m]) = c.turnsOf id moves ++ ((c.after moves).turnIn? id m).toList := by
  induction moves generalizing c with
  | nil => exact List.append_nil _
  | cons first moves ih =>
    rw [List.cons_append, turnsOf, ih, turnsOf, List.append_assoc]
    rfl

theorem Orderly.started_next (H : c.Orderly) (m : Move) :
    c.hub.started ≤ (c.next m).hub.started := by
  have hgoes := next_goes H.accounted H.roused m
  generalize c.next m = c' at hgoes
  cases hgoes with
  | rests _ hrests => exact hrests.started
  | turn _ _ _ _ hhub =>
    rw [hhub, turned_eq]
    exact Nat.le_refl _

theorem Orderly.started_after (H : c.Orderly) (moves : List Move) :
    c.hub.started ≤ (c.after moves).hub.started := by
  induction moves generalizing c with
  | nil => exact Nat.le_refl _
  | cons m moves ih => exact (H.started_next m).trans (ih (H.next m))

/-- What becomes of a task in a move: it has its turn or rests. -/
theorem Orderly.career_next (H : c.Orderly) (hid : id.number ≤ c.hub.started) (m : Move)
    (hbefore : ∀ u, (id, Task.rule u) ∈ c.hub.tasks → t.Career turns u)
    (hu : (id, Task.rule u) ∈ (c.next m).hub.tasks) :
    t.Career (turns ++ (c.turnIn? id m).toList) u := by
  -- A task that rests is one that was there.
  have hrested : ∀ {h' : Hub}, c.hub.Rests h' → (id, Task.rule u) ∈ h'.tasks →
      c.turnIn? id m = none → t.Career (turns ++ (c.turnIn? id m).toList) u := by
    intro h' hrests hu hnone
    rw [hnone, Option.toList_none, List.append_nil]
    rcases hrests.task id _ hu with ⟨u₀, hu₀, hrest⟩ | ⟨hlt, -⟩
    · cases hrest with
      | rule hrest => exact (hbefore _ hu₀).rests hrest
    · exact absurd hid (Nat.not_le_of_lt hlt)
  have hlooked : ∀ s : Store, c.hub.Rests (c.hub.withStore s) :=
    fun s => .withStore c.hub c.hub.watches c.hub.conditions s
  cases m with
  | arrive r => exact hrested (hlooked _) hu rfl
  | look place =>
    rw [Chronicle.next] at hu
    split at hu
    · exact hrested (hlooked _) hu rfl
    · exact hrested (.refl c.hub) hu rfl
  | event e =>
    rw [Chronicle.next] at hu
    split at hu
    · next he =>
      have hhappens := after_happens he H.accounted.taskIds H.roused
      replace hu : (id, Task.rule u) ∈ (c.hub.after e).tasks := hu
      generalize c.hub.after e = h' at hhappens hu
      cases hhappens with
      | rests hturn hrests => exact hrested hrests hu (by simp only [turnIn?, hturn])
      | @turn i rest v v' progress s hturn hline hlookup hdoes =>
        have hmade := made_of_turn? hturn
        have hcareer := hbefore v
        obtain ⟨u₀, hrest, ⟨rfl, rfl⟩ | ⟨hi, hmem⟩⟩ := mem_turned_rule hu
        · have hin : c.turnIn? id (.event e) = some ⟨c.hub.clock, c.hub.store, v, u₀⟩ := by
            simp only [turnIn?, hturn, if_true]
          rw [hin]
          exact ((hcareer (Keyed.mem_of_lookup hlookup)).turn hmade).rests hrest
        · have hin : c.turnIn? id (.event e) = none := by
            simp only [turnIn?, hturn, if_neg (Ne.symm hi)]
          rw [hin, Option.toList_none, List.append_nil]
          exact (hbefore _ hmem).rests hrest
    · next he =>
      refine hrested (.refl c.hub) hu ?_
      cases e with
      | step | overlook => exact absurd rfl he
      | _ => rfl

/-- **A task that is there after a run has had the career that its turns make up.** -/
theorem Orderly.career (H : c.Orderly) (ht : (id, Task.rule t) ∈ c.hub.tasks) (moves : List Move)
    (hu : (id, Task.rule u) ∈ (c.after moves).hub.tasks) :
    t.Career (c.turnsOf id moves) u := by
  have hid : id.number ≤ c.hub.started := (H.accounted.tasks _ ht).started
  induction moves using List.reverseRecOn generalizing u with
  | nil =>
    cases eq_of_mem_of_lookup H.accounted.taskIds (lookup_of_mem H.accounted.taskIds ht) hu
    exact .start
  | append_singleton moves m ih =>
    rw [turnsOf_concat]
    rw [after_append] at hu
    exact (H.after moves).career_next (hid.trans (H.started_after moves)) m (fun _ => ih) hu

/-- A rule that is added has a task, which has its career from the start on. -/
theorem Orderly.career_of_added {rule : Rule} (H : c.Orderly)
    (hadd : (c.hub.addRule rule).1 = .ok ()) :
    ∃ w s, ConditionWatch.start c.hub.store rule.condition = (.ok w, s) ∧ ∀ moves u,
      (⟨c.hub.started + 1⟩, Task.rule u) ∈
        ((c.next (.event (.addRule rule))).after moves).hub.tasks →
      (RuleTask.start rule w).Career
        ((c.next (.event (.addRule rule))).turnsOf ⟨c.hub.started + 1⟩ moves) u := by
  obtain ⟨w, s, -, hstart, heq⟩ := addRule_eq_ok hadd
  refine ⟨w, s, hstart, fun moves u hu => (H.next _).career ?_ moves hu⟩
  have hhub : (c.next (.event (.addRule rule))).hub = _ := heq
  rw [hhub]
  exact List.mem_append_right _ (List.mem_singleton_self _)

end Chronicle

end Hub

end Switchboard
