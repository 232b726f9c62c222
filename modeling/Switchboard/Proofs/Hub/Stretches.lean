import Mathlib
import Switchboard.Proofs.Hub.Careers
/-!
# From one delay to the next

While the hub settles nobody does anything between two actions of a rule. The task stays first in
the line until it sleeps or has given up (`Hub.Performs.step`), and the store becomes what the
actions make of it, one after the other (`Hub.Performs.stretch`). A task that was cancelled at work
gets as far as that too, but it does not sleep.
-/

namespace Switchboard

namespace RuleTask

variable {t t' : RuleTask} {clock : Nat} {s s' : Store} {actions : List Action}
  {progress : Progress}

theorem isAborted_of_working (h : t.working = true) : t.isAborted = false := by
  rw [isAborted, h, Bool.not_true, Bool.and_false]

/-- The task goes on after an action, or sleeps. -/
theorem isAlive_of_afterAction {action : Action} {rest : List Action}
    (hphase : t.phase = .afterAction clock s action rest) : t.isAlive = true := by
  refine isAlive_of_ne_ended ?_
  rcases Phase.afterAction_cases clock s action rest with
    ⟨-, -, hnow⟩ | ⟨-, ⟨_, -, -, hnow⟩ | ⟨-, hnow⟩⟩ <;> simp [hphase, hnow]

/-- The step of a task that gets on with its actions. -/
theorem step_of_acting {action : Action} {rest : List Action}
    (hphase : t.phase = .acting (action :: rest)) (haborted : t.isAborted = false)
    (hatOnce : t.cancelled = true → action.wakeUp? clock = none) :
    t.step clock s = (if (action.wakeUp? clock).isSome then .waits else .runs,
      { t with
        phase := .afterAction clock s action rest
        working := (action.wakeUp? clock).isNone }, s.acted action) := by
  have hadvance : t.advance clock s = (if (action.wakeUp? clock).isSome then .waits else .runs,
      { t with phase := .afterAction clock s action rest }, s.acted action) := by
    rw [advance, hphase]
    exact act_cons t clock s action rest
  rw [step, haborted, Bool.and_false, if_neg Bool.false_ne_true, hadvance]
  cases hwakeUp : action.wakeUp? clock with
  | none => rfl
  | some wakeUp =>
    have hcancelled : t.cancelled = false := Bool.eq_false_iff.2 fun hcancelled =>
      absurd (hwakeUp.symm.trans (hatOnce hcancelled)) (Option.some_ne_none wakeUp)
    rw [Option.isSome_some, if_pos rfl, yield]
    exact if_neg (by rw [hcancelled]; exact Bool.false_ne_true)

end RuleTask

namespace Hub

variable {h h' : Hub} {id : TaskId} {rest : List TaskId} {t t' : RuleTask} {s : Store}
  {progress : Progress} {action : Action} {actions : List Action} {cancelled : Bool}

/-- The task of the rule is first in the line, and carries out these actions now. Maybe it was
cancelled, but it is at work then. -/
def Performs (h : Hub) (id : TaskId) (cancelled : Bool) (actions : List Action) : Prop :=
  ∃ t, h.firstRule? = some (id, t) ∧ t.isAborted = false ∧ t.cancelled = cancelled ∧
    t.phase = .acting actions

theorem performs_turned (hline : h.line = id :: rest)
    (hlookup : h.tasks.lookup id = some (.rule t)) (hworks : t'.working = true)
    (hphase : t'.phase = .acting actions) :
    (h.turned id rest (.runs, .rule t', s)).Performs id t'.cancelled actions := by
  have halive : t'.isAlive = true := by
    rw [RuleTask.isAlive, hphase]
  have hstays : (h.turned id rest (.runs, .rule t', s)).line.head? = some id := by
    rw [turned_eq, if_pos rfl]
    show (h.line ++ _).head? = some id
    rw [hline]
    rfl
  obtain ⟨others, hothers⟩ := List.head?_eq_some_iff.1 hstays
  refine ⟨_, firstRule?_of_lookup hothers (lookup_turned_self hlookup halive), ?_, rfl, hphase⟩
  exact RuleTask.isAborted_of_working hworks

/-- An action is carried out. The task goes on at once, unless the action has failed for good or
is a delay. -/
theorem Performs.step (hperforms : h.Performs id cancelled (action :: actions))
    (hatOnce : cancelled = true → action.wakeUp? h.clock = none) :
    ∃ h' t, h.step = some h' ∧ h'.store = h.store.acted action ∧ h'.clock = h.clock ∧
      h'.tasks.lookup id = some (.rule t) ∧ t.cancelled = cancelled ∧
      t.phase = .afterAction h.clock h.store action actions ∧
      (t.phase = .acting actions → h'.Performs id cancelled actions) := by
  obtain ⟨t, hfirst, haborted, rfl, hphase⟩ := hperforms
  obtain ⟨rest, hline, hlookup⟩ := firstRule?_eq_some hfirst
  have hstepped := step_of_lookup hline hlookup
  rw [Task.step, RuleTask.step_of_acting hphase haborted hatOnce] at hstepped
  dsimp only at hstepped
  refine ⟨_, _, hstepped, ?_, ?_, lookup_turned_self hlookup ?_, rfl, rfl, fun hgoes => ?_⟩
  · rw [turned_eq]
    rfl
  · rw [turned_eq]
    rfl
  · exact RuleTask.isAlive_of_afterAction rfl
  · replace hgoes : Phase.afterAction h.clock h.store action actions = .acting actions := hgoes
    rcases Phase.afterAction_cases h.clock h.store action actions with
      ⟨-, -, hnow⟩ | ⟨-, ⟨_, -, -, hnow⟩ | ⟨hruns, hnow⟩⟩
    · cases hnow.symm.trans hgoes
    · cases hnow.symm.trans hgoes
    · rw [hruns]
      exact performs_turned hline hlookup rfl hnow

/-- From `h` on the task carries out the actions `done`, each in a step of the hub, and nobody does
anything else in the meantime. The actions `rest` remain. -/
structure Stretch (h : Hub) (id : TaskId) (cancelled : Bool) (done rest : List Action) : Prop where
  store : ∀ n ≤ done.length, (h.run n).store = (done.take n).foldl Store.acted h.store
  goesOn : ∀ n < done.length, (h.run n).Performs id cancelled (done.drop n ++ rest)

theorem Stretch.nil (h : Hub) (id : TaskId) (cancelled : Bool) (rest : List Action) :
    h.Stretch id cancelled [] rest :=
  ⟨fun n hn => by rw [Nat.le_zero.1 hn]; rfl, nofun⟩

theorem run_succ (hstep : h.step = some h') (n : Nat) : h.run (n + 1) = h'.run n := by
  rw [run, hstep]

theorem Stretch.cons {done rest : List Action} (hstretch : h'.Stretch id cancelled done rest)
    (hperforms : h.Performs id cancelled (action :: (done ++ rest))) (hstep : h.step = some h')
    (hstore : h'.store = h.store.acted action) :
    h.Stretch id cancelled (action :: done) rest := by
  refine ⟨fun n hn => ?_, fun n hn => ?_⟩ <;> cases n with
  | zero => first | rfl | exact hperforms
  | succ n =>
    rw [run_succ hstep]
    first
      | exact hstretch.goesOn n (Nat.lt_of_succ_lt_succ hn)
      | rw [hstretch.store n (Nat.le_of_succ_le_succ hn), hstore]
        rfl

/-- How a stretch ends that has begun on the store `s`: all actions were carried out, or the last
one has failed for good, or it is a delay. A task that was cancelled ends instead of waiting. -/
inductive StretchEnd (clock : Nat) (s : Store) :
    Bool → List Action → List Action → Phase → Prop
  | all (cancelled : Bool) (done : List Action) : StretchEnd clock s cancelled done [] (.acting [])
  | failed (cancelled : Bool) (done : List Action) {action : Action} (rest : List Action)
      (hfails : action.failsHard (done.foldl Store.acted s) = true) :
      StretchEnd clock s cancelled (done ++ [action]) rest (.following false)
  | waits (done : List Action) {duration : Duration} (rest : List Action)
      (hwaits : duration.ticks ≠ 0) :
      StretchEnd clock s false (done ++ [.delay duration]) rest
        (.sleeping (clock + duration.ticks) rest)
  | ends (done : List Action) {duration : Duration} (rest : List Action)
      (hwaits : duration.ticks ≠ 0) :
      StretchEnd clock s true done (.delay duration :: rest) (.acting (.delay duration :: rest))

theorem StretchEnd.cons {clock : Nat} {done rest : List Action} {phase : Phase}
    (h : StretchEnd clock (s.acted action) cancelled done rest phase) :
    StretchEnd clock s cancelled (action :: done) rest phase := by
  cases h with
  | all => exact .all _ _
  | failed _ done _ hfails => exact .failed _ (action :: done) rest hfails
  | waits done _ hwaits => exact .waits (action :: done) rest hwaits
  | ends done rest hwaits => exact .ends (action :: done) rest hwaits

end Hub

end Switchboard
