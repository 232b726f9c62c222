import Switchboard.Hub.RuleTask
import Switchboard.Proofs.Condition.Following
/-!
# Steps of a rule's task

What a step of the task of a rule is (`RuleTask.Taken`): it does what comes next, unless it has
ended, or was cancelled and waits or would have to wait. What it can do (`RuleTask.Stepped`): the
task ends, it notes the value at the start, it acts or waits, or it serves a feed of its condition.
Only the last can be a firing.

A rule at work (`RuleAtWork`) is its task with the clock and the store. In a turn the task makes a
step, or others do something: they call the store, time passes, the task is told to stop or is
cancelled, the feeds that are to be served change places.
-/

namespace Switchboard

namespace RuleTask

variable {t t' : RuleTask} {s s' : Store}

/-! ## One step -/

/-- What a step of the task `t` leads to: a task that has ended does nothing, one that was cancelled
ends instead of being resumed and instead of waiting, and any other one does what comes next. -/
inductive Taken (t : RuleTask) (clock : Nat) (s : Store) : Progress × RuleTask × Store → Prop
  | stays (hended : t.isAlive = false) : Taken t clock s (.ends, t, s)
  | dropped (halive : t.isAlive = true) (hcancelled : t.cancelled = true)
      (hwaits : t.isAborted = true ∨ (t.advance clock s).1 = .waits) : Taken t clock s (t.finish s)
  | advanced {progress : Progress} {t' : RuleTask} {s' : Store} (halive : t.isAlive = true)
      (haborted : t.isAborted = false) (hadvance : t.advance clock s = (progress, t', s'))
      (hwaits : progress = .waits → t.cancelled = false) :
      Taken t clock s (progress, { t' with working := progress == .runs }, s')

/-- A task that would have to wait has done nothing but note where it stands. -/
theorem advance_eq_waits {clock : Nat} (h : t.advance clock s = (.waits, t', s')) :
    s' = s ∧ ∃ phase, t' = { t with phase } := by
  unfold advance at h
  split at h
  · cases h
  · split at h
    · cases h
    · unfold follow at h
      split at h
      · split at h
        · cases h
        · cases h
          exact ⟨rfl, _, rfl⟩
      · split at h <;> cases h
  · unfold act at h
    split at h
    · cases h
    · split at h
      · cases h
      · cases h
        exact ⟨rfl, _, rfl⟩
    · split at h
      · cases h
      · split at h <;> cases h
  · split at h
    · cases h
    · cases h
      exact ⟨rfl, _, rfl⟩
  · cases h

/-- A task that ends is at work no longer. -/
theorem advance_eq_ends {clock : Nat} (halive : t.isAlive = true)
    (h : t.advance clock s = (.ends, t', s')) : (.ends, t', s') = t.finish s := by
  unfold advance at h
  split at h
  · cases h
  · split at h
    · exact h.symm
    · unfold follow at h
      split at h
      · split at h
        · exact h.symm
        · cases h
      · split at h <;> cases h
  · unfold act at h
    split at h
    · cases h
    · split at h <;> cases h
    · split at h
      · cases h
      · split at h <;> cases h
  · split at h <;> cases h
  · next hphase =>
    rw [isAlive, hphase] at halive
    cases halive

/-- A task that goes on at once is at work. -/
theorem yield_eq_runs {outcome : Progress × RuleTask × Store} (h : (yield outcome).1 = .runs) :
    ∃ t' s', outcome = (.runs, t', s') ∧
      yield outcome = (.runs, { t' with working := true }, s') := by
  obtain ⟨_ | _ | _, t', s'⟩ := outcome
  · exact ⟨t', s', rfl, rfl⟩
  · rw [yield] at h
    split at h <;> cases h
  · cases h

theorem step_taken (t : RuleTask) (clock : Nat) (s : Store) : t.Taken clock s (t.step clock s) := by
  unfold step
  by_cases halive : t.isAlive = true
  · by_cases haborted : t.isAborted = true
    · rw [halive, haborted]
      have hcancelled : t.cancelled = true := (Bool.and_eq_true_iff.1 haborted).1
      exact .dropped halive hcancelled (.inl haborted)
    · rw [Bool.not_eq_true] at haborted
      rw [haborted, Bool.and_false, if_neg Bool.false_ne_true]
      rcases hadvance : t.advance clock s with ⟨_ | _ | _, t', s'⟩
      · exact .advanced halive haborted hadvance nofun
      · obtain ⟨rfl, phase, rfl⟩ := advance_eq_waits hadvance
        rw [yield]
        split
        · next hcancelled =>
          exact .dropped halive hcancelled (.inr (congrArg Prod.fst hadvance))
        · next hcancelled =>
          exact .advanced halive haborted hadvance fun _ => Bool.eq_false_iff.2 hcancelled
      · have htaken := Taken.advanced halive haborted hadvance nofun
        obtain ⟨-, rfl, rfl⟩ := advance_eq_ends halive hadvance
        exact htaken
  · rw [Bool.not_eq_true] at halive
    rw [halive, Bool.false_and, if_neg Bool.false_ne_true]
    have hphase : t.phase = .ended := by
      unfold isAlive at halive
      split at halive
      · assumption
      · cases halive
    rw [advance, hphase]
    exact .stays halive

/-- A task that has ended does nothing any more. -/
theorem step_of_ended (h : t.isAlive = false) (clock : Nat) (s : Store) :
    t.step clock s = (.ends, t, s) := by
  have htaken := step_taken t clock s
  generalize t.step clock s = stepped at htaken
  cases htaken with
  | stays => rfl
  | dropped halive | advanced halive =>
    rw [h] at halive
    cases halive

/-! ## Tasks at work -/

/-- The task follows its condition or carries out actions. -/
def IsEngaged (t : RuleTask) : Prop :=
  (∃ armed, t.phase = .following armed) ∨ ∃ remaining, t.phase = .acting remaining

/-- A task at work follows its condition or carries out actions. -/
def Poised (t : RuleTask) : Prop :=
  t.working = true → t.IsEngaged

theorem IsEngaged.isAlive (h : t.IsEngaged) : t.isAlive = true := by
  unfold RuleTask.isAlive
  rcases h with ⟨_, hphase⟩ | ⟨_, hphase⟩ <;> rw [hphase]

theorem react_isEngaged (t : RuleTask) (armed value : Bool) : (t.react armed value).IsEngaged := by
  cases value <;> cases armed
  · exact .inl ⟨true, rfl⟩
  · exact .inl ⟨true, rfl⟩
  · exact .inl ⟨false, rfl⟩
  · exact .inr ⟨_, rfl⟩

theorem follow_eq_runs {armed : Bool} (hphase : t.phase = .following armed)
    (h : t.follow armed s = (.runs, t', s')) : t'.IsEngaged := by
  unfold follow at h
  cases hserve : t.watch.serve s with
  | none =>
    rw [hserve] at h
    dsimp only at h
    split at h <;> cases h
  | some served =>
    obtain ⟨_ | value, watch, s₁⟩ := served <;> rw [hserve] at h <;> cases h
    · exact .inl ⟨armed, hphase⟩
    · exact react_isEngaged _ armed value

theorem act_eq_runs {clock : Nat} {actions : List Action}
    (h : t.act clock s actions = (.runs, t', s')) : t'.IsEngaged := by
  unfold act at h
  split at h
  · cases h
    exact .inl ⟨false, rfl⟩
  · split at h <;> cases h
    exact .inr ⟨_, rfl⟩
  · split at h
    · cases h
      exact .inr ⟨_, rfl⟩
    · split at h <;> cases h
      · exact .inr ⟨_, rfl⟩
      · exact .inl ⟨false, rfl⟩

theorem advance_eq_runs {clock : Nat} (h : t.advance clock s = (.runs, t', s')) :
    t'.IsEngaged := by
  unfold advance at h
  split at h
  · cases h
    exact .inl ⟨_, rfl⟩
  · next hphase =>
    split at h
    · cases h
    · exact follow_eq_runs hphase h
  · exact act_eq_runs h
  · split at h <;> cases h
    exact .inr ⟨_, rfl⟩
  · cases h

theorem step_poised (h : t.Poised) (clock : Nat) (s : Store) : (t.step clock s).2.1.Poised := by
  have htaken := step_taken t clock s
  generalize t.step clock s = stepped at htaken
  cases htaken with
  | stays => exact h
  | dropped => exact nofun
  | @advanced progress _ _ _ _ hadvance =>
    cases progress with
    | runs =>
      have hengaged := advance_eq_runs hadvance
      exact fun _ => hengaged
    | waits | ends => exact nofun

theorem yield_follow_poised {armed : Bool} (hphase : t.phase = .following armed)
    (hruns : (yield (t.follow armed s)).1 = .runs) : (yield (t.follow armed s)).2.1.Poised := by
  obtain ⟨t', s', hfollow, hyields⟩ := yield_eq_runs hruns
  have hengaged := follow_eq_runs hphase hfollow
  rw [hyields]
  exact fun _ => hengaged

/-! ## What a step can do -/

/-- What a step of the task `t` can do. -/
inductive Stepped (t : RuleTask) (s : Store) (t' : RuleTask) (s' : Store) : Prop
  /-- The task has ended by now. -/
  | ended (hended : t'.isAlive = false) (hfired : t'.fired = t.fired)
  /-- The task has noted the value at the start. -/
  | started (hwatch : t'.watch = { t.watch with reported := some t.watch.value })
      (hstore : s' = s) (hfired : t'.fired = t.fired)
  /-- The task has acted or waits. -/
  | acted (hwatch : t'.watch = t.watch) (hstore : s' = s ∨ ∃ w, s' = (s.call (.write w)).2)
      (hfired : t'.fired = t.fired)
  /-- A feed was served. If the task has fired, the condition has become true. -/
  | served {news : Option Bool} (halive : t'.isAlive = true)
      (hserve : t.watch.serve s = some (news, t'.watch, s'))
      (hfired : t'.fired = t.fired ∨ news = some true)

theorem Stepped.working (h : t.Stepped s t' s') (working : Bool) :
    t.Stepped s { t' with working } s' := by
  cases h with
  | ended hended hfired => exact .ended hended hfired
  | started hwatch hstore hfired => exact .started hwatch hstore hfired
  | acted hwatch hstore hfired => exact .acted hwatch hstore hfired
  | served halive hserve hfired => exact .served halive hserve hfired

theorem finish_stepped (t : RuleTask) (s : Store) :
    t.Stepped s (t.finish s).2.1 (t.finish s).2.2 :=
  .ended rfl rfl

/-- An action is a write, or it does nothing. -/
theorem run_eq_write (s : Store) (action : Action) :
    (action.run s).2 = s ∨ ∃ w, (action.run s).2 = (s.call (.write w)).2 := by
  cases action with
  | set url value expected => exact .inr ⟨_, (s.snd_call_write (.set url value expected)).symm⟩
  | remove url expected => exact .inr ⟨_, (s.snd_call_write (.remove url expected)).symm⟩
  | delay duration => exact .inl rfl

theorem act_stepped (t : RuleTask) (clock : Nat) (s : Store) (actions : List Action) :
    t.Stepped s (t.act clock s actions).2.1 (t.act clock s actions).2.2 := by
  unfold act
  split
  · exact .acted rfl (.inl rfl) rfl
  · split <;> exact .acted rfl (.inl rfl) rfl
  · next action rest _ =>
    have hrun := run_eq_write s action
    cases hdone : action.run s with
    | mk outcome s₁ =>
      rw [hdone] at hrun
      cases outcome with
      | ok n => exact .acted rfl hrun rfl
      | error e =>
        dsimp only
        split <;> exact .acted rfl hrun rfl

theorem follow_stepped (t : RuleTask) (armed : Bool) (s : Store)
    (hphase : t.phase = .following armed) :
    t.Stepped s (t.follow armed s).2.1 (t.follow armed s).2.2 := by
  unfold follow
  cases hserve : t.watch.serve s with
  | none =>
    dsimp only
    split
    · exact finish_stepped t s
    · exact .acted rfl (.inl rfl) rfl
  | some served =>
    obtain ⟨news, w, s₁⟩ := served
    cases news with
    | none =>
      refine .served ?_ hserve (.inl rfl)
      show isAlive { t with watch := w } = true
      unfold isAlive
      rw [hphase]
    | some value => cases value <;> cases armed <;> first
      | exact .served rfl hserve (.inl rfl)
      | exact .served rfl hserve (.inr rfl)

theorem advance_stepped (t : RuleTask) (clock : Nat) (s : Store) :
    t.Stepped s (t.advance clock s).2.1 (t.advance clock s).2.2 := by
  unfold advance
  cases hphase : t.phase with
  | ended =>
    refine .ended ?_ rfl
    show t.isAlive = false
    unfold isAlive
    rw [hphase]
  | starting => exact .started rfl rfl rfl
  | following armed =>
    dsimp only
    split
    · exact finish_stepped t s
    · exact follow_stepped t armed s hphase
  | acting remaining => exact act_stepped t clock s remaining
  | sleeping wakeUp remaining =>
    dsimp only
    split <;> exact .acted rfl (.inl rfl) rfl

/-- Every step is one of these. -/
theorem step_stepped (t : RuleTask) (clock : Nat) (s : Store) :
    t.Stepped s (t.step clock s).2.1 (t.step clock s).2.2 := by
  have htaken := step_taken t clock s
  generalize t.step clock s = stepped at htaken
  cases htaken with
  | stays hended => exact .ended hended rfl
  | dropped => exact finish_stepped t s
  | advanced _ _ hadvance =>
    have hstepped := advance_stepped t clock s
    rw [hadvance] at hstepped
    exact hstepped.working _

end RuleTask

/-! ## Rules at work -/

/-- The task of a rule at some time, with the store. -/
structure RuleAtWork where
  task : RuleTask
  clock : Nat
  store : Store

/-- What can happen while a rule is at work. -/
inductive Turn where
  /-- Somebody else makes a call. -/
  | call (c : Call)
  /-- The feed at a place of the queue gets in front of the others. -/
  | prefer (place : Nat)
  /-- The task makes a step. -/
  | step
  /-- Time passes. -/
  | pass (milliseconds : Nat)
  /-- The task is told to stop. -/
  | stop
  /-- The task is cancelled. -/
  | cancel

namespace RuleAtWork

/-- The rule with its task changed and another store. The feeds whose bells were rung are put back
into the queue. -/
def withStore (m : RuleAtWork) (t : RuleTask) (s : Store) : RuleAtWork :=
  { m with task := { t with watch := t.watch.rouse s }, store := s }

/-- The rule after one turn. -/
def turn (m : RuleAtWork) : Turn → RuleAtWork
  | .call c => m.withStore m.task (m.store.call c).2
  | .prefer place => { m with task := { m.task with watch := m.task.watch.prefer place } }
  | .step => m.withStore (m.task.step m.clock m.store).2.1 (m.task.step m.clock m.store).2.2
  | .pass milliseconds => { m with clock := m.clock + milliseconds }
  | .stop => { m with task := { m.task with stopping := true } }
  | .cancel => { m with task := { m.task with cancelled := true } }

/-- The rule after a run. -/
def after (m : RuleAtWork) : List Turn → RuleAtWork
  | [] => m
  | t :: turns => (m.turn t).after turns

/-- The states of the store that a run comes through, one after every turn. -/
def visited (m : RuleAtWork) : List Turn → List Store
  | [] => []
  | t :: turns => (m.turn t).store :: (m.turn t).visited turns

/-- The condition was followed on from `m` to `m'`, and a feed with mail was not served. -/
structure Kept (m m' : RuleAtWork) : Prop where
  advanced : ∃ news, m.task.watch.Advanced news m'.task.watch m'.store
  steady : ∀ (i : Nat) (feed : Feed), m'.task.watch.feeds[i]? = some feed →
    m'.store.unread feed.watch ≠ none → m.task.watch.feeds[i]? = some feed

/-- As long as the task lives, its steps follow the condition on. -/
theorem kept_of_stepped {m : RuleAtWork} {t : RuleTask} {s : Store}
    (h : m.task.watch.Following m.store) (hstepped : m.task.Stepped m.store t s)
    (halive : t.isAlive = true) : m.Kept (m.withStore t s) := by
  cases hstepped with
  | ended hended =>
    rw [hended] at halive
    cases halive
  | started hwatch hstore =>
    have hnoted : ConditionWatch.Following
        { m.task.watch with reported := some m.task.watch.value } m.store :=
      ⟨h.store, h.length, h.feeds, h.watches, h.queue, h.served, h.parked⟩
    refine ⟨⟨some m.task.watch.value, ?_⟩, fun i feed hfeed _ => ?_⟩
    · show m.task.watch.Advanced _ (t.watch.rouse s) s
      rw [hwatch, hstore, hnoted.rouse_eq]
      exact ⟨hnoted, rfl, rfl, rfl, fun _ b hb => (Option.some.inj hb).symm⟩
    · have hfeeds : t.watch.feeds = m.task.watch.feeds := by rw [hwatch]
      exact hfeeds ▸ hfeed
  | acted hwatch hstore =>
    refine ⟨⟨none, ?_⟩, fun i feed hfeed _ => ?_⟩
    · show m.task.watch.Advanced _ (t.watch.rouse s) s
      rw [hwatch]
      rcases hstore with rfl | ⟨w, rfl⟩
      · rw [h.rouse_eq]
        exact .refl h
      · exact ⟨h.call fun _ _ => nofun, rfl, rfl, rfl, id⟩
    · have hfeeds : t.watch.feeds = m.task.watch.feeds := by rw [hwatch]
      exact hfeeds ▸ hfeed
  | @served news _ hserve =>
    have hserved := h.serve hserve
    refine ⟨⟨news, ?_⟩, fun i feed hfeed hmail => h.serve_steady hserve hfeed hmail⟩
    show m.task.watch.Advanced _ (t.watch.rouse s) s
    rw [hserved.following.rouse_eq]
    exact hserved

/-- As long as the task lives and others leave its watches to it, every turn follows the condition
on. -/
theorem kept_turn {m : RuleAtWork} {t : Turn} (h : m.task.watch.Following m.store)
    (hothers : ∀ c, t = .call c → ∀ id ∈ m.task.watch.watches, c.consumer? ≠ some id)
    (halive : (m.turn t).task.isAlive = true) : m.Kept (m.turn t) := by
  cases t with
  | step => exact kept_of_stepped h (RuleTask.step_stepped m.task m.clock m.store) halive
  | call c =>
    exact ⟨⟨none, h.call (hothers c rfl), rfl, rfl, rfl, id⟩, fun _ _ hfeed _ => hfeed⟩
  | prefer place => exact ⟨⟨none, h.prefer place, rfl, rfl, rfl, id⟩, fun _ _ hfeed _ => hfeed⟩
  | pass | stop | cancel => exact ⟨⟨none, .refl h⟩, fun _ _ hfeed _ => hfeed⟩

/-- A task that has ended does not live again. -/
theorem isAlive_of_turn {m : RuleAtWork} {t : Turn} (halive : (m.turn t).task.isAlive = true) :
    m.task.isAlive = true := by
  cases t with
  | step =>
    by_cases hended : m.task.isAlive = true
    · exact hended
    · rw [Bool.not_eq_true] at hended
      rw [turn, RuleTask.step_of_ended hended] at halive
      exact halive
  | call | prefer | pass | stop | cancel => exact halive

theorem isAlive_of_after {m : RuleAtWork} {turns : List Turn}
    (halive : (m.after turns).task.isAlive = true) : m.task.isAlive = true := by
  induction turns generalizing m with
  | nil => exact halive
  | cons t turns ih => exact isAlive_of_turn (ih halive)

/-- Only a living task fires. -/
theorem isAlive_of_fired {m : RuleAtWork} {t : Turn}
    (hfired : m.task.fired < (m.turn t).task.fired) : m.task.isAlive = true := by
  cases t with
  | step =>
    by_cases hended : m.task.isAlive = true
    · exact hended
    · rw [Bool.not_eq_true] at hended
      rw [turn, RuleTask.step_of_ended hended] at hfired
      exact absurd hfired (Nat.lt_irrefl _)
  | call | prefer | pass | stop | cancel => exact absurd hfired (Nat.lt_irrefl _)

end RuleAtWork

end Switchboard
