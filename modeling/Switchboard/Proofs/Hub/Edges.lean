import Mathlib
import Switchboard.Proofs.Hub.Careers
/-!
# Rules fire on rising edges

Two memories stand between the mail of a rule and its firings: what its condition has reported last,
and whether the rule is armed. They agree all the time (`RuleTask.Attuned`), so that each turn
counts as a firing exactly if the mail that is served in it has made the condition true
(`RuleTask.Attuned.turn`). Thus a rule has fired as often as the value of its condition has gone
from *false* to *true*, from the value at its registration on
(`Hub.Chronicle.fires_on_rising_edges`).
-/

namespace Switchboard

/-- How often a sequence that begins with `first` goes from *false* to *true*. -/
def rises (first : Bool) : List Bool → Nat
  | [] => 0
  | b :: rest => (if first = false ∧ b = true then 1 else 0) + rises b rest

theorem rises_concat (first : Bool) (bs : List Bool) (b : Bool) :
    rises first (bs ++ [b]) =
      rises first bs + if bs.getLast?.getD first = false ∧ b = true then 1 else 0 := by
  induction bs generalizing first with
  | nil => rw [List.nil_append, rises, rises, Nat.add_comm]; rfl
  | cons c bs ih =>
    have hlast : (c :: bs).getLast?.getD first = bs.getLast?.getD c := by
      rw [List.getLast?_cons, Option.getD_some]
    rw [List.cons_append, rises, ih, rises, hlast, Nat.add_assoc]

/-- What is never *false* does not become *true*. -/
theorem rises_eq_zero {bs : List Bool} (h : false ∉ bs) : rises true bs = 0 := by
  induction bs with
  | nil => rfl
  | cons b bs ih =>
    obtain ⟨hb, hbs⟩ := not_or.1 (List.mem_cons.not.1 h)
    obtain rfl : b = true := by simpa using Ne.symm hb
    rw [rises, ih hbs]
    rfl

namespace ConditionWatch

variable {w w' : ConditionWatch} {s s' : Store} {news : Option Bool}

/-- The feed at the front of the queue has mail. -/
def hasMail (w : ConditionWatch) (s : Store) : Bool :=
  match w.queue with
  | [] => false
  | i :: _ => (w.feeds[i]?).any fun feed =>
    match (s.poll feed.watch).1 with
    | .ready _ => true
    | .empty | .released => false

theorem hasMail_of_serve_none (h : w.serve s = none) : w.hasMail s = false := by
  rw [hasMail, serve_eq_none h]

theorem report_spec (h : w.report = (news, w')) :
    w'.reported = some w'.value ∧
      news = if w.reported = some w'.value then none else some w'.value := by
  rw [report] at h
  split at h
  · next hreported =>
    cases h
    exact ⟨hreported, (if_pos hreported).symm⟩
  · next hreported =>
    cases h
    exact ⟨rfl, (if_neg hreported).symm⟩

/-- The truth that a feed has noted does not change when the feed ends. -/
theorem value_ended {i : Nat} {feed : Feed} {queue : List Nat} (hfeed : w.feeds[i]? = some feed) :
    { w with feeds := w.feeds.set i { feed with ended := true }, queue }.value = w.value := by
  obtain ⟨hi, rfl⟩ := List.getElem?_eq_some_iff.1 hfeed
  have htruths : (w.feeds.set i { w.feeds[i] with ended := true }).map Feed.truth =
      w.feeds.map Feed.truth := by
    refine List.ext_getElem? fun j => ?_
    rw [List.getElem?_map, List.getElem?_map, List.getElem?_set]
    split
    · next hj =>
      subst hj
      simp [hi]
    · rfl
  rw [value, value]
  exact congrArg (fun truths => (w.condition.evaluate truths 0).1) htruths

/-- A feed that is served has mail, after which the value is what was reported last, or nothing has
changed about the value. -/
theorem serve_spec (h : w.serve s = some (news, w', s')) :
    (w.hasMail s = true ∧ w'.reported = some w'.value ∧
      news = if w.reported = some w'.value then none else some w'.value) ∨
    (w.hasMail s = false ∧ news = none ∧ w'.value = w.value ∧ w'.reported = w.reported) := by
  unfold serve at h
  rw [hasMail]
  cases hqueue : w.queue with
  | nil =>
    rw [hqueue] at h
    cases h
  | cons i rest =>
    rw [hqueue] at h
    dsimp only at h ⊢
    cases hfeed : w.feeds[i]? with
    | none =>
      rw [hfeed] at h
      cases h
      exact .inr ⟨rfl, rfl, rfl, rfl⟩
    | some feed =>
      rw [hfeed] at h
      dsimp only at h
      rw [Option.any_some]
      rcases hpoll : s.poll feed.watch with ⟨found | _ | _, s₁⟩ <;> rw [hpoll] at h <;>
        simp only [Option.some.injEq, Prod.mk.injEq] at h
      · obtain ⟨hnews, hw', -⟩ := h
        obtain ⟨hreported, hsame⟩ := report_spec (Prod.ext hnews hw')
        exact .inl ⟨rfl, hreported, hsame⟩
      · obtain ⟨rfl, rfl, -⟩ := h
        exact .inr ⟨rfl, rfl, rfl, rfl⟩
      · obtain ⟨rfl, rfl, -⟩ := h
        exact .inr ⟨rfl, rfl, value_ended hfeed, rfl⟩

end ConditionWatch

/-! ## Being attuned -/

/-- What the task has made of the last report. -/
def Phase.told? : Phase → Option Bool
  | starting | ended => none
  | following armed => some !armed
  | acting _ | sleeping .. => some true

/-- The task has made of the last report what it should, and the last report was right. -/
structure RuleTask.Attuned (t : RuleTask) : Prop where
  told : t.isAlive = true → t.watch.reported = t.phase.told?
  reported : t.watch.Reported

namespace TaskTurn

/-- The value of the condition after the mail that is served in the turn, if there is any. -/
def event? (r : TaskTurn) : Option Bool :=
  match r.before.phase with
  | .following _ =>
    if r.after.isAlive && r.before.watch.hasMail r.store then some r.after.watch.value else none
  | .starting | .acting _ | .sleeping .. | .ended => none

/-- The condition reports a value. -/
def Reports (r : TaskTurn) (b : Bool) : Prop :=
  r.after.watch.reported = some b ∧ r.before.watch.reported ≠ some b

/-- The values of the condition after each mail that is served in some turns. -/
def values (turns : List TaskTurn) : List Bool :=
  turns.filterMap event?

variable {r : TaskTurn} {first : Bool} {turns : List TaskTurn} {t u : RuleTask}

theorem values_concat (turns : List TaskTurn) (r : TaskTurn) :
    values (turns ++ [r]) = values turns ++ r.event?.toList := by
  rw [values, List.filterMap_append, values]
  cases h : r.event? <;> simp [h]

theorem event?_eq_none (h : ∀ armed, r.before.phase ≠ .following armed) : r.event? = none := by
  unfold event?
  cases hphase : r.before.phase with
  | following armed => exact absurd hphase (h armed)
  | starting | acting | sleeping | ended => rfl

theorem event?_of_following {armed : Bool} (hphase : r.before.phase = .following armed) :
    r.event? = if r.after.isAlive && r.before.watch.hasMail r.store then
      some r.after.watch.value else none := by
  rw [event?, hphase]

theorem event?_of_ended (h : r.after.isAlive = false) : r.event? = none := by
  unfold event?
  cases r.before.phase with
  | following => simp [h]
  | starting | acting | sleeping | ended => rfl

theorem event?_of_waits (h : ∀ armed, r.before.phase = .following armed →
    r.before.watch.serve r.store = none) : r.event? = none := by
  unfold event?
  cases hphase : r.before.phase with
  | following armed => simp [ConditionWatch.hasMail_of_serve_none (h armed hphase)]
  | starting | acting | sleeping | ended => rfl

end TaskTurn

namespace RuleTask

variable {r : TaskTurn} {first : Bool} {turns : List TaskTurn} {t u : RuleTask}

/-- What a turn changes: the value, if mail is served, and the count, if that makes the condition
true. -/
structure Counts (r : TaskTurn) : Prop where
  value : r.after.watch.value = r.event?.getD r.before.watch.value
  fired : r.after.fired = r.before.fired +
    if r.before.watch.value = false ∧ r.event? = some true then 1 else 0

theorem Counts.of_eq (hevent : r.event? = none) (hvalue : r.after.watch.value = r.before.watch.value)
    (hfired : r.after.fired = r.before.fired) : Counts r := by
  refine ⟨?_, ?_⟩
  · rw [hevent, hvalue]
    rfl
  · rw [hevent, hfired]
    simp

/-- However an action turns out, the last report was *true*. -/
theorem told?_afterAction (clock : Nat) (s : Store) (action : Action) (rest : List Action) :
    (Phase.afterAction clock s action rest).told? = some true := by
  unfold Phase.afterAction
  split
  · rfl
  · split <;> rfl

theorem watch_react (t : RuleTask) (armed value : Bool) :
    (t.react armed value).watch = t.watch := by
  cases armed <;> cases value <;> rfl

theorem isAlive_react (t : RuleTask) (armed value : Bool) :
    (t.react armed value).isAlive = true := by
  cases armed <;> cases value <;> rfl

/-- What the task makes of a report, if there is one, changes nothing about the condition. -/
theorem watch_of_served {armed : Bool} {news : Option Bool} {w : ConditionWatch}
    (hafter : r.after = { news.elim { r.before with watch := w }
      (react { r.before with watch := w } armed) with working := true }) :
    r.after.watch = w := by
  rw [hafter]
  cases news with
  | none => rfl
  | some value => exact watch_react _ armed value

theorem isAlive_of_following {armed : Bool} (hphase : t.phase = .following armed) :
    t.isAlive = true :=
  isAlive_of_ne_ended (by rw [hphase]; exact nofun)

theorem Attuned.reported_of_following {armed : Bool} (h : t.Attuned)
    (hphase : t.phase = .following armed) : t.watch.reported = some !armed := by
  rw [h.told (isAlive_of_following hphase), hphase]
  rfl

/-- Mail is served: the task has made of the last report what it should, so a report of *true* finds
the rule armed. -/
theorem Attuned.serves {armed : Bool} {news : Option Bool} {w : ConditionWatch} {s : Store}
    (h : r.before.Attuned) (hphase : r.before.phase = .following armed)
    (hserve : r.before.watch.serve r.store = some (news, w, s))
    (hafter : r.after = { news.elim { r.before with watch := w }
      (react { r.before with watch := w } armed) with working := true }) :
    r.after.Attuned ∧ Counts r := by
  have halive : r.before.isAlive = true := isAlive_of_following hphase
  have htold : r.before.watch.reported = some !armed := h.reported_of_following hphase
  have hvalue : (!armed) = r.before.watch.value := h.reported _ htold
  have hwatch : r.after.watch = w := watch_of_served hafter
  have hgoes : r.after.isAlive = true := by
    rw [hafter]
    cases news with
    | none => exact halive
    | some value => exact isAlive_react _ _ _
  have hevent := TaskTurn.event?_of_following hphase
  rw [hgoes, Bool.true_and, hwatch] at hevent
  rcases ConditionWatch.serve_spec hserve with ⟨hmail, hreported, hnews⟩ | ⟨hmail, rfl, hsame, hkept⟩
  · have hw : w.Reported := fun b hb => Option.some.inj (hb.symm.trans hreported)
    rw [hmail, if_pos rfl] at hevent
    rw [htold] at hnews
    have hreacts : r.after.phase.told? = some w.value ∧ r.after.fired = r.before.fired +
        if armed = true ∧ w.value = true then 1 else 0 := by
      rw [hafter]
      cases armed <;> cases hv : w.value <;> rw [hv] at hnews <;> cases hnews <;>
        simp [react, Phase.told?, hphase]
    refine ⟨⟨fun _ => ?_, hwatch ▸ hw⟩, ⟨by rw [hevent, hwatch]; rfl, ?_⟩⟩
    · rw [hwatch, hreported, hreacts.1]
    · rw [hreacts.2, hevent, ← hvalue]
      simp
  · rw [hmail, if_neg Bool.false_ne_true] at hevent
    refine ⟨⟨fun _ => ?_, fun b hb => ?_⟩,
      .of_eq hevent (by rw [hwatch, hsame]) (by rw [hafter]; rfl)⟩
    · rw [hwatch, hkept, htold, hafter]
      show some (!armed) = r.before.phase.told?
      rw [hphase]
      rfl
    · rw [hwatch] at hb ⊢
      rw [hsame]
      exact h.reported b (hkept ▸ hb)

theorem Attuned.turn (h : r.before.Attuned) (hmade : r.Made) : r.after.Attuned ∧ Counts r := by
  have hstill : (∀ armed, r.before.phase ≠ .following armed) → r.after.watch = r.before.watch →
      r.after.fired = r.before.fired → r.after.phase.told? = r.before.phase.told? →
      r.before.isAlive = true → r.after.Attuned ∧ Counts r := by
    intro hphase hwatch hfired htold halive
    refine ⟨⟨fun _ => ?_, ?_⟩, .of_eq (TaskTurn.event?_eq_none hphase) (by rw [hwatch]) hfired⟩
    · rw [hwatch, htold, h.told halive]
    · rw [hwatch]
      exact h.reported
  cases hmade.outcome with
  | ends hafter =>
    have hended : r.after.isAlive = false := by
      rw [hafter]
      rfl
    refine ⟨⟨fun halive => ?_, ?_⟩,
      .of_eq (TaskTurn.event?_of_ended hended) (by rw [hafter]) (by rw [hafter])⟩
    · rw [hended] at halive
      cases halive
    · rw [hafter]
      exact h.reported
  | waits hidle hserve _ hafter =>
    have hevent : r.event? = none := TaskTurn.event?_of_waits hserve
    refine ⟨?_, .of_eq hevent (by rw [hafter]) (by rw [hafter])⟩
    rw [hafter]
    exact ⟨h.told, h.reported⟩
  | starts hphase hafter =>
    have hevent : r.event? = none := TaskTurn.event?_eq_none (by rw [hphase]; exact nofun)
    refine ⟨⟨fun _ => ?_, ?_⟩, .of_eq hevent ?_ ?_⟩ <;> rw [hafter]
    · show some r.before.watch.value = some (!!r.before.watch.value)
      rw [Bool.not_not]
    · exact fun b hb => (Option.some.inj hb).symm
    · rfl
  | serves hphase hserve hafter => exact h.serves hphase hserve hafter
  | wakes hphase hafter =>
    exact hstill (by rw [hphase]; exact nofun) (by rw [hafter]) (by rw [hafter])
      (by rw [hafter, hphase]; rfl) (isAlive_of_ne_ended (by rw [hphase]; exact nofun))
  | acts hphase hcancelled hafter =>
    exact hstill (by rw [hphase]; exact nofun) (by rw [hafter]) (by rw [hafter])
      (by rw [hafter, hphase, told?_afterAction]; rfl)
      (isAlive_of_ne_ended (by rw [hphase]; exact nofun))
  | rounds hphase hafter =>
    exact hstill (by rw [hphase]; exact nofun) (by rw [hafter]) (by rw [hafter])
      (by rw [hafter, hphase]; rfl) (isAlive_of_ne_ended (by rw [hphase]; exact nofun))

/-- A task that rests has its memories. -/
theorem Rests.watch_eq (h : t.Rests u) :
    u.watch.value = t.watch.value ∧ u.watch.reported = t.watch.reported := by
  obtain ⟨queue, hwatch⟩ := h.watch
  rw [hwatch]
  exact ⟨rfl, rfl⟩

theorem Attuned.rests (h : t.Attuned) (hrests : t.Rests u) : u.Attuned := by
  obtain ⟨hvalue, hreported⟩ := hrests.watch_eq
  refine ⟨fun halive => ?_, fun b hb => ?_⟩
  · rw [hreported, hrests.phase]
    refine h.told ?_
    unfold isAlive at halive ⊢
    rwa [hrests.phase] at halive
  · rw [hvalue]
    exact h.reported b (hreported ▸ hb)

/-- A task that is about to start has nothing to make of any report yet. -/
theorem attuned_start {rule : Rule} {w : ConditionWatch} (hw : w.reported = none) :
    (start rule w).Attuned :=
  ⟨fun _ => hw, fun b hb => by cases hw.symm.trans hb⟩

/-- **A task has fired as often as the value of its condition has become true.** -/
theorem Career.counts (h : t.Career turns u) (ht : t.Attuned) : u.Attuned ∧
    u.watch.value = (TaskTurn.values turns).getLast?.getD t.watch.value ∧
    u.fired = t.fired + rises t.watch.value (TaskTurn.values turns) := by
  induction h with
  | start => exact ⟨ht, rfl, rfl⟩
  | rests _ hrests ih =>
    obtain ⟨hattuned, hvalue, hfired⟩ := ih
    exact ⟨hattuned.rests hrests, hrests.watch_eq.1.trans hvalue, hrests.fired.trans hfired⟩
  | @turn turns r _ hmade ih =>
    obtain ⟨hattuned, hvalue, hfired⟩ := ih
    obtain ⟨hafter, hcounts⟩ := hattuned.turn hmade
    refine ⟨hafter, ?_, ?_⟩ <;> rw [TaskTurn.values_concat]
    · rw [hcounts.value, hvalue]
      cases r.event? <;> simp
    · rw [hcounts.fired, hfired, hvalue]
      cases r.event? with
      | none => simp
      | some b => simp [rises_concat, Nat.add_assoc]

/-- The task was attuned in each of its turns. -/
theorem Career.attuned_before (h : t.Career turns u) (ht : t.Attuned) (hr : r ∈ turns) :
    r.before.Attuned ∧ r.Made := by
  obtain ⟨before, later, hturns⟩ := List.append_of_mem hr
  obtain ⟨hbefore, hmade, -⟩ := h.split hturns
  exact ⟨(hbefore.counts ht).1, hmade⟩

/-- The rule fires exactly if mail is served that makes the condition true. -/
theorem Attuned.fires_iff (h : r.before.Attuned) (hmade : r.Made) :
    r.Fires ↔ r.before.watch.value = false ∧ r.event? = some true := by
  have hfired := (h.turn hmade).2.fired
  rw [TaskTurn.Fires, hfired]
  split
  · next hrises => simp [hrises]
  · next hrises => simp [hrises]

/-- No report of *true* comes while the rule is not armed. -/
theorem Attuned.not_true_of_unarmed {w : ConditionWatch} {s s' : Store} (h : t.Attuned)
    (hphase : t.phase = .following false) : t.watch.serve s ≠ some (some true, w, s') := by
  intro hserve
  have htold : t.watch.reported = some true := h.reported_of_following hphase
  rcases ConditionWatch.serve_spec hserve with ⟨-, -, hnews⟩ | ⟨-, hnews, -⟩
  · split at hnews
    · cases hnews
    · next hother =>
      rw [← Option.some.inj hnews] at hother
      exact hother htold
  · cases hnews

/-- What was reported is not forgotten. -/
theorem reported_of_made {b : Bool} (hmade : r.Made) (h : r.before.watch.reported = some b) :
    ∃ b', r.after.watch.reported = some b' := by
  cases hmade.outcome with
  | ends hafter | waits _ _ _ hafter | wakes _ hafter | acts _ _ hafter | rounds _ hafter =>
    exact ⟨b, by rw [hafter]; exact h⟩
  | starts _ hafter => exact ⟨r.before.watch.value, by rw [hafter]⟩
  | @serves _ _ w _ _ hserve hafter =>
    rw [watch_of_served hafter]
    rcases ConditionWatch.serve_spec hserve with ⟨-, hreported, -⟩ | ⟨-, -, -, hkept⟩
    · exact ⟨_, hreported⟩
    · exact ⟨b, hkept.trans h⟩

/-- A firing comes with a report of *true* after one of *false*. -/
theorem Attuned.reported_of_fires (h : r.before.Attuned) (hmade : r.Made) (hfires : r.Fires) :
    r.before.watch.reported = some false ∧ r.after.watch.reported = some true := by
  obtain ⟨hvalue, hevent⟩ := (h.fires_iff hmade).1 hfires
  obtain ⟨hafter, hcounts⟩ := h.turn hmade
  have hbefore : r.before.watch.reported = some false := by
    cases hphase : r.before.phase with
    | following armed =>
      have htold := h.reported_of_following hphase
      rw [htold, ← hvalue, ← h.reported _ htold]
    | starting | acting | sleeping | ended =>
      rw [TaskTurn.event?_eq_none (by rw [hphase]; exact nofun)] at hevent
      cases hevent
  obtain ⟨b, hb⟩ := reported_of_made hmade hbefore
  have hnow : r.after.watch.value = true := by
    rw [hcounts.value, hevent]
    rfl
  exact ⟨hbefore, by rw [hb, hafter.reported b hb, hnow]⟩

/-- As long as *false* is not reported, the last report stays *true*. -/
theorem Career.reported_true (h : t.Career turns u) (ht : t.watch.reported = some true)
    (hnever : ∀ r ∈ turns, ¬ r.Reports false) : u.watch.reported = some true := by
  induction h with
  | start => exact ht
  | rests _ hrests ih => exact hrests.watch_eq.2.trans (ih hnever)
  | @turn turns r _ hmade ih =>
    have hbefore := ih fun r' hr' => hnever r' (List.mem_append_left _ hr')
    obtain ⟨b, hb⟩ := reported_of_made hmade hbefore
    cases b with
    | true => exact hb
    | false =>
      refine absurd ⟨hb, ?_⟩ (hnever r (List.mem_append_right _ (List.mem_singleton_self r)))
      rw [hbefore]
      exact nofun

/-- Between two firings the condition reports *false*. -/
theorem Career.reports_between {r₁ r₂ : TaskTurn} {before between after : List TaskTurn}
    (h : t.Career turns u) (ht : t.Attuned)
    (hturns : turns = before ++ r₁ :: (between ++ r₂ :: after)) (hfires₁ : r₁.Fires)
    (hfires₂ : r₂.Fires) : ∃ r ∈ between, r.Reports false := by
  obtain ⟨hbefore, hmade₁, hlater⟩ := h.split hturns
  obtain ⟨hbetween, hmade₂, -⟩ := hlater.split rfl
  have hattuned₁ := (hbefore.counts ht).1
  have hattuned₂ := (hbetween.counts (hattuned₁.turn hmade₁).1).1
  by_contra hnever
  have htrue := hbetween.reported_true (hattuned₁.reported_of_fires hmade₁ hfires₁).2
    fun r hr hreports => hnever ⟨r, hr, hreports⟩
  rw [(hattuned₂.reported_of_fires hmade₂ hfires₂).1] at htrue
  cases htrue

/-- The rule is armed exactly while the last report is *false*. -/
theorem Attuned.armed_iff (h : t.Attuned) (halive : t.isAlive = true) :
    t.phase = .following true ↔ t.watch.reported = some false := by
  rw [h.told halive]
  cases hphase : t.phase with
  | following armed => cases armed <;> simp [Phase.told?]
  | starting | acting | sleeping | ended => simp [Phase.told?]

end RuleTask

/-! ## Rules that were added -/

/-- Nothing has been reported at the start. -/
theorem ConditionWatch.reported_start {s s' : Store} {c : Condition} {w : ConditionWatch}
    (h : start s c = (.ok w, s')) : w.reported = none := by
  unfold start at h
  split at h
  · rcases hopened : openFeeds s c.leaves with ⟨e | feeds, s₁⟩ <;> rw [hopened] at h <;> cases h
    rfl
  · cases h

namespace Hub.Chronicle

/-- **A rule fires on the rising edges of its condition, and on nothing else.** In any state of a
run a rule is added, and then anything may happen. Let the first value be the truth that the
condition has when the rule is added, and let each mail that the task serves give one more value.
The rule has fired as often as this sequence goes from *false* to *true*: in a turn it fires exactly
if mail is served that makes the condition true. So it does not fire as long as it has always been
true.

The rule is armed exactly while the last report was *false*. A report of *true* therefore never
finds it unarmed, and between two firings *false* is reported. -/
theorem fires_on_rising_edges (scheme : String) (timeout : Nat) (earlier later : List Move)
    (rule : Rule) :
    let before := (start scheme timeout).after earlier
    let added := before.next (.event (.addRule rule))
    let id : TaskId := ⟨before.hub.started + 1⟩
    let turns := added.turnsOf id later
    let first := rule.condition.holdsOn before.hub.store
    let values := TaskTurn.values turns
    let now := (added.after later).hub
    (before.hub.addRule rule).1 = .ok () → ∀ t, (id, Task.rule t) ∈ now.tasks →
    now.firedOf id = rises first values ∧
    (first = true → false ∉ values → now.firedOf id = 0) ∧
    (∀ r ∈ turns, r.Fires ↔ r.before.watch.value = false ∧ r.event? = some true) ∧
    (t.isAlive = true → (t.phase = .following true ↔ t.watch.reported = some false)) ∧
    (∀ r ∈ turns, r.before.phase = .following false →
      ∀ w' s', r.before.watch.serve r.store ≠ some (some true, w', s')) ∧
    ∀ front r₁ between r₂ back, turns = front ++ r₁ :: (between ++ r₂ :: back) →
      r₁.Fires → r₂.Fires → ∃ r ∈ between, r.Reports false := by
  intro before added id turns first values now hadd t ht
  have H : before.Orderly := (Orderly.start scheme timeout).after earlier
  obtain ⟨w, s, hstart, hcareers⟩ := H.career_of_added hadd
  have hcareer : (RuleTask.start rule w).Career turns t := hcareers later t ht
  have hattuned : (RuleTask.start rule w).Attuned :=
    RuleTask.attuned_start (ConditionWatch.reported_start hstart)
  obtain ⟨hnow, -, hcount⟩ := hcareer.counts hattuned
  have hfirst : w.value = first := ConditionWatch.value_start H.accounted.numbered hstart
  have hfired : now.firedOf id = rises first values := by
    have hlookup := lookup_of_mem ((H.next _).after later).accounted.taskIds ht
    rw [firedOf, hlookup, ← hfirst]
    exact hcount.trans (Nat.zero_add _)
  refine ⟨hfired, fun htrue hnever => ?_, fun r hr => ?_, hnow.armed_iff, fun r hr hphase _ _ => ?_,
    fun _ _ _ _ _ hturns => hcareer.reports_between hattuned hturns⟩
  · rw [hfired, htrue, rises_eq_zero hnever]
  · obtain ⟨hbefore, hmade⟩ := hcareer.attuned_before hattuned hr
    exact hbefore.fires_iff hmade
  · exact (hcareer.attuned_before hattuned hr).1.not_true_of_unarmed hphase

/-- A rule is added while its condition is true. It does not fire at once, but when the condition
has become false and true again, and once more after that. -/
theorem fires_twice :
    let rule : Rule := ⟨"lamp", .leaf ⟨"status://switch", .present⟩, []⟩
    let on : Move := .event (.write (.set "status://switch" (.bool true) .unchecked))
    let off : Move := .event (.write (.remove "status://switch" .unchecked))
    let step : Move := .event .step
    let before := (start "status" 200).after [on]
    let added := before.next (.event (.addRule rule))
    let id : TaskId := ⟨before.hub.started + 1⟩
    let later := [step, off, step, on, step, step, off, step, on, step]
    let values := TaskTurn.values (added.turnsOf id later)
    rule.condition.holdsOn before.hub.store = true ∧ values = [false, true, false, true] ∧
      (added.after later).hub.firedOf id = 2 := by
  intro rule on off step before added id later values
  have hrun : (values, (added.after later).hub.rules) =
      ([false, true, false, true], [("lamp", id)]) := by
    subst values added later id before on off step rule
    cbv
  have hbefore : ((before.hub.addRule rule).1, rule.condition.holdsOn before.hub.store) =
      (.ok (), true) := by
    subst before on rule
    cbv
  obtain ⟨hvalues, hrules⟩ := Prod.mk.inj hrun
  obtain ⟨hadd, hfirst⟩ := Prod.mk.inj hbefore
  have H : (added.after later).Orderly :=
    (((Orderly.start "status" 200).after [on]).next _).after later
  have hregistered : ("lamp", id) ∈ (added.after later).hub.rules := by
    rw [hrules]
    exact List.mem_singleton_self _
  obtain ⟨t, ht⟩ := H.registered _ hregistered
  obtain ⟨hcount, -⟩ := fires_on_rising_edges "status" 200 [on] later rule hadd t ht
  refine ⟨hfirst, hvalues, hcount.trans ?_⟩
  exact congr (congrArg rises hfirst) hvalues

end Hub.Chronicle

end Switchboard
