import Mathlib
import Switchboard.Proofs.Hub.Orders
/-!
# Every watch is accounted for

A hub is used from its start on (`Hub.Course`): callers do what they can do with it, its tasks make
steps, and time passes. Where the order is not determined, it is free: a task in the line or a feed
in a queue may be preferred, and a task that was told to stop may look at its condition once more.

Whenever the hub is settled, each registered watch belongs to a receiver, to a leaf of a condition
that is followed, to a leaf of a rule whose task lives, or to a request that waits. The tasks that
were told to stop have ended then, and their watches with them, or they sleep
(`Hub.Course.every_watch_accounted`).
-/

namespace Switchboard.Hub

open Store (Trades)

/-- What can happen to a hub. -/
inductive Event where
  | write (w : Write)
  | watch (name pattern : String)
  | take (name : String)
  | receive (name : String)
  | release (name : String)
  | dropWatch (name : String)
  | follow (name : String) (c : Condition)
  | changed (name : String)
  | dropCondition (name : String)
  | act (action : Action)
  | addRule (rule : Rule)
  | removeRule (name : String)
  | dropRules
  | stopRules
  | request (r : Request)
  | startRequest (name : String) (r : Request)
  | response (name : String)
  | dropRequest (name : String)
  /-- The first task in the line makes a step. -/
  | step
  /-- The first task in the line serves its condition once more, although it was told to stop. -/
  | overlook
  /-- The task at a place of the line gets in front of the others. -/
  | preferTask (place : Nat)
  /-- In the queue of the task of a rule, the feed at a place gets in front of the others. -/
  | preferFeed (id : TaskId) (place : Nat)
  /-- In the queue of a condition, the feed at a place gets in front of the others. -/
  | preferLeaf (name : String) (place : Nat)
  /-- Time passes, and no task makes a step meanwhile. -/
  | pass (milliseconds : Nat)
  /-- Time passes, and everything goes on meanwhile. -/
  | advance (milliseconds : Nat)

/-- The first task in the line, which was told to stop, serves its condition if there is news. -/
def overlook (h : Hub) : Hub :=
  match h.line with
  | [] => h
  | id :: rest =>
    match h.tasks.lookup id with
    | some (.rule t) =>
      match t.phase with
      | .following armed =>
        let served := RuleTask.yield (t.follow armed h.store)
        if t.isAborted = false ∧ served.1 = .runs then
          h.turned id rest (served.1, .rule served.2.1, served.2.2)
        else h
      | _ => h
    | _ => h

/-- The hub after an event. -/
def after (h : Hub) : Event → Hub
  | .write w => (h.write fun s => s.write w).2
  | .watch name pattern => (h.watch name pattern).2
  | .take name => (h.watches.lookup name).elim h fun id => (h.take id).2
  | .receive name => (h.watches.lookup name).elim h fun id => (h.receive id).2
  | .release name => (h.watches.lookup name).elim h fun id => h.release id
  | .dropWatch name => (h.watches.lookup name).elim h fun id => h.dropWatch name id
  | .follow name c => (h.follow name c).2
  | .changed name => (h.conditions.lookup name).elim h fun w => (h.changed name w).2
  | .dropCondition name => (h.conditions.lookup name).elim h fun w => h.dropCondition name w
  | .act action => (h.act action).2
  | .addRule rule => (h.addRule rule).2
  | .removeRule name => (h.removeRule name).2
  | .dropRules => h.dropRules
  | .stopRules => h.stopRules
  | .request r => (h.request r).2
  | .startRequest name r => h.startRequest name r
  | .response name => (h.requests.lookup name).elim h fun id =>
    (h.response? name id).elim h fun answered => answered.2
  | .dropRequest name => (h.requests.lookup name).elim h fun id => h.dropRequest name id
  | .step => h.step.getD h
  | .overlook => h.overlook
  | .preferTask place => { h with line := h.line[place]?.toList ++ h.line.eraseIdx place }
  | .preferFeed id place =>
    h.updateTask id (Task.onRule fun t => { t with watch := t.watch.prefer place })
  | .preferLeaf name place => { h with
      conditions := h.conditions.map fun entry =>
        (entry.1, if entry.1 = name then entry.2.prefer place else entry.2) }
  | .pass milliseconds => h.moveTo (h.clock + milliseconds)
  | .advance milliseconds => h.advance milliseconds

/-- The event happens at once. The others take their time, and everything else goes on meanwhile. -/
def Event.isAtOnce : Event → Bool
  | .request _ | .act (.delay _) | .advance _ => false
  | _ => true

/-- The watches that an event releases. -/
def releasedBy (h : Hub) : Event → List WatchId
  | .release name => (h.watches.lookup name).toList
  | _ => []

/-- A hub with the watches that its callers have released so far. -/
structure Course where
  hub : Hub
  released : List WatchId

namespace Course

/-- A new hub. -/
def start (scheme : String) (timeout : Nat) : Course :=
  ⟨.new scheme timeout, []⟩

/-- The course after one more event. -/
def next (c : Course) (e : Event) : Course :=
  ⟨c.hub.after e, c.hub.releasedBy e ++ c.released⟩

/-- The course after a run. -/
def after (c : Course) (events : List Event) : Course :=
  events.foldl next c

end Course

namespace Accounted

variable {h : Hub} {b : Books}

/-- It is enough to keep in mind some of the tasks that were told to stop. -/
theorem forgetTold {told : TaskId → List WatchId → Prop} (H : h.Accounted b)
    (htold : ∀ id watches, told id watches → b.told id watches) :
    h.Accounted { b with told } :=
  { H with told := fun id watches htells => H.told id watches (htold id watches htells) }

theorem overlook (H : h.Accounted b) : h.overlook.Accounted b := by
  unfold Hub.overlook
  split
  · exact H
  · next id rest hline =>
    split
    · next t hlookup =>
      split
      · next armed hphase =>
        dsimp only
        split
        · next hgoes =>
          have halive : t.isAlive = true := by rw [RuleTask.isAlive, hphase]
          obtain ⟨t', s', hfollow, hyields⟩ := RuleTask.yield_eq_runs hgoes.2
          have hturned := RuleTask.follow_turned H.numbered hphase
            (by rw [hfollow]; exact fun hwaits => by cases hwaits)
            fun _ => congrArg Prod.fst hfollow
          rw [hyields]
          rw [hfollow] at hturned
          exact H.turned hline hlookup
            (Task.turned_rule (hturned.working true fun hends => by cases hends) H.numbered halive)
        · exact H
      · exact H
    · exact H

theorem preferFeed (H : h.Accounted b) (id : TaskId) (place : Nat) :
    (h.after (.preferFeed id place)).Accounted b := by
  let touch : Task → Task := Task.onRule fun t => { t with watch := t.watch.prefer place }
  have hcarries : ∀ i t, (i, t) ∈ h.tasks → Task.Carries t (if i = id then touch t else t) := by
    rintro i (t | t) - <;> split
    · exact .rule rfl rfl ⟨rfl, rfl⟩ (fun hcancelled => hcancelled) fun hstopping => hstopping
    · exact .refl _
    · exact .refl _
    · exact .refl _
  refine H.mapTasks h.line h.rules H.ruleNames hcarries ?_ ?_
  · rintro i t ht hrestless
    refine (H.tasks _ ht).restless ?_
    split at hrestless
    · cases t <;> exact hrestless
    · exact hrestless
  · rintro i (t | t) r ht hr halive <;> split at hr <;> cases hr
    · exact ((H.tasks _ ht).rule t rfl halive).2
    · exact ((H.tasks _ ht).rule _ rfl halive).2

theorem preferLeaf (H : h.Accounted b) (name : String) (place : Nat) :
    (h.after (.preferLeaf name place)).Accounted b := by
  refine H.mapConditions (f := fun i w => if i = name then w.prefer place else w) fun i w _ => ?_
  split
  · exact ⟨rfl, rfl⟩
  · exact .refl w

/-- Something happens to what is under a name, if there is anything. -/
theorem elim {α : Type} {found : Option α} {f : α → Hub} (H : h.Accounted b)
    (hf : ∀ a, found = some a → (f a).Accounted b) : (found.elim h f).Accounted b := by
  cases found with
  | none => exact H
  | some a => exact hf a rfl

/-- Whatever happens at once, a hub stays accounted for. -/
theorem nextAtOnce {c : Course} {spare : Multiset WatchId} {told : TaskId → List WatchId → Prop}
    (H : c.hub.Accounted ⟨spare, c.released, told⟩) {e : Event} (he : e.isAtOnce = true) :
    (c.next e).hub.Accounted ⟨spare, (c.next e).released, told⟩ := by
  cases e with
  | write w => exact H.write w
  | watch name pattern => exact H.watch name pattern
  | take name => exact H.elim fun id _ => H.take id
  | receive name => exact H.elim fun id _ => H.receive id
  | release name =>
    show Accounted ⟨spare, (c.hub.watches.lookup name).toList ++ c.released, told⟩
      ((c.hub.watches.lookup name).elim c.hub fun id => c.hub.release id)
    cases hlookup : c.hub.watches.lookup name with
    | none => exact H
    | some id => exact H.release hlookup
  | dropWatch name => exact H.elim fun id hlookup => H.dropWatch hlookup
  | follow name condition => exact H.follow name condition
  | changed name => exact H.elim fun w hlookup => H.changed hlookup
  | dropCondition name => exact H.elim fun w hlookup => H.dropCondition hlookup
  | act action => exact H.act action
  | addRule rule => exact H.addRule rule
  | removeRule name => exact H.removeRule name
  | dropRules => exact H.dropRules
  | stopRules => exact H.stopRules.forgetTold fun _ _ htells => .inl htells
  | request | advance => cases he
  | startRequest name r => exact H.startRequest name r
  | response name =>
    exact H.elim fun id _ => H.elim fun answered hanswered => H.response hanswered
  | dropRequest name => exact H.elim fun id _ => H.dropRequest name id
  | step =>
    show Accounted _ (c.hub.step.getD c.hub)
    cases hstep : c.hub.step with
    | none => exact H
    | some stepped => exact H.step hstep
  | overlook => exact H.overlook
  | preferTask place =>
    exact H.setLine _ _ _ fun id hid _ => (ConditionWatch.perm_front c.hub.line place).mem_iff.2 hid
  | preferFeed id place => exact H.preferFeed id place
  | preferLeaf name place => exact H.preferLeaf name place
  | pass milliseconds => exact H.moveTo _

/-- Whatever happens, a hub stays accounted for. -/
theorem next {c : Course} {told : TaskId → List WatchId → Prop}
    (H : c.hub.Accounted ⟨0, c.released, told⟩) (e : Event) :
    (c.next e).hub.Accounted ⟨0, (c.next e).released, told⟩ := by
  by_cases he : e.isAtOnce = true
  · exact H.nextAtOnce he
  · cases e with
    | request r => exact H.request (b := ⟨0, c.released, told⟩) r
    | act action => exact H.act action
    | advance milliseconds => exact H.waitUntil _ _
    | _ => exact absurd rfl he

/-- A run keeps a hub accounted for. -/
theorem after {c : Course} {told : TaskId → List WatchId → Prop}
    (H : c.hub.Accounted ⟨0, c.released, told⟩) (events : List Event) :
    (c.after events).hub.Accounted ⟨0, (c.after events).released, told⟩ := by
  induction events generalizing c with
  | nil => exact H
  | cons e events ih => exact ih (H.next e)

end Accounted

/-! ## Counting -/

/-- How many receivers callers hold whose watches they have not released. -/
def Course.heldCount (c : Course) : Nat :=
  c.hub.watches.countP fun entry => entry.2 ∉ c.released

/-- How many leaves the conditions have that callers follow. -/
def followedCount (h : Hub) : Nat :=
  (h.conditions.map fun entry => entry.2.condition.leaves.length).sum

/-- How many leaves the condition of a rule has, as long as its task lives. -/
def leafCount : Task → Nat
  | .rule t => if t.isAlive then t.rule.condition.leaves.length else 0
  | .request _ => 0

/-- How many leaves the rules have whose tasks live. -/
def ruleCount (h : Hub) : Nat :=
  (h.tasks.map fun entry => leafCount entry.2).sum

/-- The task is a request that waits. -/
def isWaiting : Task → Bool
  | .request (.waiting _) => true
  | _ => false

/-- How many requests wait that were started as tasks. -/
def waitingCount (h : Hub) : Nat :=
  h.tasks.countP fun entry => isWaiting entry.2

theorem card_total {κ α : Type} {m : List (κ × α)} {owned : α → Multiset WatchId} {f : κ × α → Nat}
    (h : ∀ entry ∈ m, (owned entry.2).card = f entry) :
    (total owned m).card = (m.map f).sum := by
  induction m with
  | nil => rfl
  | cons entry rest ih =>
    have hrest := ih fun e he => h e (List.mem_cons_of_mem _ he)
    show (owned entry.2 + total owned rest).card = f entry + (rest.map f).sum
    rw [Multiset.card_add, h entry List.mem_cons_self, hrest]

theorem countP_eq_sum {α : Type} (p : α → Bool) (l : List α) :
    l.countP p = (l.map fun a => if p a then 1 else 0).sum := by
  induction l with
  | nil => rfl
  | cons a l ih => rw [List.countP_cons, ih, List.map_cons, List.sum_cons, add_comm]

namespace Accounted

variable {h : Hub} {b : Books} {c : Course} {told : TaskId → List WatchId → Prop}

/-- In a settled hub no task has to go on. -/
theorem not_restless (H : h.Accounted b) (hsettled : h.step = none) {id : TaskId} {t : Task}
    (ht : (id, t) ∈ h.tasks) : ¬ t.IsRestless := fun hrestless => by
  have hline := (H.tasks _ ht).restless hrestless
  cases h' : h.line with
  | nil =>
    rw [h'] at hline
    cases hline
  | cons i rest =>
    cases hlookup : h.tasks.lookup i with
    | none =>
      rw [step_of_lookup_none h' hlookup] at hsettled
      cases hsettled
    | some t =>
      rw [step_of_lookup h' hlookup] at hsettled
      cases hsettled

/-- In a settled hub there are as many watches as have owners. -/
theorem watchCount_eq (H : c.hub.Accounted ⟨0, c.released, told⟩) (hsettled : c.hub.step = none) :
    c.hub.store.watchCount =
      c.heldCount + c.hub.followedCount + c.hub.ruleCount + c.hub.waitingCount := by
  have hcount : c.hub.store.watchCount = c.hub.store.watched.card := by
    rw [Store.watched, Multiset.coe_card, Registry.ids, List.length_map]
    rfl
  have hheld : (total (unreleased c.released) c.hub.watches).card = c.heldCount := by
    rw [Course.heldCount, countP_eq_sum]
    refine card_total fun entry _ => ?_
    by_cases hreleased : entry.2 ∈ c.released <;> simp [unreleased, hreleased]
  have hfollowed : (total ConditionWatch.owned c.hub.conditions).card = c.hub.followedCount :=
    card_total fun entry hentry => (H.conditions entry hentry).card_owned
  have htasks : (total Task.owned c.hub.tasks).card = c.hub.ruleCount + c.hub.waitingCount := by
    rw [ruleCount, waitingCount, countP_eq_sum, ← List.sum_map_add]
    refine card_total fun entry hentry => ?_
    obtain ⟨id, t⟩ := entry
    cases t with
    | rule t =>
      by_cases halive : t.isAlive = true
      · have hfits := ((H.tasks _ hentry).rule t rfl halive).1
        simp [Task.owned, RuleTask.owned, leafCount, isWaiting, halive, hfits.card_owned]
      · simp [Task.owned, RuleTask.owned, leafCount, isWaiting, halive]
    | request t =>
      cases t with
      | cancelled watch =>
        cases watch with
        | none => rfl
        | some watch => exact absurd ⟨watch, rfl⟩ (H.not_restless hsettled hentry)
      | arrived | waiting | answered => rfl
  rw [hcount, H.ledger, zero_add, Hub.ledger, Multiset.card_add, Multiset.card_add, hheld,
    hfollowed, htasks, ← add_assoc]

/-- In a settled hub a task that was told to stop sleeps, or it is over. -/
theorem stopped (H : h.Accounted b) (hsettled : h.step = none) {id : TaskId}
    {watches : List WatchId} (htold : b.told id watches) :
    (∃ t, (id, Task.rule t) ∈ h.tasks ∧ t.IsSleeping ∧ t.watch.watches = watches) ∨
      h.Over id watches := by
  rcases H.told id watches htold with ⟨t, ht, halive, hwatches, hbound⟩ | hover
  · have hcalm := H.not_restless hsettled ht
    refine .inl ⟨t, ht, ?_, hwatches⟩
    rcases hbound with hcancelled | hstopping
    · exact absurd ⟨halive, .inl hcancelled⟩ hcalm
    · by_contra hawake
      exact hcalm ⟨halive, .inr ⟨hstopping, hawake⟩⟩
  · exact .inr hover

end Accounted

namespace Course

theorem after_append (c : Course) (events events' : List Event) :
    c.after (events ++ events') = (c.after events).after events' :=
  List.foldl_append

/-- Every watch is accounted for. Whenever a hub is settled, there are as many watches as receivers
are held and not released, leaves of conditions are followed, leaves of rules belong to living
tasks, and requests wait. Such a task has a rule that is registered. The tasks that lived when
the rules were told to stop are asleep, or they have ended and their watches with them. -/
theorem every_watch_accounted (scheme : String) (timeout : Nat) (events : List Event) (c : Course)
    (hc : (start scheme timeout).after events = c) (hsettled : c.hub.step = none) :
    c.hub.store.watchCount =
        c.heldCount + c.hub.followedCount + c.hub.ruleCount + c.hub.waitingCount ∧
      (∀ id t, (id, Task.rule t) ∈ c.hub.tasks → t.isAlive = true →
        id ∈ c.hub.rules.map Prod.snd) ∧
      ∀ earlier later, events = earlier ++ .stopRules :: later →
        ∀ id t, (id, Task.rule t) ∈ ((start scheme timeout).after earlier).hub.tasks →
          t.isAlive = true →
          (∃ t', (id, Task.rule t') ∈ c.hub.tasks ∧ t'.IsSleeping ∧
            t'.watch.watches = t.watch.watches) ∨
          (∀ t', (id, Task.rule t') ∈ c.hub.tasks → t'.isAlive = false) ∧
            ∀ watch ∈ t.watch.watches, c.hub.store.registry.find? watch = none := by
  subst hc
  have hnew : (start scheme timeout).hub.Accounted
      ⟨0, (start scheme timeout).released, fun _ _ => False⟩ := Accounted.new scheme timeout
  have H := hnew.after events
  refine ⟨H.watchCount_eq hsettled, fun id t ht halive => ?_, ?_⟩
  · refine ((H.tasks _ ht).rule t rfl halive).2.resolve_left fun hcancelled => ?_
    exact H.not_restless hsettled ht ⟨halive, .inl hcancelled⟩
  · rintro earlier later rfl id t ht halive
    rw [after_append] at hsettled ⊢
    have hstopped := (hnew.after earlier).stopRules
    have hlater := Accounted.after (c := ((start scheme timeout).after earlier).next .stopRules)
      hstopped later
    rcases hlater.stopped hsettled (.inr ⟨t, ht, halive, rfl⟩) with hsleeps | hover
    · exact .inl hsleeps
    · refine .inr ⟨fun t' ht' => ?_, fun watch hwatch =>
        Store.not_mem_watched_iff.1 (hover.unwatched watch hwatch)⟩
      by_contra halive'
      exact hover.ended ⟨t', ht', Bool.eq_true_of_not_eq_false halive'⟩

/-- Two rules are told to stop while the first one waits in the middle of its actions. It keeps its
watch, the other one ends. Besides there are a receiver, another one that was released, a condition
and a request that waits. -/
theorem one_rule_left_after_stop :
    let lamp : Rule := ⟨"lamp", .leaf ⟨"status://switch", .present⟩, [.delay (.ofMilliseconds 5)]⟩
    let door : Rule := ⟨"door", .leaf ⟨"status://door", .present⟩, []⟩
    let earlier : List Event := [.addRule lamp, .addRule door, .watch "kept" "status://lamp",
      .watch "ended" "status://*", .release "ended",
      .follow "lit" (.leaf ⟨"status://lamp", .present⟩), .startRequest "lamp"
        ⟨.get, "/api/status/lamp?revision=must_not_exist", none, ""⟩,
      .step, .step, .step, .step, .step, .step, .step,
      .write (.set "status://switch" (.bool true) .unchecked), .step, .step]
    let before := (start "status" 200).after earlier
    let c := (start "status" 200).after (earlier ++ [.stopRules, .step, .step])
    c.hub.step = none ∧ c.hub.store.watchCount = 4 ∧
      (c.heldCount, c.hub.followedCount, c.hub.ruleCount, c.hub.waitingCount) = (1, 1, 1, 1) ∧
      before.hub.ruleCount = 2 ∧
      ∀ id t, (id, Task.rule t) ∈ before.hub.tasks → t.isAlive = true →
        (∃ t', (id, Task.rule t') ∈ c.hub.tasks ∧ t'.IsSleeping ∧
          t'.watch.watches = t.watch.watches) ∨
        (∀ t', (id, Task.rule t') ∈ c.hub.tasks → t'.isAlive = false) ∧
          ∀ watch ∈ t.watch.watches, c.hub.store.registry.find? watch = none := by
  intro lamp door earlier before c
  have hrun : (c.hub.step.isNone, before.hub.ruleCount,
      c.heldCount, c.hub.followedCount, c.hub.ruleCount, c.hub.waitingCount) =
      (true, 2, 1, 1, 1, 1) := by
    subst c before earlier door lamp
    cbv
  simp only [Prod.mk.injEq] at hrun
  obtain ⟨hsettled, hbefore, hheld, hfollowed, hrules, hwaiting⟩ := hrun
  obtain ⟨hcount, -, hstopped⟩ := every_watch_accounted "status" 200 _ c rfl
    (Option.isNone_iff_eq_none.1 hsettled)
  refine ⟨Option.isNone_iff_eq_none.1 hsettled, ?_, ?_, hbefore, hstopped earlier _ rfl⟩
  · rw [hcount, hheld, hfollowed, hrules, hwaiting]
  · rw [hheld, hfollowed, hrules, hwaiting]

end Course

end Switchboard.Hub
