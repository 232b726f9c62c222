import Mathlib
import Switchboard.Proofs.Hub.Accounting
import Switchboard.Proofs.Rule.Deeds
/-!
# The chronicle of a hub

What takes its time is made of moves that happen at once: a task makes a step, somebody makes a
call, a request is looked at, the clock goes on. A chronicle is a hub that is followed move by move
(`Chronicle.next`), with all that the tasks of its rules have done. No event is missed in this way:
each one is a sequence of moves (`Chronicle.exists_moves`).

The watches of requests that wait are accounted for in every chronicle (`Chronicle.accounted`).
-/

namespace Switchboard

namespace Hub

/-- The first task in the line, if it is that of a rule. -/
def firstRule? (h : Hub) : Option (TaskId × RuleTask) :=
  match h.line with
  | [] => none
  | id :: _ =>
    match h.tasks.lookup id with
    | some (.rule t) => some (id, t)
    | _ => none

/-- The turn that the task of a rule has in an event: the task before and after it. -/
def turn? (h : Hub) : Event → Option (TaskId × RuleTask × RuleTask)
  | .step => h.firstRule?.map fun (id, t) => (id, t, (t.step h.clock h.store).2.1)
  | .overlook => h.firstRule?.bind fun (id, t) =>
    match t.phase with
    | .following armed =>
      let served := RuleTask.yield (t.follow armed h.store)
      if t.isAborted = false ∧ served.1 = .runs then some (id, t, served.2.1) else none
    | _ => none
  | _ => none

/-- What the tasks of rules do in an event that happens at once. -/
def deedsIn (h : Hub) (e : Event) : List (TaskId × Deed) :=
  match h.turn? e with
  | some (id, t, t') => (t.deed? t').toList.map (id, ·)
  | none => []

/-- What happens at once. -/
inductive Move where
  /-- An event, if it does not take its time. -/
  | event (e : Event)
  /-- A request arrives that is handled at once. -/
  | arrive (r : Request)
  /-- The request at a place of those that wait looks into its mailbox and at the clock. -/
  | look (place : Nat)

/-- A hub with the requests that are handled at once and wait, and with all that the tasks of its
rules have done so far. -/
structure Chronicle where
  course : Course
  waiting : List LongPoll
  deeds : List (TaskId × Deed)

namespace Chronicle

/-- The hub as it is now. -/
def hub (c : Chronicle) : Hub := c.course.hub

/-- A new hub. -/
def start (scheme : String) (timeout : Nat) : Chronicle :=
  ⟨.start scheme timeout, [], []⟩

/-- The chronicle after a request was looked at; `others` wait besides. -/
def looked (c : Chronicle) (others : List LongPoll) (handled : Handling × Store) : Chronicle :=
  { c with
    course := ⟨c.hub.withStore handled.2, c.course.released⟩
    waiting := match handled.1 with
      | .answered _ => others
      | .waiting p => p :: others }

/-- The chronicle after one more move. -/
def next (c : Chronicle) : Move → Chronicle
  | .event e =>
    if e.isAtOnce then ⟨c.course.next e, c.waiting, c.deeds ++ c.hub.deedsIn e⟩ else c
  | .arrive r => c.looked c.waiting (r.handle c.hub.store c.hub.clock c.hub.timeout)
  | .look place =>
    match c.waiting[place]? with
    | some p => c.looked (c.waiting.eraseIdx place) (p.poll c.hub.clock c.hub.store 2)
    | none => c

/-- The chronicle after some moves. -/
def after (c : Chronicle) (moves : List Move) : Chronicle :=
  moves.foldl next c

/-- What the task has done so far. -/
def deedsOf (c : Chronicle) (id : TaskId) : List Deed :=
  c.deeds.filterMap fun deed => if deed.1 = id then some deed.2 else none

theorem after_append (c : Chronicle) (moves moves' : List Move) :
    c.after (moves ++ moves') = (c.after moves).after moves' :=
  List.foldl_append

/-! ## Every event is made of moves -/

variable {c : Chronicle} {h : Hub} {others waiting : List LongPoll}

/-- Some moves lead to the hub `h`, while the watches that callers release stay the same. -/
def Comes (c : Chronicle) (waiting : List LongPoll) (h : Hub) : Prop :=
  ∃ moves, (c.after moves).course = ⟨h, c.course.released⟩ ∧ (c.after moves).waiting = waiting

theorem Comes.refl (c : Chronicle) : c.Comes c.waiting c.hub :=
  ⟨[], rfl, rfl⟩

/-- Moves follow one another. -/
theorem Comes.reached (hcomes : c.Comes waiting h) : ∃ c' : Chronicle, c'.hub = h ∧
    c'.waiting = waiting ∧ ∀ others h', c'.Comes others h' → c.Comes others h' := by
  obtain ⟨moves, hcourse, hwaiting⟩ := hcomes
  refine ⟨c.after moves, by rw [hub, hcourse], hwaiting, ?_⟩
  rintro others h' ⟨moves', hcourse', hwaiting'⟩
  refine ⟨moves ++ moves', ?_, ?_⟩
  · rw [after_append, hcourse', hcourse]
  · rw [after_append, hwaiting']

/-- An event that happens at once, and in which no watch is released. -/
theorem Comes.event {e : Event} (he : e.isAtOnce = true) (hreleased : c.hub.releasedBy e = []) :
    c.Comes c.waiting (c.hub.after e) := by
  have hnext : c.next (.event e) = ⟨c.course.next e, c.waiting, c.deeds ++ c.hub.deedsIn e⟩ :=
    if_pos he
  have hcourse : c.course.next e = ⟨c.hub.after e, c.course.released⟩ :=
    congrArg (Course.mk _) (congrArg (· ++ c.course.released) hreleased)
  refine ⟨[.event e], ?_, ?_⟩
  · show (c.next (.event e)).course = _
    rw [hnext, hcourse]
  · show (c.next (.event e)).waiting = _
    rw [hnext]

theorem comes_run (c : Chronicle) (steps : Nat) : c.Comes c.waiting (c.hub.run steps) := by
  induction steps generalizing c with
  | zero => exact .refl c
  | succ steps ih =>
    rw [Hub.run]
    cases hstep : c.hub.step with
    | none => exact .refl c
    | some stepped =>
      have hfirst : c.Comes c.waiting stepped := by
        have hafter : c.hub.after .step = stepped := congrArg (Option.getD · c.hub) hstep
        exact hafter ▸ .event rfl rfl
      obtain ⟨c', rfl, hwaiting, hback⟩ := hfirst.reached
      exact hback _ _ (hwaiting ▸ ih c')

theorem comes_moveTo (c : Chronicle) {time : Nat} (hclock : c.hub.clock ≤ time) :
    c.Comes c.waiting (c.hub.moveTo time) := by
  have hpass : c.hub.after (.pass (time - c.hub.clock)) = c.hub.moveTo time :=
    congrArg c.hub.moveTo (Nat.add_sub_cancel' hclock)
  exact hpass ▸ .event rfl rfl

theorem comes_settle (c : Chronicle) : c.Comes c.waiting c.hub.settle :=
  c.comes_run patience

theorem clock_settle (h : Hub) : h.settle.clock = h.clock :=
  clock_run h patience

theorem comes_settled (c : Chronicle) {time : Nat} (hclock : c.hub.clock ≤ time) :
    c.Comes c.waiting (c.hub.settle.moveTo time) := by
  obtain ⟨c', hhub, hwaiting, hback⟩ := c.comes_settle.reached
  rw [← clock_settle, ← hhub] at hclock
  rw [← hhub, ← hwaiting]
  exact hback _ _ (c'.comes_moveTo hclock)

theorem comes_waitUntil (c : Chronicle) {target : Nat} (hclock : c.hub.clock ≤ target)
    (tries : Nat) : c.Comes c.waiting (c.hub.waitUntil target tries) := by
  induction tries generalizing c with
  | zero => exact .refl c
  | succ tries ih =>
    rw [Hub.waitUntil]
    cases halarm : c.hub.settle.nextAlarm? with
    | none =>
      simp only
      exact c.comes_settled hclock
    | some time =>
      have hlt : c.hub.clock < time := clock_settle c.hub ▸ lt_nextAlarm halarm
      simp only
      split
      · next hle =>
        obtain ⟨c', hhub, hwaiting, hback⟩ := (c.comes_settled hlt.le).reached
        have hclock' : c'.hub.clock ≤ target := by
          rw [hhub]
          exact hle
        rw [← hhub, ← hwaiting]
        exact hback _ _ (ih c' hclock')
      · exact c.comes_settled hclock

/-- A request that waits looks into its mailbox. -/
theorem comes_look {p : LongPoll} (c : Chronicle) (hwaits : c.waiting = p :: others) :
    c.Comes (c.looked others (p.poll c.hub.clock c.hub.store 2)).waiting
      (c.hub.withStore (p.poll c.hub.clock c.hub.store 2).2) := by
  have hnext : c.next (.look 0) = c.looked others (p.poll c.hub.clock c.hub.store 2) := by
    rw [next, hwaits]
    rfl
  refine ⟨[.look 0], ?_, ?_⟩
  · show (c.next (.look 0)).course = _
    rw [hnext]
    rfl
  · show (c.next (.look 0)).waiting = _
    rw [hnext]

/-- A request is waited for while everything else goes on. -/
theorem comes_await {p : LongPoll} (c : Chronicle) (hwaits : c.waiting = p :: others)
    (hclock : c.hub.clock ≤ p.deadline) (tries : Nat) :
    ∃ waiting, c.Comes waiting (c.hub.await p tries).2 := by
  induction tries generalizing c with
  | zero => exact ⟨_, .refl c⟩
  | succ tries ih =>
    obtain ⟨settled, hhub, hwaiting, hback⟩ := c.comes_settle.reached
    have hsettled : c.hub.clock = settled.hub.clock := by rw [hhub, clock_settle]
    rw [Hub.await]
    dsimp only
    rw [← hhub]
    rw [hsettled] at hclock
    have hlooked := settled.comes_look (hwaiting.trans hwaits)
    rcases hpolled : p.poll settled.hub.clock settled.hub.store 2 with ⟨r | p', s⟩ <;>
      rw [hpolled] at hlooked
    · exact ⟨_, hback _ _ hlooked⟩
    · have hpolled' := congrArg Prod.fst hpolled
      obtain rfl : p = p' := LongPoll.eq_of_waiting hpolled'
      have hearly : settled.hub.clock < p.deadline := LongPoll.lt_deadline_of_waiting hpolled'
      obtain ⟨looked, hhub', hwaiting', hback'⟩ := hlooked.reached
      dsimp only at hhub' ⊢
      rw [← hhub']
      have hlooked' : looked.hub.clock = settled.hub.clock := by rw [hhub', clock_withStore]
      have hgo : ∀ time, looked.hub.clock ≤ time → time ≤ p.deadline →
          ∃ waiting, c.Comes waiting ((looked.hub.moveTo time).await p tries).2 := by
        intro time hlt hle
        obtain ⟨moved, hmoved, hwaits', hback''⟩ := (looked.comes_moveTo hlt).reached
        obtain ⟨waiting, hcomes⟩ := ih moved (hwaits'.trans hwaiting') (by rw [hmoved]; exact hle)
        rw [hmoved] at hcomes
        exact ⟨waiting, hback _ _ (hback' _ _ (hback'' _ _ hcomes))⟩
      -- The clock moves to the next alarm, if that comes before the deadline.
      cases halarm : looked.hub.nextAlarm? with
      | none => exact hgo p.deadline (hlooked'.trans_lt hearly).le (Nat.le_refl _)
      | some time =>
        exact hgo _ (le_min (lt_nextAlarm halarm).le (hlooked'.trans_lt hearly).le)
          (Nat.min_le_right _ _)

/-- Every event is made of moves. -/
theorem exists_moves (c : Chronicle) (hnumbered : c.hub.store.registry.Numbered) (e : Event) :
    ∃ moves, (c.after moves).course = c.course.next e := by
  have hcomes : ∀ {waiting h}, c.Comes waiting h → c.hub.after e = h → c.hub.releasedBy e = [] →
      ∃ moves, (c.after moves).course = c.course.next e := by
    rintro waiting h ⟨moves, hcourse, -⟩ hafter hreleased
    refine ⟨moves, hcourse.trans ?_⟩
    exact congr (congrArg Course.mk hafter.symm)
      (congrArg (· ++ c.course.released) hreleased).symm
  by_cases he : e.isAtOnce = true
  · refine ⟨[.event e], ?_⟩
    show (c.next (.event e)).course = _
    rw [next, if_pos he]
  · cases e with
    | act action =>
      cases action with
      | delay duration =>
        by_cases hzero : duration.ticks = 0
        · exact hcomes (.refl c) (if_pos hzero) rfl
        · exact hcomes (c.comes_waitUntil (Nat.le_add_right _ _) _) (if_neg hzero) rfl
      | set | remove => exact absurd rfl he
    | advance milliseconds =>
      exact hcomes (c.comes_waitUntil (Nat.le_add_right _ _) _) rfl rfl
    | request r =>
      have harrived : c.Comes (c.looked c.waiting _).waiting (c.hub.withStore _) :=
        ⟨[.arrive r], rfl, rfl⟩
      have hdeadline := (r.handle_begun hnumbered c.hub.clock c.hub.timeout).deadline
      rcases hhandled : r.handle c.hub.store c.hub.clock c.hub.timeout with ⟨response | p, s⟩ <;>
        rw [hhandled] at harrived hdeadline
      · refine hcomes harrived ?_ rfl
        show (c.hub.request r).2 = _
        rw [Hub.request, hhandled]
      · obtain ⟨c', hhub, hwaits, hback⟩ := harrived.reached
        have hclock : c'.hub.clock ≤ p.deadline := by
          rw [hhub, clock_withStore, hdeadline p rfl]
          exact Nat.le_add_right _ _
        obtain ⟨waiting, hawait⟩ := c'.comes_await hwaits hclock (c.hub.timeout + 2)
        refine hcomes (hback _ _ hawait) ?_ rfl
        show (c.hub.request r).2 = _
        rw [Hub.request, hhandled, hhub]
    | _ => exact absurd rfl he

/-! ## Every watch has an owner -/

/-- The watches of requests that wait. -/
def spare (waiting : List LongPoll) : Multiset WatchId :=
  (waiting.map LongPoll.watch : List WatchId)

theorem spare_of_getElem? {p : LongPoll} {place : Nat} (h : waiting[place]? = some p) :
    spare waiting = {p.watch} + spare (waiting.eraseIdx place) := by
  have hperm := ConditionWatch.perm_front waiting place
  rw [h] at hperm
  exact Multiset.coe_eq_coe.2 (hperm.symm.map LongPoll.watch)

/-- Every watch of the hub has an owner. -/
def Accounted (c : Chronicle) : Prop :=
  c.hub.Accounted ⟨spare c.waiting, c.course.released, fun _ _ => False⟩

theorem Accounted.looked {handled : Handling × Store} {gave : Multiset WatchId} (H : c.Accounted)
    (hspare : spare c.waiting = gave + spare others)
    (ht : Store.Trades c.hub.store handled.2 gave handled.1.owned) :
    (c.looked others handled).Accounted := by
  have hbefore : c.hub.Accounted
      ⟨gave + spare others, c.course.released, fun _ _ => False⟩ := hspare ▸ H
  have hafter := Hub.Accounted.trade_spare
    (b := ⟨0, c.course.released, fun _ _ => False⟩) hbefore (ht.frame (spare others))
  obtain ⟨response | p, s⟩ := handled
  · rw [show (Handling.answered response).owned + spare others = spare others from
      zero_add _] at hafter
    exact hafter
  · exact hafter

/-- A move leaves it so. -/
theorem Accounted.next (H : c.Accounted) (m : Move) : (c.next m).Accounted := by
  cases m with
  | event e =>
    rw [Chronicle.next]
    split
    · next he => exact Hub.Accounted.nextAtOnce H he
    · exact H
  | arrive r =>
    exact H.looked (zero_add _).symm
      (r.handle_begun H.numbered c.hub.clock c.hub.timeout).trades
  | look place =>
    rw [Chronicle.next]
    split
    · next p hp =>
      exact H.looked (spare_of_getElem? hp) (p.poll_trades H.numbered c.hub.clock 2).1
    · exact H

theorem accounted (scheme : String) (timeout : Nat) (moves : List Move) :
    ((start scheme timeout).after moves).Accounted := by
  have hafter : ∀ {c : Chronicle}, c.Accounted → (c.after moves).Accounted := by
    induction moves with
    | nil => exact id
    | cons m moves ih => exact fun H => ih (H.next m)
  exact hafter (.new scheme timeout)

end Chronicle

end Hub

end Switchboard
