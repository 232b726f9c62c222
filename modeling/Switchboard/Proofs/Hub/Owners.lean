import Mathlib
import Switchboard.Hub.Basic
import Switchboard.Proofs.Store.Ownership
import Switchboard.Proofs.Rule.Steps
/-!
# Who owns the watches

A condition that is followed owns the watches of its leaves, the task of a rule those of its
condition as long as it lives, and a request that waits one. All of them keep to what is theirs:
each of their steps is a balance between what they own before and after (`Task.step_turned`).
-/

namespace Switchboard

open Store (Trades)

variable {s s' : Store} {clock timeout : Nat}

/-! ## Conditions -/

namespace ConditionWatch

variable {w w' : ConditionWatch} {c : Condition}

/-- The watches of feeds, if they were opened. -/
def ofFeeds : Except AutomationError (List Feed) → Multiset WatchId
  | .ok feeds => (feeds.map Feed.watch : List WatchId)
  | .error _ => 0

/-- Feeds that are opened own their watches. If one of them is refused, nothing is left of those
that were opened before it. -/
theorem openFeeds_trades (h : s.registry.Numbered) (leaves : List LeafCondition) :
    Trades s (openFeeds s leaves).2 0 (ofFeeds (openFeeds s leaves).1) := by
  induction leaves generalizing s with
  | nil => exact .refl h
  | cons leaf rest ih =>
    rw [openFeeds]
    cases leaf.test.prepare with
    | error e => exact .refl h
    | ok test =>
      cases hwatch : s.watch leaf.url with
      | error e => exact .refl h
      | ok registered =>
        obtain ⟨id, s₁⟩ := registered
        have hopened : Trades s s₁ 0 {id} := Store.watch_trades h hwatch
        have htaken := hopened.then_same (Store.take_trades hopened.numbered id)
        have hrest := htaken.add (ih htaken.numbered)
        dsimp only
        generalize openFeeds (s₁.take id).2 rest = outcome at hrest
        obtain ⟨outcome, s₂⟩ := outcome
        cases outcome with
        | error e =>
          rw [ofFeeds, add_zero] at hrest
          exact hrest.trans (Store.drop_trades hrest.numbered (.inl rfl))
        | ok feeds => exact hrest

/-- The watches that belong to a condition that is followed. -/
def owned (w : ConditionWatch) : Multiset WatchId :=
  (w.watches : List WatchId)

/-- The watches of a condition, if it is followed. -/
def ofStart : Except AutomationError ConditionWatch → Multiset WatchId
  | .ok w => w.owned
  | .error _ => 0

/-- A condition that is followed owns the watches of its leaves; one that is refused leaves none. -/
theorem start_trades (h : s.registry.Numbered) (c : Condition) :
    Trades s (start s c).2 0 (ofStart (start s c).1) := by
  unfold start
  split
  · have hopened := openFeeds_trades h c.leaves
    generalize openFeeds s c.leaves = opened at hopened
    obtain ⟨_ | feeds, s₁⟩ := opened <;> exact hopened
  · exact .refl h

/-- From `w` to `w'` the same condition is followed through the same watches. -/
structure SameFeeds (w w' : ConditionWatch) : Prop where
  condition : w'.condition = w.condition
  watches : w'.watches = w.watches

namespace SameFeeds

theorem refl (w : ConditionWatch) : SameFeeds w w := ⟨rfl, rfl⟩

theorem owned (h : SameFeeds w w') : w'.owned = w.owned := by
  rw [ConditionWatch.owned, h.watches, ConditionWatch.owned]

theorem trans {w'' : ConditionWatch} (h : SameFeeds w w') (h' : SameFeeds w' w'') :
    SameFeeds w w'' :=
  ⟨h'.condition.trans h.condition, h'.watches.trans h.watches⟩

end SameFeeds

theorem report_sameFeeds (w : ConditionWatch) : SameFeeds w w.report.2 := by
  unfold report
  split <;> exact ⟨rfl, rfl⟩

/-- To serve a feed changes nothing about who owns which watch. -/
theorem serve_trades {news : Option Bool} (h : s.registry.Numbered)
    (hserve : w.serve s = some (news, w', s')) : Trades s s' 0 0 ∧ SameFeeds w w' := by
  unfold serve at hserve
  split at hserve
  · cases hserve
  · next i rest _ =>
    split at hserve
    · cases hserve
      exact ⟨.refl h, rfl, rfl⟩
    · next feed hfeed =>
      have hpoll := Store.poll_trades h feed.watch
      split at hserve
      · next found s₁ hpolled =>
        cases hserve
        rw [hpolled] at hpoll
        have hnoted : SameFeeds w (w.noting i feed found rest) := ⟨rfl, watches_set hfeed rfl⟩
        exact ⟨hpoll, hnoted.trans (report_sameFeeds _)⟩
      · next s₁ hpolled =>
        cases hserve
        rw [hpolled] at hpoll
        exact ⟨hpoll, rfl, rfl⟩
      · next s₁ hpolled =>
        cases hserve
        rw [hpolled] at hpoll
        exact ⟨hpoll, rfl, watches_set hfeed rfl⟩

theorem serveAll_trades (h : s.registry.Numbered) (tries : Nat) :
    Trades s (w.serveAll s tries).2.2 0 0 ∧ SameFeeds w (w.serveAll s tries).2.1 := by
  induction tries generalizing w s with
  | zero => exact ⟨.refl h, .refl w⟩
  | succ tries ih =>
    rw [serveAll]
    split
    · exact ⟨.refl h, .refl w⟩
    · next hserve => exact serve_trades h hserve
    · next hserve =>
      obtain ⟨hfirst, hsame⟩ := serve_trades h hserve
      obtain ⟨hrest, hsame'⟩ := ih hfirst.numbered
      exact ⟨hfirst.trans hrest, hsame.trans hsame'⟩

theorem next_trades (h : s.registry.Numbered) (w : ConditionWatch) :
    Trades s (w.next s).2.2 0 0 ∧ SameFeeds w (w.next s).2.1 := by
  unfold next
  split
  · exact ⟨.refl h, rfl, rfl⟩
  · exact serveAll_trades h _

/-- A condition that is followed no longer owns nothing. -/
theorem close_trades (h : s.registry.Numbered) (w : ConditionWatch) :
    Trades s (w.close s) w.owned 0 :=
  Store.dropAll_trades h w.watches

/-- The feeds of a condition that is followed are those of its leaves. -/
def Fits (w : ConditionWatch) (c : Condition) : Prop :=
  w.condition = c ∧ w.feeds.length = c.leaves.length

/-- It owns one watch for each leaf. -/
theorem Fits.card_owned (h : w.Fits c) : w.owned.card = c.leaves.length := by
  rw [owned, Multiset.coe_card, watches, List.length_map, h.2]

theorem length_openFeeds {leaves : List LeafCondition} {feeds : List Feed}
    (h : openFeeds s leaves = (.ok feeds, s')) : feeds.length = leaves.length := by
  induction leaves generalizing s feeds with
  | nil =>
    cases h
    rfl
  | cons leaf rest ih =>
    obtain ⟨_, _, _, others, -, -, hothers, rfl⟩ := openFeeds_cons h
    exact congrArg Nat.succ (ih hothers)

theorem fits_start (h : start s c = (.ok w, s')) : w.Fits c := by
  unfold start at h
  split at h
  · rcases hopen : openFeeds s c.leaves with ⟨e | feeds, s₁⟩ <;> rw [hopen] at h <;> cases h
    exact ⟨rfl, length_openFeeds hopen⟩
  · cases h

namespace SameFeeds

theorem fits (h : SameFeeds w w') (hw : w.Fits c) : w'.Fits c := by
  have hlength : w'.feeds.length = w.feeds.length := by
    have hwatches : w'.watches.length = w.watches.length := congrArg List.length h.watches
    rwa [ConditionWatch.watches, ConditionWatch.watches, List.length_map, List.length_map]
      at hwatches
  exact ⟨h.condition.trans hw.1, hlength.trans hw.2⟩

theorem fits_self (h : SameFeeds w w') (hw : w.Fits w.condition) : w'.Fits w'.condition :=
  h.condition ▸ h.fits hw

end SameFeeds

end ConditionWatch

/-! ## Rules -/

namespace RuleTask

variable {t t' : RuleTask} {progress : Progress} {s' : Store}

/-- The watches that belong to the task of a rule, as long as it lives. -/
def owned (t : RuleTask) : Multiset WatchId :=
  if t.isAlive then t.watch.owned else 0

theorem owned_of_alive (h : t.isAlive = true) : t.owned = t.watch.owned :=
  if_pos h

theorem owned_of_ended (h : t.isAlive = false) : t.owned = 0 :=
  if_neg (by simp [h])

/-- The task does nothing until some time has come. -/
def IsSleeping (t : RuleTask) : Prop :=
  ∃ wakeUp remaining, t.phase = .sleeping wakeUp remaining

/-- From `t` to `t'` the task of a rule goes on: it lives, follows the same condition through the
same watches, and keeps in mind what it was told. -/
structure GoesOn (t t' : RuleTask) : Prop where
  alive : t'.isAlive = true
  rule : t'.rule = t.rule
  feeds : ConditionWatch.SameFeeds t.watch t'.watch
  stopping : t'.stopping = t.stopping
  cancelled : t'.cancelled = t.cancelled

/-- What a step does to a task that lives. -/
inductive Turned (t : RuleTask) (s : Store) : Progress × RuleTask × Store → Prop
  /-- It ends, and its watches with it. -/
  | finished : Turned t s (t.finish s)
  /-- It goes on. If it waits then, it was not cancelled, and if it was told to stop it sleeps. -/
  | went {progress : Progress} {t' : RuleTask} {s' : Store} (hgoes : t.GoesOn t')
      (htrades : Trades s s' 0 0)
      (hwaits : progress ≠ .runs → t.cancelled = false ∧ (t.stopping = true → t'.IsSleeping)) :
      Turned t s (progress, t', s')

theorem react_goesOn (t : RuleTask) (armed value : Bool) : t.GoesOn (t.react armed value) := by
  cases value <;> cases armed <;> exact ⟨rfl, rfl, .refl _, rfl, rfl⟩

/-- It does not matter for this whether the task is at work. -/
theorem Turned.working (h : t.Turned s (progress, t', s')) (working : Bool)
    (hends : progress = .ends → working = t'.working) :
    t.Turned s (progress, { t' with working }, s') := by
  cases h with
  | finished =>
    rw [hends rfl]
    exact .finished
  | went hgoes htrades hwaits =>
    obtain ⟨halive, hrule, hfeeds, hstopping, hcancelled⟩ := hgoes
    exact .went ⟨halive, hrule, hfeeds, hstopping, hcancelled⟩ htrades hwaits

/-- A task that was told to stop may look at its condition once more, if there is news. -/
theorem follow_turned {armed : Bool} (h : s.registry.Numbered)
    (hphase : t.phase = .following armed)
    (hcancelled : (t.follow armed s).1 = .waits → t.cancelled = false)
    (hstopping : t.stopping = true → (t.follow armed s).1 = .runs) :
    t.Turned s (t.follow armed s) := by
  have halive : ∀ w, isAlive { t with watch := w } = true := by
    intro w
    rw [isAlive, hphase]
  unfold follow at hcancelled hstopping ⊢
  cases hserve : t.watch.serve s with
  | none =>
    rw [hserve] at hcancelled hstopping
    dsimp only at hcancelled hstopping ⊢
    split
    · exact .finished
    · next hover =>
      rw [if_neg hover] at hcancelled hstopping
      exact .went ⟨halive t.watch, rfl, .refl _, rfl, rfl⟩ (.refl h)
        fun _ => ⟨hcancelled rfl, fun hstop => by cases hstopping hstop⟩
  | some served =>
    obtain ⟨news, w, s₁⟩ := served
    obtain ⟨htrades, hsame⟩ := ConditionWatch.serve_trades h hserve
    cases news with
    | none => exact .went ⟨halive w, rfl, hsame, rfl, rfl⟩ htrades fun hruns => absurd rfl hruns
    | some value =>
      obtain ⟨hreacts, hrule, hfeeds, hstop, hcancel⟩ :=
        react_goesOn { t with watch := w } armed value
      exact .went ⟨hreacts, hrule, hsame.trans hfeeds, hstop, hcancel⟩ htrades
        fun hruns => absurd rfl hruns

theorem run_trades (h : s.registry.Numbered) (action : Action) :
    Trades s (action.run s).2 0 0 := by
  cases action with
  | set url value expected => exact Store.write_trades h (.set url value expected)
  | remove url expected => exact Store.write_trades h (.remove url expected)
  | delay duration => exact .refl h

theorem act_turned (h : s.registry.Numbered) (clock : Nat) (actions : List Action)
    (hcancelled : (t.act clock s actions).1 = .waits → t.cancelled = false) :
    t.Turned s (t.act clock s actions) := by
  unfold act at hcancelled ⊢
  split
  · exact .went ⟨rfl, rfl, .refl _, rfl, rfl⟩ (.refl h) fun hruns => absurd rfl hruns
  · dsimp only at hcancelled
    split
    · exact .went ⟨rfl, rfl, .refl _, rfl, rfl⟩ (.refl h) fun hruns => absurd rfl hruns
    · next htakes =>
      rw [if_neg htakes] at hcancelled
      exact .went ⟨rfl, rfl, .refl _, rfl, rfl⟩ (.refl h)
        fun _ => ⟨hcancelled rfl, fun _ => ⟨_, _, rfl⟩⟩
  · next action rest _ =>
    have hrun := run_trades h action
    rcases hdone : action.run s with ⟨e | n, s₁⟩ <;> rw [hdone] at hrun
    · dsimp only
      split <;> exact .went ⟨rfl, rfl, .refl _, rfl, rfl⟩ hrun fun hruns => absurd rfl hruns
    · exact .went ⟨rfl, rfl, .refl _, rfl, rfl⟩ hrun fun hruns => absurd rfl hruns

theorem advance_turned (h : s.registry.Numbered) (halive : t.isAlive = true) (clock : Nat)
    (hcancelled : (t.advance clock s).1 = .waits → t.cancelled = false) :
    t.Turned s (t.advance clock s) := by
  unfold advance at hcancelled ⊢
  cases hphase : t.phase with
  | ended =>
    rw [isAlive, hphase] at halive
    cases halive
  | starting =>
    exact .went ⟨rfl, rfl, ⟨rfl, rfl⟩, rfl, rfl⟩ (.refl h) fun hruns => absurd rfl hruns
  | following armed =>
    rw [hphase] at hcancelled
    dsimp only at hcancelled ⊢
    split
    · exact .finished
    · next hstopping =>
      rw [if_neg hstopping] at hcancelled
      exact follow_turned h hphase hcancelled fun hstop => absurd hstop hstopping
  | acting remaining =>
    rw [hphase] at hcancelled
    exact act_turned h clock remaining hcancelled
  | sleeping wakeUp remaining =>
    rw [hphase] at hcancelled
    dsimp only at hcancelled ⊢
    split
    · exact .went ⟨rfl, rfl, .refl _, rfl, rfl⟩ (.refl h) fun hruns => absurd rfl hruns
    · next hsleeps =>
      rw [if_neg hsleeps] at hcancelled
      exact .went ⟨halive, rfl, .refl _, rfl, rfl⟩ (.refl h)
        fun _ => ⟨hcancelled rfl, fun _ => ⟨_, _, hphase⟩⟩

/-- Every step of a task that lives is one of these. -/
theorem step_turned (h : s.registry.Numbered) (halive : t.isAlive = true) (clock : Nat) :
    t.Turned s (t.step clock s) := by
  have htaken := step_taken t clock s
  generalize t.step clock s = stepped at htaken
  cases htaken with
  | stays hended =>
    rw [halive] at hended
    cases hended
  | dropped => exact .finished
  | advanced _ _ hadvance hwaits =>
    have hturned := advance_turned h halive clock (by rw [hadvance]; exact hwaits)
    rw [hadvance] at hturned
    refine hturned.working _ ?_
    rintro rfl
    obtain ⟨-, rfl, -⟩ := advance_eq_ends halive hadvance
    rfl

/-- Such a step is a balance. -/
theorem Turned.trades {stepped : Progress × RuleTask × Store} (h : t.Turned s stepped)
    (hs : s.registry.Numbered) (halive : t.isAlive = true) :
    Trades s stepped.2.2 t.owned stepped.2.1.owned := by
  rw [owned_of_alive halive]
  cases h with
  | finished => exact t.watch.close_trades hs
  | went hgoes htrades =>
    have hframe := htrades.frame t.watch.owned
    rw [zero_add] at hframe
    rwa [owned_of_alive hgoes.alive, hgoes.feeds.owned]

end RuleTask

/-! ## Requests -/

/-- A request owns the watch that it waits for. -/
def Handling.owned : Handling → Multiset WatchId
  | .answered _ => 0
  | .waiting p => {p.watch}

/-- What has become of a request that was looked at for the first time: it is answered and has left
no watch, or it waits as long as a request may. -/
structure Handling.Begun (clock timeout : Nat) (s : Store) (handled : Handling × Store) : Prop where
  trades : Trades s handled.2 0 handled.1.owned
  deadline : ∀ p, handled.1 = .waiting p → p.deadline = clock + timeout

/-- A request that is answered at once. -/
theorem Handling.begun_now {r : Response} (h : Trades s s' 0 0) :
    Handling.Begun clock timeout s (.answered r, s') :=
  ⟨h, nofun⟩

namespace LongPoll

variable {p : LongPoll}

theorem finish_trades (h : s.registry.Numbered) (p : LongPoll) (r : Except StoreError Entry) :
    Trades s (p.finish s r).2 {p.watch} 0 :=
  Store.drop_trades h (.inl rfl)

theorem waits_trades (h : Trades s s' 0 0) (p : LongPoll) :
    Trades s s' {p.watch} (Handling.waiting p).owned ∧
      ∀ p', Handling.waiting p = .waiting p' → p' = p := by
  have hframe := h.frame {p.watch}
  rw [zero_add] at hframe
  exact ⟨hframe, fun p' hp => (Handling.waiting.inj hp).symm⟩

/-- A request that looks into its mailbox goes on waiting for the same watch, or it is answered and
the watch has ended. -/
theorem poll_trades (h : s.registry.Numbered) (p : LongPoll) (clock looks : Nat) :
    Trades s (p.poll clock s looks).2 {p.watch} (p.poll clock s looks).1.owned ∧
      ∀ p', (p.poll clock s looks).1 = .waiting p' → p' = p := by
  induction looks generalizing s with
  | zero => exact waits_trades (.refl h) p
  | succ looks ih =>
    have hpoll := Store.poll_trades h p.watch
    rw [poll]
    rcases hserved : s.poll p.watch with ⟨found | _ | _, s₁⟩ <;> rw [hserved] at hpoll
    · dsimp only
      cases p.answer? found with
      | some r => exact ⟨hpoll.of_same (finish_trades hpoll.numbered p r), nofun⟩
      | none =>
        obtain ⟨hrest, hsame⟩ := ih hpoll.numbered
        exact ⟨hpoll.of_same hrest, hsame⟩
    · dsimp only
      split
      · exact ⟨hpoll.of_same (finish_trades hpoll.numbered p _), nofun⟩
      · exact waits_trades hpoll p
    · exact ⟨hpoll.of_same (finish_trades hpoll.numbered p _), nofun⟩

/-- A request that goes on waiting is the same one. -/
theorem eq_of_waiting {p' : LongPoll} {looks : Nat} (h : (p.poll clock s looks).1 = .waiting p') :
    p = p' := by
  induction looks generalizing s with
  | zero => exact Handling.waiting.inj h
  | succ looks ih =>
    rw [poll] at h
    split at h
    · split at h
      · cases h
      · exact ih h
    · cases h
    · split at h
      · cases h
      · exact Handling.waiting.inj h

/-- A mailbox that was just emptied has nothing. -/
theorem not_ready_after_ready {id : WatchId} {found : Matches}
    (h : s.poll id = (.ready found, s')) (found' : Matches) (s'' : Store) :
    s'.poll id ≠ (.ready found', s'') := by
  intro h'
  have hmail : (s.registry.poll id).1 = .ready found := congrArg Prod.fst h
  have hmail' : (s'.registry.poll id).1 = .ready found' := congrArg Prod.fst h'
  have hleft : s'.registry = (s.registry.poll id).2 :=
    (congrArg (fun served : Mail × Store => served.2.registry) h).symm
  -- The first look has emptied the mailbox that the second one would have to find filled.
  rcases (Registry.poll_handed s.registry id).mail with
    ⟨w, filled, hw, -, -, hwatches⟩ | ⟨hnone, -⟩
  · rcases (Registry.poll_handed s'.registry id).mail with
      ⟨w', filled', hw', hpending, -⟩ | ⟨hnone, -⟩
    · rw [hleft, Registry.find?, hwatches, Registry.find?_emptied, hw, Option.map_some,
        if_pos rfl] at hw'
      cases hw'
      cases hpending
    · rw [hmail'] at hnone
      cases hnone
  · rw [hmail] at hnone
    cases hnone

/-- A request waits only as long as its time is not over. -/
theorem lt_deadline_of_waiting {p' : LongPoll} (h : (p.poll clock s 2).1 = .waiting p') :
    clock < p.deadline := by
  have hempty : ∀ s : Store, (∀ found s', s.poll p.watch ≠ (.ready found, s')) →
      ∀ looks, (p.poll clock s (looks + 1)).1 = .waiting p' → clock < p.deadline := by
    intro s hnone looks h
    rw [poll] at h
    rcases hserved : s.poll p.watch with ⟨found | _ | _, s₁⟩ <;> rw [hserved] at h
    · exact absurd hserved (hnone found s₁)
    · dsimp only at h
      split at h
      · cases h
      · next hlate => exact Nat.lt_of_not_le hlate
    · cases h
  rcases hserved : s.poll p.watch with ⟨found | _ | _, s₁⟩
  · rw [poll, hserved] at h
    dsimp only at h
    cases hanswer : p.answer? found with
    | some r =>
      rw [hanswer] at h
      cases h
    | none =>
      rw [hanswer] at h
      exact hempty s₁ (not_ready_after_ready hserved) 0 h
  · exact hempty s (by simp [hserved]) 1 h
  · exact hempty s (by simp [hserved]) 1 h

theorem start_begun (h : s.registry.Numbered) (clock timeout : Nat) (headOnly : Bool)
    (url : String) (since : Option Nat) :
    Handling.Begun clock timeout s (start s clock timeout headOnly url since) := by
  unfold start
  cases s.parseConcrete url with
  | error e => exact Handling.begun_now (.refl h)
  | ok a =>
    cases hwatch : s.watch url with
    | error e => exact Handling.begun_now (.refl h)
    | ok registered =>
      obtain ⟨id, s₁⟩ := registered
      have hopened : Trades s s₁ 0 {id} := Store.watch_trades h hwatch
      obtain ⟨hpolled, hsame⟩ := poll_trades hopened.numbered
        (LongPoll.mk url since id (clock + timeout) headOnly) clock 2
      exact ⟨hopened.trans hpolled, fun p hp => hsame p hp ▸ rfl⟩

end LongPoll

namespace Request

theorem ofWrite_trades {result : Except StoreError Nat × Store} (h : Trades s result.2 0 0) :
    Trades s (ofWrite result).2 0 0 := by
  obtain ⟨outcome, s'⟩ := result
  cases outcome <;> exact h

theorem handleRead_begun (h : s.registry.Numbered) (clock timeout : Nat) (headOnly : Bool)
    (url : String) (revision : Option String) :
    Handling.Begun clock timeout s (handleRead s clock timeout headOnly url revision) := by
  unfold handleRead
  split
  · exact Handling.begun_now (.refl h)
  · exact Handling.begun_now (.refl h)
  · exact Handling.begun_now (.refl h)
  · exact LongPoll.start_begun h clock timeout headOnly url _
  · exact LongPoll.start_begun h clock timeout headOnly url _

theorem handleWrite_trades (h : s.registry.Numbered) (r : Request) (url : String)
    (revision : Option String) : Trades s (r.handleWrite s url revision).2 0 0 := by
  unfold handleWrite
  split
  · split
    · exact .refl h
    · split
      · exact .refl h
      · exact ofWrite_trades (Store.write_trades h (.set url _ _))
  · exact .refl h

theorem handleRemove_trades (h : s.registry.Numbered) (url : String) (revision : Option String) :
    Trades s (handleRemove s url revision).2 0 0 := by
  unfold handleRemove
  split
  · exact .refl h
  · exact ofWrite_trades (Store.write_trades h (.remove url _))

/-- A request that waits owns its watch; one that is answered has left none. -/
theorem handle_begun (h : s.registry.Numbered) (r : Request) (clock timeout : Nat) :
    Handling.Begun clock timeout s (r.handle s clock timeout) := by
  have hrefl : Trades s s 0 0 := .refl h
  unfold handle
  split
  · exact Handling.begun_now hrefl
  · split
    · exact Handling.begun_now hrefl
    · split <;> exact Handling.begun_now hrefl
    · exact Handling.begun_now hrefl
    · unfold handleNode
      split
      iterate 2 exact Handling.begun_now hrefl
      all_goals
        split
        · split
          · exact Handling.begun_now (handleWrite_trades h r _ _)
          · exact Handling.begun_now (handleRemove_trades h _ _)
          · exact handleRead_begun h clock timeout _ _ _
        · exact Handling.begun_now hrefl

end Request

/-- The watch that belongs to the task of a request. -/
def RequestTask.owned : RequestTask → Multiset WatchId
  | .waiting p => {p.watch}
  | .cancelled (some watch) => {watch}
  | .arrived _ | .answered _ | .cancelled none => 0

/-- A step of the task of a request is a balance. Afterwards no watch of it is left to be ended. -/
theorem RequestTask.step_trades (h : s.registry.Numbered) (t : RequestTask)
    (clock timeout : Nat) :
    Trades s (t.step clock timeout s).2.2 t.owned (t.step clock timeout s).2.1.owned ∧
      ∀ watch, (t.step clock timeout s).2.1 ≠ .cancelled (some watch) := by
  cases t with
  | arrived r =>
    have hhandled := (r.handle_begun h clock timeout).trades
    rw [step]
    generalize r.handle s clock timeout = handled at hhandled
    obtain ⟨_ | _, s'⟩ := handled <;> exact ⟨hhandled, nofun⟩
  | waiting p =>
    have hpolled := (p.poll_trades h clock 2).1
    rw [step]
    generalize p.poll clock s 2 = polled at hpolled
    obtain ⟨_ | _, s'⟩ := polled <;> exact ⟨hpolled, nofun⟩
  | answered r => exact ⟨.refl h, nofun⟩
  | cancelled watch =>
    cases watch with
    | none => exact ⟨.refl h, nofun⟩
    | some watch => exact ⟨Store.drop_trades h (.inl rfl), nofun⟩

/-! ## Tasks -/

namespace Task

/-- The watches that belong to a task. -/
def owned : Task → Multiset WatchId
  | rule t => t.owned
  | request t => t.owned

/-- The task has to go on soon: it was cancelled, or it was told to stop and does not sleep. -/
def IsRestless : Task → Prop
  | rule t => t.isAlive = true ∧ (t.cancelled = true ∨ t.stopping = true ∧ ¬ t.IsSleeping)
  | request t => ∃ watch, t = .cancelled (some watch)

/-- What becomes of a task in a step: it goes on, or it owns nothing any more. -/
inductive Becomes : Task → Task → Prop
  | rule {t t' : RuleTask} (goesOn : t'.isAlive = true → t.isAlive = true ∧ t.GoesOn t') :
      Becomes (.rule t) (.rule t')
  | request (t t' : RequestTask) : Becomes (.request t) (.request t')

/-- What a step of a task leads to. -/
structure Turned (t : Task) (s : Store) (stepped : Progress × Task × Store) : Prop where
  trades : Trades s stepped.2.2 t.owned stepped.2.1.owned
  becomes : t.Becomes stepped.2.1
  /-- A task that waits or has ended is not restless. -/
  calm : stepped.1 ≠ .runs → ¬ stepped.2.1.IsRestless

theorem turned_rule {t : RuleTask} {stepped : Progress × RuleTask × Store}
    (h : t.Turned s stepped) (hs : s.registry.Numbered) (halive : t.isAlive = true) :
    (rule t).Turned s (stepped.1, .rule stepped.2.1, stepped.2.2) where
  trades := h.trades hs halive
  becomes := by
    cases h with
    | finished => exact .rule nofun
    | went hgoes => exact .rule fun _ => ⟨halive, hgoes⟩
  calm := fun hwaits => by
    cases h with
    | finished => exact fun hrestless => nomatch hrestless.1
    | went hgoes htrades hrests =>
      obtain ⟨hcancelled, hsleeps⟩ := hrests hwaits
      rintro ⟨-, hcancel | ⟨hstop, hawake⟩⟩
      · rw [hgoes.cancelled, hcancelled] at hcancel
        cases hcancel
      · exact hawake (hsleeps (hgoes.stopping ▸ hstop))

/-- Every step of a task leads to that. -/
theorem step_turned (h : s.registry.Numbered) (t : Task) (clock timeout : Nat) :
    t.Turned s (t.step clock timeout s) := by
  cases t with
  | rule t =>
    by_cases halive : t.isAlive = true
    · exact turned_rule (RuleTask.step_turned h halive clock) h halive
    · have hended := RuleTask.owned_of_ended (Bool.eq_false_iff.2 halive)
      rw [Task.step, RuleTask.step_of_ended (Bool.eq_false_iff.2 halive)]
      refine ⟨?_, .rule fun halive' => absurd halive' halive, fun _ hrestless => halive hrestless.1⟩
      rw [owned, hended]
      exact .refl h
  | request t =>
    obtain ⟨htrades, hleft⟩ := t.step_trades h clock timeout
    refine ⟨htrades, .request t _, ?_⟩
    rintro - ⟨watch, hwatch⟩
    exact hleft watch hwatch

end Task

end Switchboard
