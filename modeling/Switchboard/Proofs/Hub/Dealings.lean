import Mathlib
import Switchboard.Hub.Calls
import Switchboard.Proofs.Hub.Turns
/-!
# Dealing with a hub

Whatever callers do with a hub that is accounted for, it stays so: they write, hold watches, follow
conditions, and send requests. A watch that stood under a name is given up when the name is used
again, and a watch that was released is owned by its receiver no longer. A request that is waited
for is answered at the latest when its time is over, so that it leaves no watch behind
(`Hub.Accounted.request`).
-/

namespace Switchboard.Hub

open Store (Trades)

/-! ## What is owned under a name -/

section

variable {h : Hub}

theorem ledger_letGo_watch (hnames : (h.watches.map Prod.fst).Nodup) (name : String)
    (released : List WatchId) :
    h.ledger released = (h.watches.lookup name).elim 0 (unreleased released) +
      ledger { h with watches := letGo name h.watches } released := by
  rw [ledger, ledger, total_letGo (unreleased released) hnames name, letGo]
  abel

theorem ledger_hold_watch (h : Hub) (name : String) (id : WatchId) (released : List WatchId) :
    ledger { h with watches := hold name id h.watches } released =
      unreleased released id + ledger { h with watches := letGo name h.watches } released := by
  rw [ledger, ledger, total_hold, letGo]
  abel

theorem ledger_letGo_condition (hnames : (h.conditions.map Prod.fst).Nodup) (name : String)
    (released : List WatchId) :
    h.ledger released =
      (h.conditions.lookup name).elim 0 ConditionWatch.owned +
        ledger { h with conditions := letGo name h.conditions } released := by
  rw [ledger, ledger, total_letGo ConditionWatch.owned hnames name, letGo]
  abel

theorem ledger_hold_condition (h : Hub) (name : String) (w : ConditionWatch)
    (released : List WatchId) :
    ledger { h with conditions := hold name w h.conditions } released =
      w.owned + ledger { h with conditions := letGo name h.conditions } released := by
  rw [ledger, ledger, total_hold, letGo]
  abel

end

namespace Accounted

variable {h h' : Hub} {b : Books} {s : Store} {gave took : Multiset WatchId} {name : String}
  {id : WatchId}

/-- Watches of receivers change hands. -/
theorem trade_watches {watches : List (String × WatchId)} {rest : Multiset WatchId}
    (H : h.Accounted b) (ht : Trades h.store s gave took) (hnames : (watches.map Prod.fst).Nodup)
    (hbefore : h.ledger b.released = gave + rest)
    (hafter : Hub.ledger { h with watches } b.released = took + rest) :
    (withStore { h with watches } s).Accounted b := by
  refine (H.trade b watches h.conditions ht rfl ⟨b.spare + rest, ?_, ?_⟩ (H.released_of_trades ht)
    hnames H.conditionNames H.conditions).rouse
  · rw [hbefore]
    abel
  · rw [hafter]
    abel

/-- Watches of conditions change hands. -/
theorem trade_conditions {conditions : List (String × ConditionWatch)} {rest : Multiset WatchId}
    (H : h.Accounted b) (ht : Trades h.store s gave took)
    (hnames : (conditions.map Prod.fst).Nodup)
    (hfits : ∀ entry ∈ conditions, entry.2.Fits entry.2.condition)
    (hbefore : h.ledger b.released = gave + rest)
    (hafter : Hub.ledger { h with conditions } b.released = took + rest) :
    (withStore { h with conditions } s).Accounted b := by
  refine (H.trade b h.watches conditions ht rfl ⟨b.spare + rest, ?_, ?_⟩ (H.released_of_trades ht)
    H.watchNames hnames hfits).rouse
  · rw [hbefore]
    abel
  · rw [hafter]
    abel

/-- Watches of a request that is handled at once change hands. -/
theorem trade_spare (H : h.Accounted { b with spare := gave }) (ht : Trades h.store s gave took) :
    (h.withStore s).Accounted { b with spare := took } :=
  (H.trade { b with spare := took } h.watches h.conditions ht rfl ⟨_, rfl, rfl⟩
    (H.released_of_trades ht) H.watchNames H.conditionNames H.conditions).rouse

/-- Nothing changes hands. -/
theorem served (H : h.Accounted b) (ht : Trades h.store s 0 0) : (h.withStore s).Accounted b :=
  H.trade_watches ht H.watchNames (zero_add _).symm (zero_add _).symm

/-! ## Watches -/

theorem write (H : h.Accounted b) (w : Write) : (h.write fun s => s.write w).2.Accounted b :=
  H.served (Store.write_trades H.numbered w)

theorem take (H : h.Accounted b) (id : WatchId) : (h.take id).2.Accounted b :=
  H.served (Store.take_trades H.numbered id)

theorem receive (H : h.Accounted b) (id : WatchId) : (h.receive id).2.Accounted b := by
  have hpoll := Store.poll_trades H.numbered id
  unfold Hub.receive
  split <;> next hserved =>
    rw [hserved] at hpoll
    first
    | exact H.served (hpoll.then_same (Store.cancel_trades hpoll.numbered id))
    | exact H.served hpoll

/-- An action is carried out; a delay lets time pass. -/
theorem act (H : h.Accounted b) (action : Action) : (h.act action).2.Accounted b := by
  cases action with
  | delay milliseconds =>
    rw [Hub.act]
    split
    · exact H
    · exact H.waitUntil _ _
  | set url value expected =>
    exact H.served (RuleTask.run_trades H.numbered (.set url value expected))
  | remove url expected => exact H.served (RuleTask.run_trades H.numbered (.remove url expected))

/-- A receiver owns its watch, or the watch is registered no longer. -/
theorem unreleased_cases (H : h.Accounted b) (ht : Trades h.store s gave took) (id : WatchId) :
    unreleased b.released id = {id} ∨ unreleased b.released id = 0 ∧ id ∉ s.watched := by
  unfold unreleased
  split
  · next hreleased => exact .inr ⟨rfl, (H.released_of_trades ht id hreleased).2⟩
  · exact .inl rfl

/-- A receiver that is dropped gives up what it owns. -/
theorem drop_unreleased (H : h.Accounted b) (ht : Trades h.store s gave took) (id : WatchId) :
    Trades s (s.drop id) (unreleased b.released id) 0 :=
  Store.drop_trades ht.numbered (H.unreleased_cases ht id)

/-- A new watch was not released. -/
theorem unreleased_of_took (H : h.Accounted b) (ht : Trades h.store s 0 {id}) :
    unreleased b.released id = {id} :=
  if_neg fun hreleased =>
    (H.released_of_trades ht id hreleased).2 (ht.mem_took (Multiset.mem_singleton_self id))

/-- A watch is registered under a name, and the one before it is dropped. -/
theorem watch (H : h.Accounted b) (name pattern : String) :
    (h.watch name pattern).2.Accounted b := by
  unfold Hub.watch
  cases hwatch : h.store.watch pattern with
  | error e => exact H
  | ok registered =>
    obtain ⟨id, s⟩ := registered
    have hopened : Trades h.store s 0 {id} := Store.watch_trades H.numbered hwatch
    have hreplaced : ∀ s', Trades s s' ((h.watches.lookup name).elim 0 (unreleased b.released)) 0 →
        Accounted b (withStore { h with watches := hold name id h.watches } s') := by
      intro s' hdropped
      refine H.trade_watches (hopened.swap hdropped) (nodup_keys_hold H.watchNames name id)
        (ledger_letGo_watch H.watchNames name b.released) ?_
      rw [ledger_hold_watch, H.unreleased_of_took hopened]
    cases hold : h.watches.lookup name <;> rw [hold] at hreplaced
    · exact hreplaced s (.refl hopened.numbered)
    · exact hreplaced _ (H.drop_unreleased hopened _)

/-- A receiver is dropped. -/
theorem dropWatch (H : h.Accounted b) (hlookup : h.watches.lookup name = some id) :
    (h.dropWatch name id).Accounted b := by
  refine H.trade_watches (H.drop_unreleased (.refl H.numbered) id) (nodup_keys_filter H.watchNames)
    ?_ (zero_add _).symm
  rw [ledger_letGo_watch H.watchNames name, hlookup, Option.elim_some]

/-- To release a watch matters only to receivers that own it. -/
theorem total_unreleased_cons {m : List (String × WatchId)} {released : List WatchId}
    (h : id ∈ released ∨ id ∉ total (unreleased released) m) :
    total (unreleased (id :: released)) m = total (unreleased released) m := by
  refine congrArg List.sum (List.map_congr_left fun entry hentry => ?_)
  by_cases hreleased : id ∈ released
  · have hsame : entry.2 ∈ id :: released ↔ entry.2 ∈ released :=
      ⟨fun hmem => (List.mem_cons.1 hmem).elim (fun heq => heq ▸ hreleased) fun hmem => hmem,
        List.mem_cons_of_mem id⟩
    simp only [unreleased, hsame]
  · have hne : entry.2 ≠ id := by
      rintro rfl
      refine h.resolve_left hreleased (mem_total (unreleased released) hentry ?_)
      rw [unreleased, if_neg hreleased]
      exact Multiset.mem_singleton_self _
    simp only [unreleased, List.mem_cons, hne, false_or]

/-- A watch is released; its receiver is still held. -/
theorem release (H : h.Accounted b) (hlookup : h.watches.lookup name = some id) :
    (h.release id).Accounted { b with released := id :: b.released } := by
  have ht := Store.release_trades H.numbered (H.unreleased_cases (.refl H.numbered) id)
  have hbefore : b.spare + h.ledger b.released = unreleased b.released id +
      (b.spare + Hub.ledger { h with watches := letGo name h.watches } b.released) := by
    rw [ledger_letGo_watch H.watchNames name, hlookup, Option.elim_some]
    abel
  have hwatched := H.ledger.trans hbefore
  have howns : id ∉ b.released → id ∈ unreleased b.released id := fun hnot => by
    rw [unreleased, if_neg hnot]
    exact Multiset.mem_singleton_self id
  have hrest : id ∈ b.released ∨
      id ∉ total (unreleased b.released) (letGo name h.watches) := by
    refine Classical.or_iff_not_imp_left.2 fun hnot hmem => ?_
    have hnodup := Store.nodup_watched H.numbered
    rw [hwatched] at hnodup
    refine Multiset.disjoint_left.1 (Multiset.nodup_add.1 hnodup).2.2 (howns hnot) ?_
    simp only [Hub.ledger, Multiset.mem_add]
    exact .inr (.inl (.inl hmem))
  refine (H.trade { b with released := id :: b.released } h.watches h.conditions ht rfl
    ⟨_, hbefore, ?_⟩ ?_ H.watchNames H.conditionNames H.conditions).rouse
  · rw [ledger_letGo_watch H.watchNames name, hlookup, Option.elim_some, unreleased,
      if_pos List.mem_cons_self, Hub.ledger, Hub.ledger, total_unreleased_cons hrest]
    abel
  · intro i hi
    by_cases hreleased : i ∈ b.released
    · exact H.released_of_trades ht i hreleased
    · obtain rfl := (List.mem_cons.1 hi).resolve_right hreleased
      refine ⟨(Store.issued_of_mem_watched H.numbered ?_).trans ht.issued,
        ht.ended H.numbered hwatched (howns hreleased)⟩
      rw [hwatched]
      exact Multiset.mem_add.2 (.inl (howns hreleased))

/-! ## Conditions -/

theorem fits_hold {conditions : List (String × ConditionWatch)} {w : ConditionWatch}
    (h : ∀ entry ∈ conditions, entry.2.Fits entry.2.condition) (hw : w.Fits w.condition) :
    ∀ entry ∈ hold name w conditions, entry.2.Fits entry.2.condition := fun entry hentry => by
  rcases List.mem_append.1 hentry with hkept | hnew
  · exact h entry (List.mem_of_mem_filter hkept)
  · cases List.mem_singleton.1 hnew
    exact hw

/-- A condition is followed under a name, and the one before it is followed no longer. -/
theorem follow (H : h.Accounted b) (name : String) (c : Condition) :
    (h.follow name c).2.Accounted b := by
  have hstart := ConditionWatch.start_trades H.numbered c
  unfold Hub.follow
  rcases hstarted : ConditionWatch.start h.store c with ⟨e | w, s⟩ <;> rw [hstarted] at hstart
  · exact H.served hstart
  · have hfits : w.Fits w.condition := by
      have hc := ConditionWatch.fits_start hstarted
      exact hc.1 ▸ hc
    have hreplaced : ∀ s', Trades s s' ((h.conditions.lookup name).elim 0 ConditionWatch.owned) 0 →
        Accounted b (withStore { h with conditions := hold name w h.conditions } s') :=
      fun s' hclosed => H.trade_conditions (hstart.swap hclosed)
        (nodup_keys_hold H.conditionNames name w) (fits_hold H.conditions hfits)
        (ledger_letGo_condition H.conditionNames name b.released) (ledger_hold_condition h name w _)
    cases hold : h.conditions.lookup name <;> rw [hold] at hreplaced
    · exact hreplaced s (.refl hstart.numbered)
    · exact hreplaced _ (ConditionWatch.close_trades hstart.numbered _)

variable {w : ConditionWatch}

/-- A condition is asked for its next change. -/
theorem changed (H : h.Accounted b) (hlookup : h.conditions.lookup name = some w) :
    (h.changed name w).2.Accounted b := by
  obtain ⟨ht, hsame⟩ := w.next_trades H.numbered
  unfold Hub.changed
  generalize w.next h.store = next at ht hsame
  obtain ⟨change, w', s⟩ := next
  refine H.trade_conditions ht (nodup_keys_hold H.conditionNames name w')
    (fits_hold H.conditions (hsame.fits_self (H.conditions _ (Keyed.mem_of_lookup hlookup))))
    (zero_add _).symm ?_
  rw [ledger_hold_condition, hsame.owned, ledger_letGo_condition H.conditionNames name, hlookup,
    Option.elim_some, zero_add]

/-- A condition is followed no longer. -/
theorem dropCondition (H : h.Accounted b) (hlookup : h.conditions.lookup name = some w) :
    (h.dropCondition name w).Accounted b := by
  refine H.trade_conditions (w.close_trades H.numbered) (nodup_keys_filter H.conditionNames)
    (fun entry hentry => H.conditions entry (List.mem_of_mem_filter hentry)) ?_ (zero_add _).symm
  rw [ledger_letGo_condition H.conditionNames name, hlookup, Option.elim_some]

/-! ## Requests -/

variable {p : LongPoll}

/-- A request that is waited for is answered in time, and its watch ends then. -/
theorem await {tries : Nat} (H : h.Accounted { b with spare := {p.watch} })
    (hclock : h.clock ≤ p.deadline) (htries : p.deadline < h.clock + tries) :
    (h.await p tries).2.Accounted { b with spare := 0 } := by
  induction tries generalizing h with
  | zero => exact absurd hclock (Nat.not_le_of_lt htries)
  | succ tries ih =>
    obtain ⟨hpoll, hsame⟩ := LongPoll.poll_trades H.settle.numbered p h.settle.clock 2
    have hlate : ∀ p', (p.poll h.settle.clock h.settle.store 2).1 = .waiting p' →
        h.settle.clock < p.deadline := fun p' => LongPoll.lt_deadline_of_waiting
    rw [Hub.await]
    generalize p.poll h.settle.clock h.settle.store 2 = polled at hpoll hsame hlate
    have hdone := H.settle.trade_spare hpoll
    have hsettled : h.settle.clock = h.clock := clock_run h patience
    obtain ⟨r | p', s⟩ := polled
    · exact hdone
    · obtain rfl : p' = p := hsame p' rfl
      have hearly : h.clock < p'.deadline := hsettled ▸ hlate p' rfl
      have hclock' : (h.settle.withStore s).clock = h.clock := hsettled
      have hgo : ∀ time, h.clock < time → time ≤ p'.deadline →
          (((h.settle.withStore s).moveTo time).await p' tries).2.Accounted
            { b with spare := 0 } := by
        intro time hlt hle
        refine ih (hdone.moveTo time) hle ?_
        show p'.deadline < time + tries
        omega
      -- The clock moves to the next alarm, if that comes before the deadline.
      cases halarm : (h.settle.withStore s).nextAlarm? with
      | none =>
        simp only [halarm]
        exact hgo p'.deadline hearly (Nat.le_refl _)
      | some time =>
        simp only [halarm]
        have hlt : h.clock < time := hclock' ▸ lt_nextAlarm halarm
        exact hgo _ (lt_min hlt hearly) (Nat.min_le_right _ _)

/-- A request that is handled at once leaves no watch behind. -/
theorem request (H : h.Accounted { b with spare := 0 }) (r : Request) :
    (h.request r).2.Accounted { b with spare := 0 } := by
  obtain ⟨ht, hdeadline⟩ := r.handle_begun H.numbered h.clock h.timeout
  unfold Hub.request
  generalize r.handle h.store h.clock h.timeout = handled at ht hdeadline
  have hbegun := H.trade_spare ht
  obtain ⟨response | p, s⟩ := handled
  · exact hbegun
  · have hp := hdeadline p rfl
    refine hbegun.await ?_ ?_ <;> rw [hp, clock_withStore] <;> omega

/-- A request is started as a task of its own. -/
theorem startRequest (H : h.Accounted b) (name : String) (r : Request) :
    (h.startRequest name r).Accounted b :=
  H.spawn h.rules _ (t := .request (.arrived r)) (add_zero _).symm H.ruleNames
    (List.Subset.refl _) nofun

variable {id : TaskId}

/-- The response to a request is handed out. -/
theorem response {r : Response} (H : h.Accounted b)
    (hresponse : h.response? name id = some (r, h')) : h'.Accounted b := by
  unfold response? at hresponse
  split at hresponse
  · next hlookup =>
    cases hresponse
    have hself := fun t ht => eq_of_mem_of_lookup (w := t) H.taskIds hlookup ht
    refine H.forget (fun t ht => hself t ht ▸ rfl) ?_
    rintro ⟨r, hr, -⟩
    cases hself _ hr
  · cases hresponse

end Accounted

end Switchboard.Hub
