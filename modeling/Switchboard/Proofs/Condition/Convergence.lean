import Mathlib
import Switchboard.Proofs.Condition.Following
/-!
# A condition comes to the truth of the store

Whatever is done to the store and in whatever order the feeds of a condition are served, the
condition has the truth of the store whenever no leaf has unread mail, and that is what was reported
last (`ConditionWatch.value_eq_holdsOn`). This is so whenever there is nothing to report: the search
for the next report serves feeds until the queue is empty, and a feed outside the queue has no mail.

A run is a list of happenings (`Happening`), each of which keeps all feeds up
(`Following.happen`). The search ends since every feed that is served has one mail less or leaves
the queue (`ConditionWatch.load`).
-/

namespace Switchboard

/-- What can happen while a condition is followed. -/
inductive Happening where
  /-- Somebody makes a call. -/
  | call (c : Call)
  /-- The feed at a place of the queue gets in front of the others. -/
  | prefer (place : Nat)
  /-- The next report is sought: at first that of the start, later by serving a feed. -/
  | ask

namespace ConditionWatch

variable {w w' w'' : ConditionWatch} {s s' s'' : Store} {news news' : Option Bool} {i : Nat}

/-! ## Runs -/

/-- Seeks the next report, serving one feed at most. -/
def ask (w : ConditionWatch) (s : Store) : Option Bool × ConditionWatch × Store :=
  match w.reported with
  | none => (some w.value, { w with reported := some w.value }, s)
  | some _ => (w.serve s).getD (none, w, s)

/-- What a happening leads to: a report, or nothing, and the condition and the store after it. The
feeds that a call wakes are put back into the queue. -/
def happen (w : ConditionWatch) (s : Store) : Happening → Option Bool × ConditionWatch × Store
  | .call c => (none, w.rouse (s.call c).2, (s.call c).2)
  | .prefer place => (none, w.prefer place, s)
  | .ask => w.ask s

/-- The condition and the store after a run. -/
def after (w : ConditionWatch) (s : Store) : List Happening → ConditionWatch × Store
  | [] => (w, s)
  | h :: rest => (w.happen s h).2.1.after (w.happen s h).2.2 rest

/-- The reports of a run, in their order. -/
def reports (w : ConditionWatch) (s : Store) : List Happening → List Bool
  | [] => []
  | h :: rest => (w.happen s h).1.toList ++ (w.happen s h).2.1.reports (w.happen s h).2.2 rest

namespace Following

/-- The search for a report keeps all feeds up. -/
theorem ask (h : w.Following s) : w.Advanced (w.ask s).1 (w.ask s).2.1 (w.ask s).2.2 := by
  unfold ConditionWatch.ask
  split
  · exact ⟨⟨h.store, h.length, h.feeds, h.watches, h.queue, h.served, h.parked⟩, rfl, rfl, rfl,
      fun _ b hb => (Option.some.inj hb).symm⟩
  · cases hserve : w.serve s with
    | none => exact .refl h
    | some served => exact h.serve hserve

/-- A happening keeps all feeds up, unless somebody else takes part in their watches. -/
theorem happen (h : w.Following s) (happening : Happening)
    (hothers : ∀ c, happening = .call c → ∀ id ∈ w.watches, c.consumer? ≠ some id) :
    w.Advanced (w.happen s happening).1 (w.happen s happening).2.1 (w.happen s happening).2.2 := by
  cases happening with
  | call c => exact ⟨h.call (hothers c rfl), rfl, rfl, rfl, id⟩
  | prefer place => exact ⟨h.prefer place, rfl, rfl, rfl, id⟩
  | ask => exact h.ask

/-- A run keeps all feeds up. -/
theorem after (h : w.Following s) {happenings : List Happening}
    (hothers : ∀ c, .call c ∈ happenings → ∀ id ∈ w.watches, c.consumer? ≠ some id) :
    w.Advanced (w.reports s happenings).getLast? (w.after s happenings).1
      (w.after s happenings).2 := by
  induction happenings generalizing w s with
  | nil => exact .refl h
  | cons happening rest ih =>
    have hfirst := h.happen happening
      fun c hc => hothers c (hc ▸ List.mem_cons_self)
    have hrest := ih hfirst.following fun c hc => by
      rw [hfirst.watches]
      exact hothers c (List.mem_cons_of_mem _ hc)
    have hreports := hfirst.trans hrest
    rw [reports, List.getLast?_append]
    rwa [show (w.happen s happening).1 = (w.happen s happening).1.toList.getLast? by
      cases (w.happen s happening).1 <;> rfl] at hreports

end Following

/-! ## The next report -/

/-- How much there is to serve: the feeds in the queue, and the mail that they have. -/
def load (w : ConditionWatch) (s : Store) : Nat :=
  w.queue.length +
    w.queue.countP fun i => (w.feeds[i]?).any fun feed => (s.unread feed.watch).isSome

namespace Following

/-- No feed is in the queue more than once, and none has more than one mail. -/
theorem load_le (h : w.Following s) : w.load s ≤ 2 * w.feeds.length := by
  have hqueue : w.queue.length ≤ w.feeds.length := by
    have hsubset : w.queue ⊆ List.range w.feeds.length :=
      fun i hi => List.mem_range.2 (h.served i hi)
    simpa using (List.subperm_of_subset h.queue hsubset).length_le
  have hmail := w.queue.countP_le_length (p := fun i =>
    (w.feeds[i]?).any fun feed => (s.unread feed.watch).isSome)
  rw [load]
  omega

/-- Serving a feed leaves less to serve. -/
theorem load_serve (h : w.Following s) (hserve : w.serve s = some (news, w', s')) :
    w'.load s' < w.load s := by
  obtain ⟨i, rest, feed, hqueue, hfeed, hs', hempty, hserved⟩ := h.serve_cases hserve
  have hnodup := h.queue
  rw [hqueue, List.nodup_cons] at hnodup
  -- The mail of the other feeds stays where it is.
  have hothers : ∀ feeds : List Feed, (∀ j, j ≠ i → feeds[j]? = w.feeds[j]?) →
      (rest.countP fun j => (feeds[j]?).any fun feed => (s'.unread feed.watch).isSome) =
        rest.countP fun j => (w.feeds[j]?).any fun feed => (s.unread feed.watch).isSome := by
    intro feeds hfeeds
    refine List.countP_congr fun j hj => ?_
    have hne : j ≠ i := fun heq => hnodup.1 (heq ▸ hj)
    rw [hfeeds j hne]
    cases hfeed' : w.feeds[j]? with
    | none => rfl
    | some feed' =>
      have hspares := Registry.poll_spares s.registry (h.watch_ne hfeed' hfeed hne)
      have hunread : s'.unread feed'.watch = s.unread feed'.watch := by
        rw [hs']
        exact congrArg (·.bind Watch.pending) hspares.find?
      rw [Option.any_some, Option.any_some, hunread]
  rcases hserved with ⟨found, hmail, -, hreport⟩ | ⟨hnone, -, -, rfl⟩
  · have hw' : w'.queue = rest ++ [i] ∧
        w'.feeds = w.feeds.set i { feed with truth := feed.test.holds found } := by
      rcases report_cases hreport with ⟨-, -, rfl⟩ | ⟨-, rfl⟩ <;> exact ⟨rfl, rfl⟩
    obtain ⟨hi, -⟩ := List.getElem?_eq_some_iff.1 hfeed
    have hrest := hothers (w.feeds.set i { feed with truth := feed.test.holds found })
      fun j hj => List.getElem?_set_ne hj.symm
    rw [load, load, hw'.1, hw'.2, hqueue, List.countP_append, hrest]
    simp [List.getElem?_set_self hi, hfeed, hempty, hmail]
  · have hrest := hothers w.feeds fun _ _ => rfl
    rw [load, load, hqueue]
    show rest.length + (rest.countP _) < _
    rw [hrest]
    simp [hfeed, hnone]

/-- With an empty queue, no leaf has unread mail. -/
theorem unread_eq_none (h : w.Following s) (hqueue : w.queue = []) :
    ∀ id ∈ w.watches, s.unread id = none := by
  intro id hid
  obtain ⟨feed, hfeed, rfl⟩ := List.mem_map.1 hid
  obtain ⟨i, hi⟩ := List.mem_iff_getElem?.1 hfeed
  obtain ⟨leaf, -, hfollows⟩ := h.follows hi
  obtain ⟨v, hv, -⟩ := hfollows.attends
  rw [hv.unread_eq]
  exact hv.heeds (h.parked i feed hi (hqueue ▸ List.not_mem_nil))

/-- A search that finds nothing to report has emptied the queue. -/
theorem serveAll (h : w.Following s) {tries : Nat} (hload : w.load s < tries)
    (hwaiting : w.serveAll s tries = (.waiting, w', s')) :
    w.Advanced none w' s' ∧ w'.queue = [] := by
  induction tries generalizing w s with
  | zero => exact absurd hload (Nat.not_lt_zero _)
  | succ tries ih =>
    rw [ConditionWatch.serveAll] at hwaiting
    cases hserve : w.serve s with
    | none =>
      rw [hserve] at hwaiting
      obtain ⟨-, rfl, rfl⟩ := Prod.mk.inj hwaiting |>.imp_right Prod.mk.inj
      exact ⟨.refl h, serve_eq_none hserve⟩
    | some served =>
      obtain ⟨news, w₁, s₁⟩ := served
      rw [hserve] at hwaiting
      cases news with
      | some b => cases (Prod.mk.inj hwaiting).1
      | none =>
        have hfirst := h.serve hserve
        have hless := h.load_serve hserve
        obtain ⟨hrest, hqueue⟩ := ih hfirst.following (by omega) hwaiting
        exact ⟨hfirst.trans hrest, hqueue⟩

/-- The search for the next report, which comes after the first one and finds nothing. -/
theorem next (h : w.Following s) (hwaiting : w.next s = (.waiting, w', s')) :
    w.Advanced none w' s' ∧ w'.queue = [] ∧ w.reported.isSome := by
  unfold ConditionWatch.next at hwaiting
  cases hreported : w.reported with
  | none =>
    rw [hreported] at hwaiting
    cases (Prod.mk.inj hwaiting).1
  | some b =>
    rw [hreported] at hwaiting
    obtain ⟨hadvanced, hqueue⟩ := h.serveAll (Nat.lt_succ_of_le h.load_le) hwaiting
    exact ⟨hadvanced, hqueue, rfl⟩

end Following

/-! ## Convergence -/

/-- **A condition comes to the truth of the store.** A condition was accepted, in any state of a
run; then anybody makes calls, except that the watches of its leaves are left to it, and the feeds
of the leaves are served in any order in between. In every state that this leads to, each leaf has
a test and a query that can be evaluated, and is true if the query finds something and all of it
passes the test. If no leaf has unread mail there, the value is the truth of the condition on the
store, and so is the last report if there was one. If the search for the next report finds nothing
then, no leaf has unread mail, there was a report, and the last one is the truth of the condition
on the store. -/
theorem value_eq_holdsOn (scheme : String) (calls : List Call) (c : Condition) (w : ConditionWatch)
    (s : Store) (happenings : List Happening) :
    start ((Store.new scheme).after calls) c = (.ok w, s) →
    (∀ call, .call call ∈ happenings → ∀ id ∈ w.watches, call.consumer? ≠ some id) →
    let w' := (w.after s happenings).1
    let s' := (w.after s happenings).2
    let reports := w.reports s happenings
    (∀ leaf ∈ c.leaves, ∃ test found, leaf.test.prepare = .ok test ∧
      s'.expand leaf.url = .ok found ∧
      (leaf.holdsOn s' = true ↔
        found ≠ [] ∧ ∀ url entry, (url, entry) ∈ found → test.passes entry.value = true)) ∧
    ((∀ id ∈ w.watches, s'.unread id = none) →
      w'.value = c.holdsOn s' ∧ ∀ b, reports.getLast? = some b → b = c.holdsOn s') ∧
    (∀ w'' s'', w'.next s' = (.waiting, w'', s'') →
      (∀ id ∈ w.watches, s''.unread id = none) ∧ w''.value = c.holdsOn s'' ∧
        reports.getLast? = some (c.holdsOn s'')) := by
  intro hstart hothers w' s' reports
  obtain ⟨hfollowing, hcondition, hreported, -⟩ :=
    following_start ((Store.InOrder.new scheme).after calls) hstart
  have hadvanced := hfollowing.after hothers
  have hnone : w.Reported := fun b hb => by
    rw [hreported] at hb
    cases hb
  have htold : w'.Reported := hadvanced.told hnone
  have hlast : w'.reported = reports.getLast? := by
    rw [hadvanced.reported, hreported, Option.or_none]
  refine ⟨fun leaf hleaf => ?_, fun hempty => ?_, fun w'' s'' hwaiting => ?_⟩
  · obtain ⟨i, hi⟩ := List.mem_iff_getElem?.1 hleaf
    rw [← hcondition, ← hadvanced.condition] at hi
    obtain ⟨hlt, -⟩ := List.getElem?_eq_some_iff.1 hi
    have hfeed := List.getElem?_eq_getElem (hadvanced.following.length.symm ▸ hlt)
    have hfollows := hadvanced.following.feeds i leaf _ hi hfeed
    obtain ⟨found, hexpand, hholds, -⟩ := hfollows.holdsOn_eq hadvanced.following.store
    refine ⟨_, found, hfollows.test, hexpand, ?_⟩
    rw [hholds, PreparedTest.holds]
    simp
  · have hvalue : w'.value = c.holdsOn s' := by
      rw [hadvanced.following.value_eq (hadvanced.watches.symm ▸ hempty), hadvanced.condition,
        hcondition]
    exact ⟨hvalue, fun b hb => (htold b (hlast.trans hb)).trans hvalue⟩
  · obtain ⟨hsearched, hqueue, hsome⟩ := hadvanced.following.next hwaiting
    have hempty := hsearched.following.unread_eq_none hqueue
    have hvalue : w''.value = c.holdsOn s'' := by
      rw [hsearched.following.value_eq hempty, hsearched.condition, hadvanced.condition,
        hcondition]
    obtain ⟨b, hb⟩ := Option.isSome_iff_exists.1 hsome
    have hb' : b = w''.value := hsearched.told htold b (hsearched.reported.trans hb)
    rw [hsearched.watches, hadvanced.watches] at hempty
    refine ⟨hempty, hvalue, ?_⟩
    rw [← hlast, hb, hb', hvalue]

/-- A lamp is to be on while nobody is away: it is switched on, the feed of the other leaf is served
first, and after the search that finds nothing more the last report is the truth. -/
theorem lamp_while_nobody_away :
    let c : Condition := .combine .all [.leaf ⟨"status://lamp", .equals (.bool true)⟩,
      .combine .no [.leaf ⟨"status://away", .present⟩]]
    let w : ConditionWatch := ⟨c, [⟨⟨1⟩, .equals (.bool true), false, false⟩,
      ⟨⟨2⟩, .present, false, false⟩], [0, 1], none⟩
    let s := (start ((Store.new "status").after []) c).2
    let happenings := [.ask, .call (.write (.set "status://lamp" (.bool true) .unchecked)),
      .prefer 1, .ask, .ask, .ask]
    start ((Store.new "status").after []) c = (.ok w, s) ∧ w.reports s happenings = [false, true] ∧
      ∃ w'' s'', (w.after s happenings).1.next (w.after s happenings).2 = (.waiting, w'', s'') ∧
        (∀ id ∈ w.watches, s''.unread id = none) ∧ c.holdsOn s'' = true := by
  intro c w s happenings
  have hstart : start ((Store.new "status").after []) c = (.ok w, s) :=
    Store.eq_mk_of_fst_eq (by cbv)
  have hreports : w.reports s happenings = [false, true] := by
    subst happenings s w c
    cbv
  have hwaiting : ((w.after s happenings).1.next (w.after s happenings).2).1 = .waiting := by
    subst happenings s w c
    cbv
  have hothers : ∀ call, .call call ∈ happenings → ∀ id ∈ w.watches, call.consumer? ≠ some id := by
    intro call hcall
    simp only [happenings, List.mem_cons, reduceCtorEq, false_or, or_false, List.not_mem_nil,
      Happening.call.injEq] at hcall
    subst hcall
    intro id _ hconsumer
    cases hconsumer
  obtain ⟨⟨w'', s''⟩, hsearch⟩ : ∃ after, (w.after s happenings).1.next (w.after s happenings).2 =
      (.waiting, after) := ⟨_, Store.eq_mk_of_fst_eq hwaiting⟩
  obtain ⟨-, -, hnext⟩ := value_eq_holdsOn "status" [] c w s happenings hstart hothers
  obtain ⟨hempty, -, hlast⟩ := hnext w'' s'' hsearch
  rw [hreports] at hlast
  exact ⟨hstart, hreports, w'', s'', hsearch, hempty, (Option.some.inj hlast).symm⟩

end ConditionWatch

end Switchboard
