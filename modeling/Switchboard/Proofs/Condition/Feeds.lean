import Mathlib
import Switchboard.Proofs.Condition.Convergence
import Switchboard.Proofs.Condition.Opening
/-!
# Every leaf has its own feed

A leaf of a condition has one number throughout: its feed stands at that number, watches the pattern
of the leaf and has the test of the leaf, and the truth of the feed is what the leaf reads when the
condition is evaluated (`ConditionWatch.leaves_numbered_alike`). So it is whatever is done to the
store, be it by others who end the watches of the feeds or take their mail, and in whatever order
the feeds are served.

What is followed through a run is the mail that the feeds take (`ConditionWatch.mails`). A feed has
the truth of its last mail, or still that of the start if it took none (`Feed.truthAfter`), and one
step of a run tells nothing to a feed that the mail is not for (`ConditionWatch.Heard`).
-/

namespace Switchboard

/-! ## One feed -/

namespace Feed

variable {feed feed' : Feed} {mail mail' : List (WatchId × Matches)}

/-- The truth that the feed has noted after some mail, each piece of which is under the number of
the watch that it is for. -/
def truthAfter (feed : Feed) (mail : List (WatchId × Matches)) : Bool :=
  (mail.filter (·.1 = feed.watch)).getLast?.elim feed.truth fun (_, found) => feed.test.holds found

theorem truthAfter_of_ne (h : ∀ piece ∈ mail, piece.1 ≠ feed.watch) :
    feed.truthAfter mail = feed.truth := by
  rw [truthAfter, List.filter_eq_nil_iff.2 fun piece hpiece => by simpa using h piece hpiece]
  rfl

theorem truthAfter_self (feed : Feed) (found : Matches) :
    feed.truthAfter [(feed.watch, found)] = feed.test.holds found := by
  rw [truthAfter, List.filter_singleton, decide_eq_true rfl]
  rfl

/-- More mail comes to the feed when it has noted the truth of some. -/
theorem truthAfter_append (hwatch : feed'.watch = feed.watch) (htest : feed'.test = feed.test)
    (htruth : feed'.truth = feed.truthAfter mail) :
    feed'.truthAfter mail' = feed.truthAfter (mail ++ mail') := by
  rw [truthAfter, truthAfter, htruth, hwatch, htest, List.filter_append, List.getLast?_append]
  cases (mail'.filter (·.1 = feed.watch)).getLast? <;> rfl

end Feed

namespace ConditionWatch

variable {w w' w'' : ConditionWatch} {s s' : Store} {news : Option Bool} {i : Nat} {feed : Feed}
  {mail mail' : List (WatchId × Matches)} {c : Condition}

/-! ## Serving one feed -/

/-- The feeds have watches of their own, and the queue names feeds. -/
structure Seated (w : ConditionWatch) : Prop where
  watches : w.watches.Nodup
  served : ∀ i ∈ w.queue, i < w.feeds.length

/-- The feed at the front of the queue. -/
def front? (w : ConditionWatch) : Option Feed :=
  w.queue.head?.bind (w.feeds[·]?)

/-- The mail that is taken when a feed is served. -/
def frontMail (w : ConditionWatch) (s : Store) : List (WatchId × Matches) :=
  w.front?.toList.flatMap fun feed => (s.poll feed.watch).1.result?.toList.map (feed.watch, ·)

/-- A report changes nothing but what was reported last. -/
theorem report_keeps (w : ConditionWatch) : w.report.2.condition = w.condition ∧
    w.report.2.feeds = w.feeds ∧ w.report.2.queue = w.queue := by
  unfold report
  split <;> exact ⟨rfl, rfl, rfl⟩

/-- To serve a feed means to note the truth of its mail, if there is some, and nothing else changes
in the feeds but that it may end. -/
theorem serve_front (h : w.Seated) (hserve : w.serve s = some (news, w', s')) :
    ∃ i feed feed', w.feeds[i]? = some feed ∧ w'.condition = w.condition ∧
      w'.feeds = w.feeds.set i feed' ∧ w'.queue ⊆ w.queue ∧
      feed'.watch = feed.watch ∧ feed'.test = feed.test ∧
      feed'.truth = feed.truthAfter (w.frontMail s) ∧
      ∀ piece ∈ w.frontMail s, piece.1 = feed.watch := by
  unfold serve at hserve
  cases hqueue : w.queue with
  | nil =>
    rw [hqueue] at hserve
    cases hserve
  | cons i rest =>
    have hi : i < w.feeds.length := h.served i (hqueue ▸ List.mem_cons_self)
    obtain ⟨feed, hfeed⟩ : ∃ feed, w.feeds[i]? = some feed := ⟨_, List.getElem?_eq_getElem hi⟩
    have hmail : w.frontMail s = (s.poll feed.watch).1.result?.toList.map (feed.watch, ·) := by
      rw [frontMail, front?, hqueue, List.head?_cons, Option.bind_some, hfeed]
      exact List.flatMap_singleton _ _
    have hown : ∀ piece ∈ w.frontMail s, piece.1 = feed.watch := by
      intro piece hpiece
      rw [hmail] at hpiece
      obtain ⟨_, -, rfl⟩ := List.mem_map.1 hpiece
      rfl
    rw [hqueue] at hserve
    simp only [hfeed] at hserve
    rcases hpoll : s.poll feed.watch with ⟨answer, s₁⟩
    rw [hpoll] at hserve hmail
    cases answer with
    | ready found =>
      simp only [Option.some.injEq, Prod.mk.injEq] at hserve
      obtain ⟨-, rfl, -⟩ := hserve
      obtain ⟨hcondition, hfeeds, hqueue'⟩ := report_keeps (w.noting i feed found rest)
      refine ⟨i, feed, _, hfeed, hcondition, hfeeds, ?_, rfl, rfl, ?_, hown⟩
      · exact hqueue' ▸ (List.perm_append_singleton i rest).subset
      · rw [hmail]
        exact (feed.truthAfter_self found).symm
    | empty =>
      cases hserve
      refine ⟨i, feed, feed, hfeed, rfl, ?_, List.subset_cons_self i rest, rfl, rfl, ?_, hown⟩
      · obtain ⟨hlt, hget⟩ := List.getElem?_eq_some_iff.1 hfeed
        rw [← hget, List.set_getElem_self]
      · rw [hmail]
        rfl
    | released =>
      cases hserve
      refine ⟨i, feed, _, hfeed, rfl, rfl, List.subset_cons_self i rest, rfl, rfl, ?_, hown⟩
      rw [hmail]
      rfl

/-! ## Runs -/

/-- The mail that is taken when something happens. -/
def mailAt (w : ConditionWatch) (s : Store) : Happening → List (WatchId × Matches)
  | .ask => if w.reported.isSome then w.frontMail s else []
  | .call _ | .prefer _ => []

/-- The mail that is taken in a run, in its order. -/
def mails (w : ConditionWatch) (s : Store) : List Happening → List (WatchId × Matches)
  | [] => []
  | h :: rest => w.mailAt s h ++ (w.happen s h).2.1.mails (w.happen s h).2.2 rest

/-- The condition was followed on to `w'`, and the feeds have taken the mail on the way. -/
structure Heard (w : ConditionWatch) (mail : List (WatchId × Matches)) (w' : ConditionWatch) :
    Prop where
  condition : w'.condition = w.condition
  length : w'.feeds.length = w.feeds.length
  feeds : ∀ (i : Nat) feed, w.feeds[i]? = some feed → ∃ feed', w'.feeds[i]? = some feed' ∧
    feed'.watch = feed.watch ∧ feed'.test = feed.test ∧ feed'.truth = feed.truthAfter mail
  seated : w'.Seated

namespace Heard

/-- The feeds stay as they are. -/
theorem of_feeds_eq (h : w.Seated) (hcondition : w'.condition = w.condition)
    (hfeeds : w'.feeds = w.feeds) (hserved : ∀ i ∈ w'.queue, i < w.feeds.length) :
    w.Heard [] w' where
  condition := hcondition
  length := by rw [hfeeds]
  feeds := fun i feed hfeed => ⟨feed, by rw [hfeeds, hfeed], rfl, rfl, rfl⟩
  seated := by
    refine ⟨?_, fun i hi => hfeeds ▸ hserved i hi⟩
    rw [watches, hfeeds]
    exact h.watches

theorem refl (h : w.Seated) : w.Heard [] w :=
  of_feeds_eq h rfl rfl h.served

theorem trans (h : w.Heard mail w') (h' : w'.Heard mail' w'') : w.Heard (mail ++ mail') w'' where
  condition := h'.condition.trans h.condition
  length := h'.length.trans h.length
  feeds := fun i feed hfeed => by
    obtain ⟨feed', hfeed', hwatch, htest, htruth⟩ := h.feeds i feed hfeed
    obtain ⟨feed'', hfeed'', hwatch', htest', htruth'⟩ := h'.feeds i feed' hfeed'
    exact ⟨feed'', hfeed'', hwatch'.trans hwatch, htest'.trans htest,
      htruth'.trans (Feed.truthAfter_append hwatch htest htruth)⟩
  seated := h'.seated

end Heard

namespace Seated

theorem serve (h : w.Seated) (hserve : w.serve s = some (news, w', s')) :
    w.Heard (w.frontMail s) w' := by
  obtain ⟨i, feed, feed', hfeed, hcondition, hfeeds, hqueue, hwatch, htest, htruth, hown⟩ :=
    serve_front h hserve
  obtain ⟨hi, -⟩ := List.getElem?_eq_some_iff.1 hfeed
  have hlength : w'.feeds.length = w.feeds.length := by rw [hfeeds, List.length_set]
  refine ⟨hcondition, hlength, fun j other hother => ?_, ?_,
    fun j hj => hlength ▸ h.served j (hqueue hj)⟩
  · rw [hfeeds]
    by_cases hj : i = j
    · subst hj
      cases Option.some.inj (hfeed.symm.trans hother)
      exact ⟨feed', List.getElem?_set_self hi, hwatch, htest, htruth⟩
    · -- The mail is for the feed that was served, and no other has its watch.
      have hne : feed.watch ≠ other.watch := watch_ne_of_nodup h.watches hfeed hother hj
      refine ⟨other, (List.getElem?_set_ne hj).trans hother, rfl, rfl, ?_⟩
      exact (Feed.truthAfter_of_ne fun piece hpiece => hown piece hpiece ▸ hne).symm
  · rw [ConditionWatch.watches, hfeeds, watches_set hfeed hwatch]
    exact h.watches

/-- Something happens, and the feeds take the mail. -/
theorem happen (h : w.Seated) (s : Store) (happening : Happening) :
    w.Heard (w.mailAt s happening) (w.happen s happening).2.1 := by
  cases happening with
  | call c =>
    refine .of_feeds_eq h rfl rfl fun i hi => ?_
    rcases List.mem_append.1 hi with hi | hi
    · exact h.served i hi
    · exact List.mem_range.1 (List.mem_filter.1 hi).1
  | prefer place =>
    exact .of_feeds_eq h rfl rfl fun i hi => h.served i ((perm_front w.queue place).mem_iff.1 hi)
  | ask =>
    show w.Heard (if w.reported.isSome then w.frontMail s else []) (w.ask s).2.1
    unfold ConditionWatch.ask
    cases hreported : w.reported with
    | none => exact .of_feeds_eq h rfl rfl h.served
    | some b =>
      dsimp only
      rw [Option.isSome_some, if_pos rfl]
      cases hserve : w.serve s with
      | none =>
        have hmail : w.frontMail s = [] := by
          rw [frontMail, front?, serve_eq_none hserve]
          rfl
        rw [hmail]
        exact .refl h
      | some served => exact h.serve hserve

/-- In a run the feeds take its mail. -/
theorem after (h : w.Seated) (s : Store) (happenings : List Happening) :
    w.Heard (w.mails s happenings) (w.after s happenings).1 := by
  induction happenings generalizing w s with
  | nil => exact .refl h
  | cons happening rest ih =>
    have hfirst := h.happen s happening
    exact hfirst.trans (ih hfirst.seated _)

end Seated

/-! ## The leaves of a condition -/

/-- **A leaf has one number in every traversal.** The leaves are listed in the order of their
places, each leaf once. Given the truth at each place, a leaf holds if it is true, *and* holds if
every part does, *or* if some part does and *not* if no part does. Whatever the truths in a list
are, an evaluation that starts at any number gives whether the condition holds when each leaf has
the truth that stands at its number, counted from there, and ends behind the last leaf.

If the condition was accepted, in any state of a run, and whatever happens then, the feed at the
number of a leaf has the test of that leaf and a watch that was registered for its pattern and for
no other leaf; it has the truth of the last mail for this watch by this test, or that of the leaf at
the start if no mail was taken; and the value is whether the condition holds when each leaf has the
truth of the feed at its number. -/
theorem leaves_numbered_alike (scheme : String) (calls : List Call) (c : Condition) :
    (c.leafPlaces.Pairwise (· < ·) ∧
      c.leafPlaces.map (c.part? ·) = c.leaves.map (some <| .leaf ·) ∧
      ∀ place leaf, c.part? place = some (.leaf leaf) → place ∈ c.leafPlaces) ∧
    (∀ truth,
      (∀ leaf, (Condition.leaf leaf).holdsAt truth = truth []) ∧
      ∀ parts : List Condition,
        let holds (i : Nat) (part : Condition) := part.holdsAt fun place => truth (i :: place)
        ((Condition.combine .all parts).holdsAt truth = true ↔
          ∀ (i : Nat) part, parts[i]? = some part → holds i part = true) ∧
        ((Condition.combine .any parts).holdsAt truth = true ↔
          ∃ (i : Nat) (part : Condition), parts[i]? = some part ∧ holds i part = true) ∧
        ((Condition.combine .no parts).holdsAt truth = true ↔
          ¬ ∃ (i : Nat) (part : Condition), parts[i]? = some part ∧ holds i part = true)) ∧
    (∀ results k, c.evaluate results k =
      (c.holdsAt fun place => results.getD (k + c.number place) false, k + c.leaves.length)) ∧
    ∀ w s, start ((Store.new scheme).after calls) c = (.ok w, s) → ∀ happenings,
      let w' := (w.after s happenings).1
      w'.feeds.length = c.leaves.length ∧ w'.watches.Nodup ∧
      w'.value = c.holdsAt (fun place => (w'.feeds[c.number place]?).any Feed.truth) ∧
      ∀ (i : Nat) leaf feed, c.leaves[i]? = some leaf → w'.feeds[i]? = some feed →
        leaf.test.prepare = .ok feed.test ∧
        (∃ watch, s.registry.find? feed.watch = some watch ∧ watch.key = leaf.url) ∧
        feed.truth = ((w.mails s happenings).filter (·.1 = feed.watch)).getLast?.elim
          (leaf.holdsOn ((Store.new scheme).after calls))
          fun (_, found) => feed.test.holds found := by
  refine ⟨⟨c.pairwise_leafPlaces, c.map_part?_leafPlaces, fun place leaf hleaf =>
    Condition.mem_leafPlaces hleaf⟩, fun truth => ⟨fun _ => rfl, fun parts =>
      ⟨Condition.holdsAt_all, Condition.holdsAt_any, Condition.holdsAt_no⟩⟩,
    fun results k => c.evaluate_number results k, ?_⟩
  intro w s hstart happenings w'
  have hs := (Store.InOrder.new scheme).after calls
  obtain ⟨hfollowing, hcondition, -, -⟩ := following_start hs hstart
  obtain ⟨-, htruths⟩ := truths_start hs.numbered hstart
  have hheard : w.Heard (w.mails s happenings) w' :=
    Seated.after ⟨hfollowing.watches, hfollowing.served⟩ s happenings
  have hlength : w.feeds.length = c.leaves.length := hcondition ▸ hfollowing.length
  refine ⟨hheard.length.trans hlength, hheard.seated.watches, ?_,
    fun i leaf feed' hleaf hfeed' => ?_⟩
  · rw [value, hheard.condition, hcondition, Condition.evaluate_number]
    refine congrArg c.holdsAt (funext fun place => ?_)
    rw [Nat.zero_add, List.getD_eq_getElem?_getD, List.getElem?_map]
    cases w'.feeds[c.number place]? <;> rfl
  · obtain ⟨hi, -⟩ := List.getElem?_eq_some_iff.1 hleaf
    have hfeed := List.getElem?_eq_getElem (hlength ▸ hi)
    obtain ⟨_, hheard', hwatch, htest, htruth⟩ := hheard.feeds i _ hfeed
    cases Option.some.inj (hfeed'.symm.trans hheard')
    have hfollows := hfollowing.feeds i leaf _ (hcondition ▸ hleaf) hfeed
    obtain ⟨watch, hattends, hkey⟩ := hfollows.attends
    have hstarted := congrArg (·[i]?) htruths
    simp only [List.getElem?_map, hfeed, hleaf, Option.map_some] at hstarted
    rw [htruth, Feed.truthAfter, hwatch, htest, Option.some.inj hstarted]
    exact ⟨hfollows.test, ⟨watch, hattends.registered, hkey⟩, rfl⟩

/-- The lamp is asked for by two leaves. Somebody ends the watch of the first one before the lamp is
switched on, so that the mail is for the second one only. -/
theorem lamp_asked_for_twice :
    let lamp : Condition := .leaf ⟨"status://lamp", .equals (.bool true)⟩
    let c : Condition := .combine .any
      [.combine .all [lamp, .leaf ⟨"status://away", .present⟩], .combine .no [lamp]]
    let w : ConditionWatch := ⟨c, [⟨⟨1⟩, .equals (.bool true), false, false⟩,
      ⟨⟨2⟩, .present, false, false⟩, ⟨⟨3⟩, .equals (.bool true), false, false⟩], [0, 1, 2], none⟩
    let s := (start ((Store.new "status").after []) c).2
    let happenings := [.ask, .call (.release ⟨1⟩),
      .call (.write (.set "status://lamp" (.bool true) .unchecked)), .ask, .ask, .ask]
    let w' := (w.after s happenings).1
    start ((Store.new "status").after []) c = (.ok w, s) ∧
      c.evaluate [false, true, true, false] 1 = (true, 4) ∧
      (w.mails s happenings).map Prod.fst = [⟨3⟩] ∧ w'.feeds.map Feed.truth = [false, false, true] ∧
      w'.value = c.holdsAt fun place => (w'.feeds[c.number place]?).any Feed.truth := by
  intro lamp c w s happenings w'
  have hstart : start ((Store.new "status").after []) c = (.ok w, s) :=
    Store.eq_mk_of_fst_eq (by cbv)
  have hmails : (w.mails s happenings).map Prod.fst = [⟨3⟩] := by
    subst happenings s w c lamp
    cbv
  have htruths : w'.feeds.map Feed.truth = [false, false, true] := by
    subst w' happenings s w c lamp
    cbv
  obtain ⟨-, -, hevaluate, hfollowed⟩ := leaves_numbered_alike "status" [] c
  refine ⟨hstart, ?_, hmails, htruths, (hfollowed w s hstart happenings).2.2.1⟩
  rw [hevaluate]
  subst c lamp
  cbv

end ConditionWatch

end Switchboard
