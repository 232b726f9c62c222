import Mathlib.Data.List.Perm.Basic
import Mathlib.Data.List.Nodup
import Switchboard.Condition.Watch
import Switchboard.Proofs.Condition.Leaves
import Switchboard.Proofs.Store.Attention
/-!
# Keeping up with a condition

While a condition is followed, each of its feeds keeps up with the watch of its leaf
(`ConditionWatch.Following`): the feeds stand in the order of the leaves, a feed that has left the
queue waits at its bell, and the truth that a feed has noted is right as long as its mailbox is
empty. Calls of others keep this when the feeds that they wake are put back into the queue
(`Following.call`), and so does it to serve a feed (`Following.serve`), in whatever order the feeds
stand in the queue (`Following.prefer`). It holds from the start on (`following_start`).

If no mailbox is filled, every leaf has the truth that its query gives now, and therefore so has
the condition (`Following.value_eq`).
-/

namespace Switchboard

variable {s s' : Store} {c : Call} {leaf : LeafCondition} {feed : Feed}

/-! ## One feed -/

namespace Feed

/-- The truth that the feed has noted is that of the result. -/
def Noted (feed : Feed) (found : Matches) : Prop :=
  feed.truth = feed.test.holds found

/-- The feed keeps up with the watch of its leaf. -/
structure Follows (s : Store) (leaf : LeafCondition) (feed : Feed) : Prop where
  test : leaf.test.prepare = .ok feed.test
  attends : ∃ w, s.Attends feed.watch w feed.Noted ∧ w.key = leaf.url
  going : feed.ended = false

namespace Follows

/-- The query of a leaf that is followed can be evaluated, and the leaf is true exactly if its
matches pass the test. -/
theorem holdsOn_eq (h : feed.Follows s leaf) (hs : s.InOrder) :
    ∃ found, s.expand leaf.url = .ok found ∧ leaf.holdsOn s = feed.test.holds found ∧
      (s.unread feed.watch = none → feed.Noted found) := by
  obtain ⟨w, hw, hkey⟩ := h.attends
  have hexpand := hs.expand_key hw.registered
  rw [hkey] at hexpand
  refine ⟨_, hexpand, ?_, fun hempty => hw.told (hw.unread_eq.symm.trans hempty)⟩
  simp only [LeafCondition.holdsOn, h.test, hexpand]

/-- While the mailbox is empty, the feed has the truth of the leaf. -/
theorem truth_eq (h : feed.Follows s leaf) (hs : s.InOrder) (hempty : s.unread feed.watch = none) :
    feed.truth = leaf.holdsOn s := by
  obtain ⟨found, -, hholds, hnoted⟩ := h.holdsOn_eq hs
  exact (hnoted hempty).trans hholds.symm

/-- Calls of others leave a feed keeping up, and do not send it away from its bell. -/
theorem call (h : feed.Follows s leaf) (hs : s.InOrder) (hc : c.consumer? ≠ some feed.watch) :
    feed.Follows (s.call c).2 leaf ∧ ((s.registry.bell feed.watch).waiter ≠ .away →
      ((s.call c).2.registry.bell feed.watch).waiter ≠ .away) := by
  obtain ⟨w, hw, hkey⟩ := h.attends
  obtain ⟨w', hw', hkey', -, hbell⟩ := hw.call hs hc
  exact ⟨⟨h.test, ⟨w', hw', hkey'.trans hkey⟩, h.going⟩, hbell⟩

/-- Nothing happens to a feed in a run of others that does not write. -/
theorem quiet (h : feed.Follows s leaf) (hs : s.InOrder) {calls : List Call}
    (hquiet : Store.Quiet calls feed.watch) :
    feed.Follows (s.after calls) leaf ∧
      (s.after calls).unread feed.watch = s.unread feed.watch := by
  obtain ⟨w, hw, hkey⟩ := h.attends
  obtain ⟨hsame, htree⟩ := Store.undisturbed_after hs hw.registered hquiet
  have hw' := hw.undisturbed hsame (by rw [htree])
  exact ⟨⟨h.test, ⟨w, hw', hkey⟩, h.going⟩, hw'.unread_eq.trans hw.unread_eq.symm⟩

end Follows

end Feed

namespace ConditionWatch

variable {w w' : ConditionWatch} {i j : Nat} {rest : List Nat}

/-! ## All feeds -/

/-- The condition is being followed in the store: all its feeds keep up. -/
structure Following (w : ConditionWatch) (s : Store) : Prop where
  store : s.InOrder
  length : w.feeds.length = w.condition.leaves.length
  feeds : ∀ (i : Nat) leaf (feed : Feed), w.condition.leaves[i]? = some leaf →
    w.feeds[i]? = some feed → feed.Follows s leaf
  /-- No two feeds share a watch. -/
  watches : w.watches.Nodup
  /-- No feed is in the queue twice. -/
  queue : w.queue.Nodup
  served : ∀ i ∈ w.queue, i < w.feeds.length
  /-- A feed that is not in the queue waits at its bell. -/
  parked : ∀ (i : Nat) (feed : Feed), w.feeds[i]? = some feed → i ∉ w.queue →
    (s.registry.bell feed.watch).waiter = .parked

/-- What was reported last, if anything, is the value. -/
def Reported (w : ConditionWatch) : Prop :=
  ∀ b, w.reported = some b → b = w.value

/-- A feed keeps its watch when it notes another truth. -/
theorem watches_set {feed₁ : Feed} (hfeed : w.feeds[i]? = some feed)
    (hwatch : feed₁.watch = feed.watch) : (w.feeds.set i feed₁).map Feed.watch = w.watches := by
  refine List.ext_getElem? fun j => ?_
  rw [watches, List.getElem?_map, List.getElem?_map]
  by_cases hj : i = j
  · subst hj
    obtain ⟨hi, -⟩ := List.getElem?_eq_some_iff.1 hfeed
    rw [List.getElem?_set_self hi, hfeed, Option.map_some, Option.map_some, hwatch]
  · rw [List.getElem?_set_ne hj]

/-- Feeds that share no watch have different ones. -/
theorem watch_ne_of_nodup (h : w.watches.Nodup) {feed' : Feed} (hi : w.feeds[i]? = some feed)
    (hj : w.feeds[j]? = some feed') (hne : i ≠ j) : feed.watch ≠ feed'.watch := by
  intro heq
  have hi' : w.watches[i]? = some feed.watch := by
    rw [watches, List.getElem?_map, hi, Option.map_some]
  have hj' : w.watches[j]? = some feed.watch := by
    rw [watches, List.getElem?_map, hj, Option.map_some, heq]
  obtain ⟨hlt, -⟩ := List.getElem?_eq_some_iff.1 hi'
  exact hne ((List.getElem?_inj hlt h).1 (hi'.trans hj'.symm))

/-- What is put in front of the others is moved only. -/
theorem perm_front {α : Type} (l : List α) (place : Nat) :
    (l[place]?.toList ++ l.eraseIdx place).Perm l := by
  cases hplace : l[place]? with
  | none =>
    rw [List.eraseIdx_of_length_le (List.getElem?_eq_none_iff.1 hplace)]
    exact .refl _
  | some a =>
    obtain ⟨hlt, rfl⟩ := List.getElem?_eq_some_iff.1 hplace
    exact List.getElem_cons_eraseIdx_perm hlt

/-- Puts the feed at a place of the queue in front of the others. -/
def prefer (w : ConditionWatch) (place : Nat) : ConditionWatch :=
  { w with queue := w.queue[place]?.toList ++ w.queue.eraseIdx place }

namespace Following

theorem leaf_of_feed (h : w.Following s) (hfeed : w.feeds[i]? = some feed) :
    ∃ leaf, w.condition.leaves[i]? = some leaf := by
  obtain ⟨hi, -⟩ := List.getElem?_eq_some_iff.1 hfeed
  exact ⟨_, List.getElem?_eq_getElem (h.length ▸ hi)⟩

theorem follows (h : w.Following s) (hfeed : w.feeds[i]? = some feed) :
    ∃ leaf, w.condition.leaves[i]? = some leaf ∧ feed.Follows s leaf := by
  obtain ⟨leaf, hleaf⟩ := h.leaf_of_feed hfeed
  exact ⟨leaf, hleaf, h.feeds i leaf feed hleaf hfeed⟩

theorem watch_ne (h : w.Following s) {feed' : Feed} (hi : w.feeds[i]? = some feed)
    (hj : w.feeds[j]? = some feed') (hne : i ≠ j) : feed.watch ≠ feed'.watch :=
  watch_ne_of_nodup h.watches hi hj hne

/-- **A leaf without unread mail is up to date, and so is the condition.** -/
theorem value_eq (h : w.Following s) (hempty : ∀ id ∈ w.watches, s.unread id = none) :
    w.value = w.condition.holdsOn s := by
  have htruths : w.feeds.map Feed.truth = w.condition.leaves.map (LeafCondition.holdsOn s) := by
    refine List.ext_getElem? fun i => ?_
    rw [List.getElem?_map, List.getElem?_map]
    cases hfeed : w.feeds[i]? with
    | none =>
      have hlength := List.getElem?_eq_none_iff.1 hfeed
      rw [List.getElem?_eq_none_iff.2 (h.length ▸ hlength)]
      rfl
    | some feed =>
      obtain ⟨leaf, hleaf, hfollows⟩ := h.follows hfeed
      have hmem : feed.watch ∈ w.watches := List.mem_map_of_mem (List.mem_of_getElem? hfeed)
      rw [hleaf, Option.map_some, Option.map_some,
        hfollows.truth_eq h.store (hempty feed.watch hmem)]
  rw [value, htruths, Condition.evaluate_leaves, Condition.holdsOn]

/-! ## Calls of others -/

/-- A call of others, after which the feeds that it woke are put back into the queue. -/
theorem call (h : w.Following s) (hc : ∀ id ∈ w.watches, c.consumer? ≠ some id) :
    (w.rouse (s.call c).2).Following (s.call c).2 := by
  have hother : ∀ {i : Nat} {feed : Feed}, w.feeds[i]? = some feed →
      c.consumer? ≠ some feed.watch :=
    fun hfeed => hc _ (List.mem_map_of_mem (List.mem_of_getElem? hfeed))
  have hwoken : ∀ i ∈ w.woken (s.call c).2, i < w.feeds.length ∧ i ∉ w.queue := by
    intro i hi
    simp only [woken, List.mem_filter, List.mem_range, Bool.and_eq_true, Bool.not_eq_true',
      List.contains_eq_mem, decide_eq_false_iff_not] at hi
    exact ⟨hi.1, hi.2.1⟩
  refine ⟨h.store.call c, h.length, fun i leaf feed hleaf hfeed => ?_, h.watches, ?_,
    fun i hi => ?_, fun i feed hfeed hi => ?_⟩
  · exact ((h.feeds i leaf feed hleaf hfeed).call h.store (hother hfeed)).1
  · refine List.nodup_append.2 ⟨h.queue, List.nodup_range.filter _, fun i hi j hj heq => ?_⟩
    exact (hwoken j hj).2 (heq ▸ hi)
  · rcases List.mem_append.1 hi with hi | hi
    · exact h.served i hi
    · exact (hwoken i hi).1
  · -- It has waited before, and if it had been woken it would be in the queue now.
    have hqueue : i ∉ w.queue := fun hmem => hi (List.mem_append_left _ hmem)
    have hasleep : i ∉ w.woken (s.call c).2 := fun hmem => hi (List.mem_append_right _ hmem)
    obtain ⟨leaf, -, hfollows⟩ := h.follows hfeed
    have hthere := (hfollows.call h.store (hother hfeed)).2 (by
      rw [h.parked i feed hfeed hqueue]
      exact nofun)
    obtain ⟨hlt, -⟩ := List.getElem?_eq_some_iff.1 hfeed
    cases hwaiter : ((s.call c).2.registry.bell feed.watch).waiter with
    | parked => rfl
    | away => exact absurd hwaiter hthere
    | woken =>
      refine absurd (List.mem_filter.2 ⟨List.mem_range.2 hlt, ?_⟩) hasleep
      rw [show w.feeds[i]? = some feed from hfeed, Option.any_some, hwaiter, List.contains_eq_mem,
        decide_eq_false hqueue]
      rfl

/-- Nothing is to be put back into the queue. -/
theorem rouse_eq (h : w.Following s) : w.rouse s = w := by
  have hnone : w.woken s = [] := by
    refine List.filter_eq_nil_iff.2 fun i _ hi => ?_
    rw [Bool.and_eq_true, Bool.not_eq_true', List.contains_eq_mem, decide_eq_false_iff_not] at hi
    obtain ⟨hqueue, hwoken⟩ := hi
    cases hfeed : w.feeds[i]? with
    | none =>
      rw [hfeed] at hwoken
      cases hwoken
    | some feed =>
      rw [hfeed, Option.any_some, h.parked i feed hfeed hqueue] at hwoken
      cases hwoken
  rw [rouse, hnone, List.append_nil]

/-! ## Serving the feeds -/

/-- The feeds can be served in any order. -/
theorem prefer (h : w.Following s) (place : Nat) : (w.prefer place).Following s := by
  have hperm : (w.prefer place).queue.Perm w.queue := perm_front w.queue place
  exact {
    store := h.store
    length := h.length
    feeds := h.feeds
    watches := h.watches
    queue := hperm.nodup_iff.2 h.queue
    served := fun i hi => h.served i (hperm.mem_iff.1 hi)
    parked := fun i feed hfeed hi => h.parked i feed hfeed fun hmem => hi (hperm.mem_iff.2 hmem) }

/-- The feed `i` of the queue looks into its mailbox, and then stays in the queue or waits; the
others go on as before. -/
theorem polled (h : w.Following s) (hmem : i ∈ w.queue) (hfeed : w.feeds[i]? = some feed)
    (feed₁ : Feed) (queue₁ : List Nat) (hwatch : feed₁.watch = feed.watch)
    (hfollows : ∀ leaf, w.condition.leaves[i]? = some leaf →
      feed₁.Follows (s.call (.poll feed.watch)).2 leaf)
    (hnodup : queue₁.Nodup) (hsubset : queue₁ ⊆ w.queue)
    (hleft : ∀ j ∈ w.queue, j ∉ queue₁ →
      j = i ∧ ((s.call (.poll feed.watch)).2.registry.bell feed.watch).waiter = .parked) :
    { w with feeds := w.feeds.set i feed₁, queue := queue₁ }.Following
      (s.call (.poll feed.watch)).2 := by
  obtain ⟨hi, -⟩ := List.getElem?_eq_some_iff.1 hfeed
  have hself : (w.feeds.set i feed₁)[i]? = some feed₁ := List.getElem?_set_self hi
  have hother : ∀ {j : Nat}, j ≠ i → (w.feeds.set i feed₁)[j]? = w.feeds[j]? :=
    fun hne => List.getElem?_set_ne hne.symm
  refine ⟨h.store.call _, List.length_set.trans h.length, fun j leaf feed' hleaf hfeed' => ?_,
    ?_, hnodup, fun j hj => ?_, fun j feed' hfeed' hj => ?_⟩
  · by_cases hne : j = i
    · subst hne
      cases Option.some.inj (hself.symm.trans hfeed')
      exact hfollows leaf hleaf
    · have hfeed' := (hother hne).symm.trans hfeed'
      have hc : Call.consumer? (.poll feed.watch) ≠ some feed'.watch :=
        fun heq => h.watch_ne hfeed' hfeed hne (Option.some.inj heq).symm
      exact ((h.feeds j leaf feed' hleaf hfeed').call h.store hc).1
  · show ((w.feeds.set i feed₁).map Feed.watch).Nodup
    rw [watches_set hfeed hwatch]
    exact h.watches
  · show j < (w.feeds.set i feed₁).length
    rw [List.length_set]
    exact h.served j (hsubset hj)
  · by_cases hqueue : j ∈ w.queue
    · obtain ⟨rfl, hparked⟩ := hleft j hqueue hj
      cases Option.some.inj (hself.symm.trans hfeed')
      rw [hwatch]
      exact hparked
    · have hne : j ≠ i := fun heq => hqueue (heq ▸ hmem)
      have hfeed' := (hother hne).symm.trans hfeed'
      have hspares := Registry.poll_spares s.registry (h.watch_ne hfeed' hfeed hne)
      exact (congrArg Bell.waiter hspares.bell).trans (h.parked j feed' hfeed' hqueue)

end Following

/-- The condition after the feed `i` at the front of the queue has taken a mail. -/
def noting (w : ConditionWatch) (i : Nat) (feed : Feed) (found : Matches) (rest : List Nat) :
    ConditionWatch :=
  { w with
    feeds := w.feeds.set i { feed with truth := feed.test.holds found }
    queue := rest ++ [i] }

namespace Following

/-- The feed at the front of the queue takes its mail, notes the truth of it and goes to the end of
the queue. -/
theorem noting {found : Matches} (h : w.Following s) (hqueue : w.queue = i :: rest)
    (hfeed : w.feeds[i]? = some feed) (hmail : s.unread feed.watch = some found) :
    s.poll feed.watch = (.ready found, (s.call (.poll feed.watch)).2) ∧
      (s.call (.poll feed.watch)).2.unread feed.watch = none ∧
      (w.noting i feed found rest).Following (s.call (.poll feed.watch)).2 := by
  obtain ⟨leaf, hleaf, hfollows⟩ := h.follows hfeed
  obtain ⟨v, hv, hkey⟩ := hfollows.attends
  have hpending : v.pending = some found := hv.unread_eq.symm.trans hmail
  have hresult : found = v.result s.tree := (h.store.fresh hv.registered).pending found hpending
  obtain ⟨hpoll, hattends⟩ := hv.poll_filled h.store hpending
  rw [← hresult] at hpoll hattends
  have hperm : (rest ++ [i]).Perm w.queue := hqueue ▸ List.perm_append_singleton i rest
  have hnoted : ∀ present, present = found →
      Feed.Noted { feed with truth := feed.test.holds found } present := by
    rintro present rfl
    rfl
  refine ⟨hpoll, hattends.unread_eq, h.polled (hqueue ▸ List.mem_cons_self) hfeed _ _ rfl
    (fun leaf' hleaf' => ?_) (hperm.nodup_iff.2 h.queue) hperm.subset
    fun j hj hnot => absurd (hperm.mem_iff.2 hj) hnot⟩
  cases Option.some.inj (hleaf.symm.trans hleaf')
  exact ⟨hfollows.test, ⟨_, hattends.imp hnoted, hkey⟩, hfollows.going⟩

/-- The feed at the front of the queue finds no mail and leaves the queue. -/
theorem resting (h : w.Following s) (hqueue : w.queue = i :: rest)
    (hfeed : w.feeds[i]? = some feed) (hnone : s.unread feed.watch = none) :
    s.poll feed.watch = (.empty, (s.call (.poll feed.watch)).2) ∧
      (s.call (.poll feed.watch)).2.unread feed.watch = none ∧
      { w with queue := rest }.Following (s.call (.poll feed.watch)).2 := by
  obtain ⟨leaf, hleaf, hfollows⟩ := h.follows hfeed
  obtain ⟨v, hv, hkey⟩ := hfollows.attends
  have hpending : v.pending = none := hv.unread_eq.symm.trans hnone
  obtain ⟨hpoll, hattends, hparked⟩ := hv.poll_empty h.store hpending
  have hnodup : rest.Nodup := (List.nodup_cons.1 (hqueue ▸ h.queue)).2
  have hpolled := h.polled (hqueue ▸ List.mem_cons_self) hfeed feed rest rfl
    (fun leaf' hleaf' => ?_) hnodup (hqueue ▸ List.subset_cons_self i rest)
    fun j hj hnot => ⟨(List.mem_cons.1 (hqueue ▸ hj)).resolve_right hnot, hparked⟩
  · obtain ⟨hi, hget⟩ := List.getElem?_eq_some_iff.1 hfeed
    rw [← hget, List.set_getElem_self, hget] at hpolled
    exact ⟨hpoll, hattends.unread_eq.trans hpending, hpolled⟩
  · cases Option.some.inj (hleaf.symm.trans hleaf')
    exact ⟨hfollows.test, ⟨v, hattends, hkey⟩, hfollows.going⟩

/-- What it means to serve the feed at the front of the queue: it takes its mail and goes to the end
of the queue, or it finds none and leaves the queue. Its mailbox is empty then. -/
theorem serve_cases {news : Option Bool} (h : w.Following s)
    (hserve : w.serve s = some (news, w', s')) :
    ∃ i rest feed, w.queue = i :: rest ∧ w.feeds[i]? = some feed ∧
      s' = (s.call (.poll feed.watch)).2 ∧ s'.unread feed.watch = none ∧
      ((∃ found, s.unread feed.watch = some found ∧ (w.noting i feed found rest).Following s' ∧
          (w.noting i feed found rest).report = (news, w')) ∨
        (s.unread feed.watch = none ∧ { w with queue := rest }.Following s' ∧ news = none ∧
          w' = { w with queue := rest })) := by
  unfold serve at hserve
  cases hqueue : w.queue with
  | nil =>
    rw [hqueue] at hserve
    cases hserve
  | cons i rest =>
    have hi : i < w.feeds.length := h.served i (hqueue ▸ List.mem_cons_self)
    obtain ⟨feed, hfeed⟩ : ∃ feed, w.feeds[i]? = some feed := ⟨_, List.getElem?_eq_getElem hi⟩
    refine ⟨i, rest, feed, rfl, hfeed, ?_⟩
    rw [hqueue] at hserve
    simp only [hfeed] at hserve
    cases hmail : s.unread feed.watch with
    | some found =>
      obtain ⟨hpoll, hempty, hfollowing⟩ := h.noting hqueue hfeed hmail
      rw [hpoll] at hserve
      simp only [Option.some.injEq, Prod.mk.injEq] at hserve
      obtain ⟨hnews, hw', rfl⟩ := hserve
      exact ⟨rfl, hempty, .inl ⟨found, rfl, hfollowing, Prod.ext hnews hw'⟩⟩
    | none =>
      obtain ⟨hpoll, hempty, hfollowing⟩ := h.resting hqueue hfeed hmail
      rw [hpoll] at hserve
      simp only [Option.some.injEq, Prod.mk.injEq] at hserve
      obtain ⟨rfl, rfl, rfl⟩ := hserve
      exact ⟨rfl, hempty, .inr ⟨rfl, hfollowing, rfl, rfl⟩⟩

end Following

/-- If there is nothing to serve, the queue is empty. -/
theorem serve_eq_none (h : w.serve s = none) : w.queue = [] := by
  unfold serve at h
  split at h
  · assumption
  · split at h
    · cases h
    · split at h <;> cases h

/-- A report is made exactly if the value is another one than was reported last. -/
theorem report_cases {news : Option Bool} (h : w.report = (news, w')) :
    (w.reported = some w.value ∧ news = none ∧ w' = w) ∨
      (news = some w.value ∧ w' = { w with reported := some w.value }) := by
  unfold report at h
  split at h
  · next hreported =>
    obtain ⟨rfl, rfl⟩ := Prod.mk.inj h
    exact .inl ⟨hreported, rfl, rfl⟩
  · obtain ⟨rfl, rfl⟩ := Prod.mk.inj h
    exact .inr ⟨rfl, rfl⟩

/-- The condition was followed on to `w'`, with `news` the last report on the way, if there was
one. -/
structure Advanced (w : ConditionWatch) (news : Option Bool) (w' : ConditionWatch) (s' : Store) :
    Prop where
  following : w'.Following s'
  condition : w'.condition = w.condition
  watches : w'.watches = w.watches
  reported : w'.reported = news.or w.reported
  told : w.Reported → w'.Reported

namespace Advanced

variable {news news' : Option Bool} {w'' : ConditionWatch} {s'' : Store}

theorem refl (h : w.Following s) : w.Advanced none w s :=
  ⟨h, rfl, rfl, rfl, id⟩

theorem trans (h : w.Advanced news w' s') (h' : w'.Advanced news' w'' s'') :
    w.Advanced (news'.or news) w'' s'' where
  following := h'.following
  condition := h'.condition.trans h.condition
  watches := h'.watches.trans h.watches
  reported := by rw [h'.reported, h.reported, Option.or_assoc]
  told := fun htold => h'.told (h.told htold)

end Advanced

/-- Serving a feed keeps all feeds up, and the report, if there is one, is the value. -/
theorem Following.serve {news : Option Bool} (h : w.Following s)
    (hserve : w.serve s = some (news, w', s')) : w.Advanced news w' s' := by
  obtain ⟨i, rest, feed, -, hfeed, -, -, hserved⟩ := h.serve_cases hserve
  rcases hserved with ⟨found, -, hfollowing, hreport⟩ | ⟨-, hfollowing, rfl, rfl⟩
  · have hwatches : (w.noting i feed found rest).watches = w.watches := watches_set hfeed rfl
    rcases report_cases hreport with ⟨hreported, rfl, rfl⟩ | ⟨rfl, rfl⟩
    · exact ⟨hfollowing, rfl, hwatches, rfl, fun _ b hb =>
        Option.some.inj (hb.symm.trans hreported)⟩
    · refine ⟨⟨hfollowing.store, hfollowing.length, hfollowing.feeds, hfollowing.watches,
        hfollowing.queue, hfollowing.served, hfollowing.parked⟩, rfl, hwatches, rfl, ?_⟩
      exact fun _ b hb => (Option.some.inj hb).symm
  · exact ⟨hfollowing, rfl, rfl, rfl, fun htold => htold⟩

/-- A feed that has mail after another one was served has not been served. -/
theorem Following.serve_steady {news : Option Bool} (h : w.Following s)
    (hserve : w.serve s = some (news, w', s')) (hfeed : w'.feeds[j]? = some feed)
    (hmail : s'.unread feed.watch ≠ none) : w.feeds[j]? = some feed := by
  obtain ⟨i, rest, first, -, hfirst, -, hempty, hserved⟩ := h.serve_cases hserve
  rcases hserved with ⟨found, -, -, hreport⟩ | ⟨-, -, -, rfl⟩
  · have hfeeds : w'.feeds = w.feeds.set i { first with truth := first.test.holds found } := by
      rcases report_cases hreport with ⟨-, -, rfl⟩ | ⟨-, rfl⟩ <;> rfl
    rw [hfeeds] at hfeed
    by_cases hj : i = j
    · subst hj
      obtain ⟨hi, -⟩ := List.getElem?_eq_some_iff.1 hfirst
      cases Option.some.inj ((List.getElem?_set_self hi).symm.trans hfeed)
      exact absurd hempty hmail
    · exact (List.getElem?_set_ne hj).symm.trans hfeed
  · exact hfeed

/-! ## The start -/

/-- What it means that the feeds of all leaves were opened. -/
theorem openFeeds_cons {rest : List LeafCondition} {feeds : List Feed}
    (h : openFeeds s (leaf :: rest) = (.ok feeds, s')) :
    ∃ test id s₁ others, leaf.test.prepare = .ok test ∧ s.watch leaf.url = .ok (id, s₁) ∧
      openFeeds (s₁.take id).2 rest = (.ok others, s') ∧
      feeds = ⟨id, test, test.holds ((s₁.take id).1.result?.getD []), false⟩ :: others := by
  rw [openFeeds] at h
  cases htest : leaf.test.prepare with
  | error e =>
    rw [htest] at h
    cases h
  | ok test =>
    cases hwatch : s.watch leaf.url with
    | error e =>
      rw [htest, hwatch] at h
      cases h
    | ok watched =>
      obtain ⟨id, s₁⟩ := watched
      simp only [htest, hwatch] at h
      cases hothers : openFeeds (s₁.take id).2 rest with
      | mk outcome s₂ =>
        rw [hothers] at h
        cases outcome with
        | error e => cases h
        | ok others =>
          obtain ⟨hfeeds, rfl⟩ := Prod.mk.inj h
          refine ⟨test, id, s₁, others, rfl, rfl, hothers, ?_⟩
          rw [← Except.ok.inj hfeeds]
          cases (s₁.take id).1 <;> rfl

/-- The feeds of the leaves were opened, from the store `s` on. -/
structure Opened (s : Store) (leaves : List LeafCondition) (feeds : List Feed) (s' : Store) :
    Prop where
  /-- All that was asked of the store was to watch and to take. -/
  run : ∃ calls, s' = s.after calls ∧ ∀ id, id.number ≤ s.registry.issued → Store.Quiet calls id
  length : feeds.length = leaves.length
  follows : ∀ (i : Nat) leaf (feed : Feed), leaves[i]? = some leaf → feeds[i]? = some feed →
    feed.Follows s' leaf ∧ s'.unread feed.watch = none
  numbers : ∀ feed ∈ feeds, s.registry.issued < feed.watch.number
  nodup : (feeds.map Feed.watch).Nodup

/-- A feed that was opened follows its leaf, and its mailbox is empty. -/
theorem follows_of_watch {test : PreparedTest} {id : WatchId} {s₁ : Store} (hs : s.InOrder)
    (htest : leaf.test.prepare = .ok test) (hwatch : s.watch leaf.url = .ok (id, s₁)) :
    (s₁.take id).2 = s.after [.watch leaf.url, .take id] ∧ id = ⟨s.registry.issued + 1⟩ ∧
      (s₁.take id).2.registry.issued = s.registry.issued + 1 ∧
      Feed.Follows (s₁.take id).2 leaf
        ⟨id, test, test.holds ((s₁.take id).1.result?.getD []), false⟩ ∧
      (s₁.take id).2.unread id = none := by
  obtain ⟨pattern, -, hid, hs₁⟩ := Store.watch_eq_ok hwatch
  obtain ⟨w, hw, hkey, hpending⟩ := Store.watch_attends hs hwatch
  have hcall : s₁ = (s.call (.watch leaf.url)).2 := by simp only [Store.call, hwatch]
  obtain ⟨htake, htaken⟩ := hw.take_filled (hcall ▸ hs.call _) hpending
  have hissued : s₁.registry.issued = s.registry.issued + 1 := hs₁ ▸ rfl
  refine ⟨by rw [hcall]; rfl, hid, (Registry.take_handed s₁.registry id).issued.trans hissued,
    ⟨htest, ⟨_, htaken.imp fun found hfound => ?_, hkey⟩, rfl⟩, htaken.unread_eq⟩
  rw [htake, hfound]
  rfl

/-- The feed of one more leaf is opened before the others. -/
theorem Opened.cons {leaves : List LeafCondition} {feeds : List Feed} {s₂ : Store} (hs : s₂.InOrder)
    (h : Opened s₂ leaves feeds s') (hrun : s₂ = s.after [.watch leaf.url, .take feed.watch])
    (hwatch : feed.watch = ⟨s.registry.issued + 1⟩)
    (hissued : s₂.registry.issued = s.registry.issued + 1)
    (hfollows : feed.Follows s₂ leaf) (hempty : s₂.unread feed.watch = none) :
    Opened s (leaf :: leaves) (feed :: feeds) s' := by
  obtain ⟨calls, hcalls, hquiet⟩ := h.run
  have hself : Store.Quiet calls feed.watch := hquiet feed.watch <| by
    rw [hissued]
    exact Nat.le_of_eq (congrArg WatchId.number hwatch)
  have hkept := hfollows.quiet hs hself
  rw [← hcalls] at hkept
  refine ⟨⟨[.watch leaf.url, .take feed.watch] ++ calls, ?_, fun id hid => ?_⟩,
    congrArg (· + 1) h.length, fun i leaf' feed' hleaf hfeed => ?_, fun feed' hfeed => ?_, ?_⟩
  · rw [hcalls, hrun]
    rfl
  · have hne : feed.watch ≠ id := by
      rintro rfl
      rw [hwatch] at hid
      exact absurd hid (Nat.not_succ_le_self _)
    exact (Store.quiet_open hne).append (hquiet id (hissued ▸ Nat.le_succ_of_le hid))
  · cases i with
    | zero =>
      cases hleaf
      cases hfeed
      exact ⟨hkept.1, hkept.2.trans hempty⟩
    | succ i => exact h.follows i leaf' feed' hleaf hfeed
  · rcases List.mem_cons.1 hfeed with rfl | hfeed
    · rw [hwatch]
      exact Nat.lt_succ_self _
    · have hnumber := h.numbers feed' hfeed
      omega
  · refine List.nodup_cons.2 ⟨fun hmem => ?_, h.nodup⟩
    obtain ⟨feed', hfeed, heq⟩ := List.mem_map.1 hmem
    have hnumber := h.numbers feed' hfeed
    rw [heq, hissued, hwatch] at hnumber
    exact absurd hnumber (Nat.lt_irrefl _)

/-- All feeds are opened one after another. -/
theorem opened (hs : s.InOrder) {leaves : List LeafCondition} {feeds : List Feed}
    (h : openFeeds s leaves = (.ok feeds, s')) : Opened s leaves feeds s' := by
  induction leaves generalizing s feeds with
  | nil =>
    rw [openFeeds] at h
    obtain ⟨hfeeds, rfl⟩ := Prod.mk.inj h
    cases hfeeds
    refine ⟨⟨[], rfl, fun _ _ c hc => absurd hc List.not_mem_nil⟩, rfl,
      fun i leaf feed hleaf => ?_, fun feed hfeed => ?_, .nil⟩
    · rw [List.getElem?_nil] at hleaf
      cases hleaf
    · exact absurd hfeed List.not_mem_nil
  | cons leaf rest ih =>
    obtain ⟨test, id, s₁, others, htest, hwatch, hothers, rfl⟩ := openFeeds_cons h
    obtain ⟨hrun, hid, hissued, hfollows, hempty⟩ := follows_of_watch hs htest hwatch
    have hs₂ : (s₁.take id).2.InOrder := hrun ▸ hs.after _
    exact (ih hs₂ hothers).cons hs₂ hrun hid hissued hfollows hempty

/-- A condition that was accepted is being followed, and none of its leaves has unread mail. -/
theorem following_start {c : Condition} (hs : s.InOrder) (h : start s c = (.ok w, s')) :
    w.Following s' ∧ w.condition = c ∧ w.reported = none ∧
      ∀ id ∈ w.watches, s'.unread id = none := by
  unfold start at h
  split at h
  · cases hopen : openFeeds s c.leaves with
    | mk outcome s₁ =>
      rw [hopen] at h
      cases outcome with
      | error e => cases h
      | ok feeds =>
        obtain ⟨hw, rfl⟩ := Prod.mk.inj h
        cases hw
        have hopened := opened hs hopen
        obtain ⟨calls, hcalls, -⟩ := hopened.run
        refine ⟨⟨hcalls ▸ hs.after calls, hopened.length, fun i leaf feed hleaf hfeed => ?_,
          hopened.nodup, List.nodup_range, fun i => List.mem_range.1, fun i feed hfeed hi => ?_⟩,
          rfl, rfl, fun id hid => ?_⟩
        · exact (hopened.follows i leaf feed hleaf hfeed).1
        · obtain ⟨hlt, -⟩ := List.getElem?_eq_some_iff.1 hfeed
          exact absurd (List.mem_range.2 hlt) hi
        · obtain ⟨feed, hfeed, rfl⟩ := List.mem_map.1 hid
          obtain ⟨i, hi, rfl⟩ := List.mem_iff_getElem.1 hfeed
          exact (hopened.follows i _ _ (List.getElem?_eq_getElem (hopened.length ▸ hi))
            (List.getElem?_eq_getElem hi)).2
  · cases h

end ConditionWatch

end Switchboard
