import Switchboard.Proofs.Condition.Following
import Switchboard.Proofs.Condition.Offences
/-!
# All feeds are opened or none

The feeds of a condition are opened one after the other, against a store in which other watches are
registered. If all leaves are accepted, exactly one watch is registered for each of them; if one is
refused, wherever it stands, the watches that were registered before it are gone again
(`ConditionWatch.start_gains`). Either way nothing happens to the tree and to the watches of others
(`Store.Gains`). The value at the start is the truth that the condition has in the store then
(`ConditionWatch.value_start`).
-/

namespace Switchboard

namespace Store

variable {s s' s'' : Store} {ids ids' : List WatchId} {urls urls' : List String} {id : WatchId}
  {url : String}

/-- From `s` to `s'` the watches `ids` were registered, one for each text, and nothing has happened
to the tree, nor to the watches that were there, with what is in their mailboxes and with their
bells. -/
structure Gains (s s' : Store) (ids : List WatchId) (urls : List String) : Prop where
  scheme : s'.scheme = s.scheme
  tree : s'.tree = s.tree
  watches : ∃ gained, s'.registry.watches = s.registry.watches ++ gained ∧
    gained.map (fun entry => (entry.1, entry.2.key)) = ids.zip urls
  length : ids.length = urls.length
  bells : ∀ id, id.number ≤ s.registry.issued → s'.registry.bell id = s.registry.bell id
  issued : s.registry.issued ≤ s'.registry.issued
  numbered : s'.registry.Numbered

namespace Gains

theorem refl (h : s.registry.Numbered) : s.Gains s [] [] :=
  ⟨rfl, rfl, ⟨[], (List.append_nil _).symm, rfl⟩, rfl, fun _ _ => rfl, Nat.le_refl _, h⟩

theorem trans (h : s.Gains s' ids urls) (h' : s'.Gains s'' ids' urls') :
    s.Gains s'' (ids ++ ids') (urls ++ urls') := by
  obtain ⟨gained, hwatches, hgained⟩ := h.watches
  obtain ⟨gained', hwatches', hgained'⟩ := h'.watches
  refine ⟨h'.scheme.trans h.scheme, h'.tree.trans h.tree, ⟨gained ++ gained', ?_, ?_⟩, ?_,
    fun id hid => (h'.bells id (Nat.le_trans hid h.issued)).trans (h.bells id hid),
    Nat.le_trans h.issued h'.issued, h'.numbered⟩
  · rw [hwatches', hwatches, List.append_assoc]
  · rw [List.map_append, hgained, hgained', List.zip_append h.length]
  · rw [List.length_append, List.length_append, h.length, h'.length]

/-- A watch is registered, and its first mail is taken. -/
theorem of_watch (h : s.registry.Numbered) (hwatch : s.watch url = .ok (id, s')) :
    s.Gains (s'.take id).2 [id] [url] := by
  obtain ⟨pattern, -, rfl, rfl⟩ := watch_eq_ok hwatch
  have htake := Registry.take_filled (Registry.find?_register h pattern url s.tree) rfl
  have hold : ∀ entry ∈ s.registry.watches, entry.1 ≠ ⟨s.registry.issued + 1⟩ :=
    fun entry hentry heq => Registry.not_mem_of_issued h.issued (heq ▸ List.mem_map_of_mem hentry)
  have hemptied : (s.registry.register pattern url s.tree).2.emptied ⟨s.registry.issued + 1⟩ =
      s.registry.watches ++ [(⟨s.registry.issued + 1⟩,
        { Watch.first pattern url s.tree with pending := none })] := by
    refine List.map_append.trans (congr (congrArg _ ?_) ?_)
    · refine (List.map_congr_left fun entry hentry => ?_).trans (List.map_id _)
      dsimp only
      rw [if_neg (hold entry hentry)]
      rfl
    · rw [List.map_singleton]
      dsimp only
      rw [if_pos rfl]
  have htaken := Registry.take_handed (s.registry.register pattern url s.tree).2
    ⟨s.registry.issued + 1⟩
  refine ⟨rfl, rfl, ⟨_, (congrArg (·.2.watches) htake).trans hemptied, rfl⟩, rfl, fun i hi => ?_,
    Nat.le_trans (Nat.le_succ _) (Nat.le_of_eq htaken.issued.symm), h.register.kept htaken.kept⟩
  have hne : i ≠ ⟨s.registry.issued + 1⟩ := by
    rintro rfl
    exact absurd hi (Nat.not_succ_le_self _)
  exact ((Registry.register_spares hne pattern url s.tree).trans
    (Registry.take_spares _ hne)).bell

/-- A watch that was registered is dropped again: it is as if it had never been there, except that
its number was given out. -/
theorem undone (h : s.registry.Numbered) (hgains : s.Gains s' [id] [url])
    (hid : s.registry.issued < id.number) : s.Gains (s'.drop id) [] [] := by
  obtain ⟨gained, hwatches, hgained⟩ := hgains.watches
  obtain ⟨⟨i, w⟩, rfl, heq⟩ := List.map_eq_singleton_iff.1 hgained
  obtain ⟨rfl, -⟩ := Prod.mk.inj heq
  have hfind : s'.registry.find? i = some w :=
    hgains.numbered.find?_of_mem (by rw [hwatches]; simp)
  have hfilter : (s'.registry.drop i).watches = s.registry.watches := by
    rw [Registry.drop, Registry.release, hfind]
    show s'.registry.watches.filter (fun entry => entry.1 ≠ i) = s.registry.watches
    rw [hwatches, List.filter_append, List.filter_cons_of_neg (by simp), List.filter_nil,
      List.append_nil, List.filter_eq_self]
    intro entry hentry
    have hne : entry.1 ≠ i := by
      rintro rfl
      exact absurd (h.issued _ (List.mem_map_of_mem hentry)) (Nat.not_le_of_lt hid)
    simpa using hne
  have hkept := Registry.drop_kept s'.registry i
  refine ⟨hgains.scheme, hgains.tree, ⟨[], hfilter.trans (List.append_nil _).symm, rfl⟩, rfl,
    fun j hj => ?_, Nat.le_trans hgains.issued (Nat.le_of_eq hkept.issued.symm),
    hgains.numbered.kept hkept⟩
  have hne : j ≠ i := by
    rintro rfl
    exact absurd hj (Nat.not_le_of_lt hid)
  exact (Registry.drop_spares s'.registry hne).bell.trans (hgains.bells j hj)

end Gains

end Store

namespace ConditionWatch

variable {s : Store}

/-- The feeds of all leaves are opened, or none is left. -/
theorem openFeeds_gains (h : s.registry.Numbered) (leaves : List LeafCondition) :
    (∀ feeds s', openFeeds s leaves = (.ok feeds, s') →
      s.Gains s' (feeds.map Feed.watch) (leaves.map LeafCondition.url)) ∧
    ∀ e s', openFeeds s leaves = (.error e, s') → s.Gains s' [] [] := by
  induction leaves generalizing s with
  | nil =>
    refine ⟨fun feeds s' hopen => ?_, fun e s' hopen => ?_⟩ <;> cases hopen
    exact .refl h
  | cons leaf rest ih =>
    rw [openFeeds]
    cases leaf.test.prepare with
    | error e =>
      refine ⟨fun feeds s' hopen => ?_, fun e s' hopen => ?_⟩ <;> cases hopen
      exact .refl h
    | ok test =>
      cases hwatch : s.watch leaf.url with
      | error e =>
        refine ⟨fun feeds s' hopen => ?_, fun e s' hopen => ?_⟩ <;> cases hopen
        exact .refl h
      | ok registered =>
        obtain ⟨id, s₁⟩ := registered
        have hfirst := Store.Gains.of_watch h hwatch
        have hid : s.registry.issued < id.number := by
          obtain ⟨_, -, rfl, -⟩ := Store.watch_eq_ok hwatch
          exact Nat.lt_succ_self _
        obtain ⟨hall, hnone⟩ := ih hfirst.numbered
        dsimp only
        rcases hrest : openFeeds (s₁.take id).2 rest with ⟨e | feeds, s₂⟩
        · refine ⟨fun feeds s' hopen => ?_, fun e s' hopen => ?_⟩ <;> cases hopen
          exact (hfirst.trans (hnone e s₂ hrest)).undone h hid
        · refine ⟨fun feeds s' hopen => ?_, fun e s' hopen => ?_⟩ <;> cases hopen
          exact hfirst.trans (hall feeds s₂ hrest)

/-- **A condition is followed through exactly one watch for each leaf, or nothing has happened.** -/
theorem start_gains (h : s.registry.Numbered) (c : Condition) :
    (∀ w s', start s c = (.ok w, s') → s.Gains s' w.watches (c.leaves.map LeafCondition.url)) ∧
    ∀ e s', start s c = (.error e, s') → s.Gains s' [] [] := by
  obtain ⟨hall, hnone⟩ := openFeeds_gains h c.leaves
  unfold start
  split
  · rcases hopen : openFeeds s c.leaves with ⟨e | feeds, s₁⟩
    · refine ⟨fun w s' hstart => ?_, fun e s' hstart => ?_⟩ <;> cases hstart
      exact hnone e s₁ hopen
    · refine ⟨fun w s' hstart => ?_, fun e s' hstart => ?_⟩ <;> cases hstart
      exact hall feeds s₁ hopen
  · refine ⟨fun w s' hstart => ?_, fun e s' hstart => ?_⟩ <;> cases hstart
    exact .refl h

/-! ## The value at the start -/

/-- Other watches do not matter for the truth of a leaf. -/
theorem holdsOn_congr {s' : Store} (hscheme : s'.scheme = s.scheme) (htree : s'.tree = s.tree) :
    LeafCondition.holdsOn s' = LeafCondition.holdsOn s := by
  funext leaf
  have hexpand : s'.expand leaf.url = s.expand leaf.url := by
    rw [Store.expand, Store.expand, Store.parse, Store.parse, hscheme, htree]
  rw [LeafCondition.holdsOn, LeafCondition.holdsOn, hexpand]

/-- The feeds that were opened have noted the truths of their leaves. -/
theorem truths_openFeeds (h : s.registry.Numbered) {leaves : List LeafCondition}
    {feeds : List Feed} {s' : Store} (hopen : openFeeds s leaves = (.ok feeds, s')) :
    feeds.map Feed.truth = leaves.map (LeafCondition.holdsOn s) := by
  induction leaves generalizing s feeds with
  | nil =>
    cases hopen
    rfl
  | cons leaf rest ih =>
    obtain ⟨test, id, s₁, others, htest, hwatch, hothers, rfl⟩ := openFeeds_cons hopen
    have hfirst := Store.Gains.of_watch h hwatch
    rw [List.map_cons, List.map_cons, ih hfirst.numbered hothers,
      holdsOn_congr hfirst.scheme hfirst.tree]
    obtain ⟨pattern, hparse, rfl, rfl⟩ := Store.watch_eq_ok hwatch
    have htake := Registry.take_filled (Registry.find?_register h pattern leaf.url s.tree) rfl
    have hfound : (Store.take { s with
        registry := (s.registry.register pattern leaf.url s.tree).2 } ⟨s.registry.issued + 1⟩).1 =
        .ready (s.tree.expand pattern leaf.url) := congrArg Prod.fst htake
    have hexpand : s.expand leaf.url = .ok (s.tree.expand pattern leaf.url) := by
      rw [Store.expand, hparse]
      rfl
    rw [hfound]
    simp only [LeafCondition.holdsOn, htest, hexpand]
    rfl

/-- The feeds of a condition that was accepted have noted the truths of its leaves. -/
theorem truths_start (h : s.registry.Numbered) {c : Condition} {w : ConditionWatch} {s' : Store}
    (hstart : start s c = (.ok w, s')) :
    w.condition = c ∧ w.feeds.map Feed.truth = c.leaves.map (LeafCondition.holdsOn s) := by
  unfold start at hstart
  split at hstart
  · rcases hopen : openFeeds s c.leaves with ⟨e | feeds, s₁⟩ <;> rw [hopen] at hstart <;>
      cases hstart
    exact ⟨rfl, truths_openFeeds h hopen⟩
  · cases hstart

/-- **The value at the start is the truth of the condition.** -/
theorem value_start (h : s.registry.Numbered) {c : Condition} {w : ConditionWatch} {s' : Store}
    (hstart : start s c = (.ok w, s')) : w.value = c.holdsOn s := by
  obtain ⟨rfl, htruths⟩ := truths_start h hstart
  rw [value, htruths, Condition.evaluate_leaves, Condition.holdsOn]

end ConditionWatch

end Switchboard
