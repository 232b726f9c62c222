import Mathlib
import Switchboard.Proofs.Rule.Steps
/-!
# What a rule fires on

A condition is evaluated after every mail, so a rule may fire although its condition was true in no
state of the store (`RuleAtWork.fires_though_never_true`). Its leaves are read at different times:
the truth of a leaf is that of the last state in which its mailbox was empty
(`ConditionWatch.Tracks`). So whenever a rule fires, its condition is true if each leaf is read in
that state, and if no leaf has unread mail then, it is true in the state of the store at the firing
(`RuleAtWork.fires_on_leaves_that_held`).
-/

namespace Switchboard

/-- The last state of a run in which the mailbox of the watch held nothing unread, or else the first
state of the run. -/
def lastRead (id : WatchId) (first : Store) (later : List Store) : Store :=
  later.foldl (fun last s => if (s.unread id).isNone then s else last) first

section

variable {id : WatchId} {first s : Store} {later : List Store}

theorem lastRead_append (id : WatchId) (first s : Store) (later : List Store) :
    lastRead id first (later ++ [s]) =
      if (s.unread id).isNone then s else lastRead id first later := by
  rw [lastRead, List.foldl_append]
  rfl

/-- In that state nothing is unread, and in all later ones there is mail. -/
theorem lastRead_spec (hfirst : first.unread id = none) (later : List Store) :
    (lastRead id first later).unread id = none ∧ ∃ before after,
      first :: later = before ++ lastRead id first later :: after ∧
      ∀ s ∈ after, s.unread id ≠ none := by
  induction later using List.reverseRecOn with
  | nil => exact ⟨hfirst, [], [], rfl, fun s hs => absurd hs List.not_mem_nil⟩
  | append_singleton later s ih =>
    rw [lastRead_append]
    cases hs : s.unread id with
    | none => exact ⟨hs, first :: later, [], rfl, fun s hs => absurd hs List.not_mem_nil⟩
    | some found =>
      obtain ⟨hread, before, after, hsplit, hafter⟩ := ih
      refine ⟨hread, before, after ++ [s], ?_, fun s' hs' => ?_⟩
      · rw [← List.cons_append, hsplit, List.append_assoc]
        rfl
      · rcases List.mem_append.1 hs' with hs' | hs'
        · exact hafter s' hs'
        · rw [List.mem_singleton.1 hs', hs]
          exact nofun

end

namespace ConditionWatch

/-- Every feed has the truth that its leaf had when its mailbox was empty last. -/
def Tracks (w : ConditionWatch) (first : Store) (later : List Store) : Prop :=
  ∀ (i : Nat) leaf (feed : Feed), w.condition.leaves[i]? = some leaf → w.feeds[i]? = some feed →
    feed.truth = leaf.holdsOn (lastRead feed.watch first later)

variable {w : ConditionWatch} {first : Store} {later : List Store}

/-- The value is whether the condition holds with each leaf read when its mailbox was empty last. -/
theorem Tracks.value_eq {s : Store} (h : w.Tracks first later) (hw : w.Following s) :
    w.value = w.condition.holdsAt fun place =>
      ((w.watches.zip w.condition.leaves)[w.condition.number place]?).any fun (id, leaf) =>
        leaf.holdsOn (lastRead id first later) := by
  rw [value, Condition.evaluate_number]
  refine congrArg w.condition.holdsAt (funext fun place => ?_)
  rw [Nat.zero_add, List.getD_eq_getElem?_getD, List.getElem?_map, List.zip, List.getElem?_zipWith,
    watches, List.getElem?_map]
  cases hfeed : w.feeds[w.condition.number place]? with
  | none => rfl
  | some feed =>
    obtain ⟨leaf, hleaf⟩ := hw.leaf_of_feed hfeed
    rw [hleaf]
    exact h _ leaf feed hleaf hfeed

end ConditionWatch

namespace RuleAtWork

variable {m : RuleAtWork} {first : Store} {later : List Store}

/-- A living task follows the condition `c` through the given watches and keeps track of its
leaves. -/
structure Tracking (c : Condition) (watches : List WatchId) (first : Store) (later : List Store)
    (m : RuleAtWork) : Prop where
  following : m.task.watch.Following m.store
  condition : m.task.watch.condition = c
  watches : m.task.watch.watches = watches
  told : m.task.watch.Reported
  tracks : m.task.watch.Tracks first later

variable {c : Condition} {watches : List WatchId}

/-- What follows the condition on keeps track of the leaves: a leaf whose mailbox is empty has the
present truth, and one with mail has not changed. -/
theorem Tracking.kept {m' : RuleAtWork} (h : m.Tracking c watches first later) (hkept : m.Kept m') :
    m'.Tracking c watches first (later ++ [m'.store]) := by
  obtain ⟨news, hadvanced⟩ := hkept.advanced
  refine ⟨hadvanced.following, hadvanced.condition.trans h.condition,
    hadvanced.watches.trans h.watches, hadvanced.told h.told, fun i leaf feed hleaf hfeed => ?_⟩
  rw [lastRead_append]
  have hfollows := hadvanced.following.feeds i leaf feed hleaf hfeed
  by_cases hmail : m'.store.unread feed.watch = none
  · rw [hmail]
    exact hfollows.truth_eq hadvanced.following.store hmail
  · rw [if_neg (by rwa [Option.isNone_iff_eq_none])]
    rw [hadvanced.condition] at hleaf
    exact h.tracks i leaf feed hleaf (hkept.steady i feed hfeed hmail)

/-- As long as the task lives, a run keeps track of the leaves. -/
theorem Tracking.after {turns : List Turn} (h : m.Tracking c watches first later)
    (hothers : ∀ call, .call call ∈ turns → ∀ id ∈ watches, call.consumer? ≠ some id)
    (halive : (m.after turns).task.isAlive = true) :
    (m.after turns).Tracking c watches first (later ++ m.visited turns) := by
  induction turns generalizing m later with
  | nil =>
    rw [visited, List.append_nil]
    exact h
  | cons t turns ih =>
    have hfirst := h.kept (kept_turn h.following
      (fun call hcall => h.watches ▸ hothers call (hcall ▸ List.mem_cons_self))
      (isAlive_of_after halive))
    have hrest := ih hfirst (fun call hcall => hothers call (List.mem_cons_of_mem t hcall)) halive
    rwa [List.append_assoc] at hrest

/-- A turn in which the rule fires serves a feed with mail, after which the condition is true. -/
theorem Tracking.fired {t : Turn} (h : m.Tracking c watches first later)
    (hfired : m.task.fired < (m.turn t).task.fired) :
    (m.turn t).Tracking c watches first (later ++ [(m.turn t).store]) ∧
      (m.turn t).task.watch.value = true ∧
      ∃ id ∈ watches, m.store.unread id ≠ none ∧ (m.turn t).store.unread id = none := by
  cases t with
  | call | prefer | pass | stop | cancel => exact absurd hfired (Nat.lt_irrefl _)
  | step =>
    have hstepped := RuleTask.step_stepped m.task m.clock m.store
    cases hstepped with
    | ended _ hsame | started _ _ hsame | acted _ _ hsame =>
      exact absurd (hsame ▸ hfired) (Nat.lt_irrefl _)
    | @served news halive hserve hnews =>
      have hnews : news = some true :=
        hnews.resolve_left fun hsame => absurd (hsame ▸ hfired) (Nat.lt_irrefl _)
      subst hnews
      have hserved := h.following.serve hserve
      have htracking := h.kept (kept_turn (t := .step) h.following (fun _ => nofun) halive)
      refine ⟨htracking, (htracking.told true ?_).symm, ?_⟩
      · exact hserved.reported
      · obtain ⟨i, rest, feed, -, hfeed, -, hempty, hmail⟩ := h.following.serve_cases hserve
        rcases hmail with ⟨found, hfound, -⟩ | ⟨-, -, hnone, -⟩
        · refine ⟨feed.watch, ?_, by rw [hfound]; exact nofun, hempty⟩
          rw [← h.watches]
          exact List.mem_map_of_mem (List.mem_of_getElem? hfeed)
        · cases hnone

/-- **A rule fires only on leaves that each really held.** A rule was added in any state of a run;
then anybody makes calls, except that the watches of the rule are left to it, and the task of the
rule makes its steps in between, with the feeds of its condition served in any order. Whenever the
rule fires, its condition holds if each leaf is read in the last state, up to the firing, in which
its mailbox held nothing unread. The mail of some leaf has just been taken, so that this leaf
is read in the state of the firing. If no leaf has unread mail then, the condition is true in the
state of the store at the firing. -/
theorem fires_on_leaves_that_held (scheme : String) (calls : List Call) (rule : Rule)
    (w : ConditionWatch) (s : Store) (clock : Nat) (turns : List Turn) (t : Turn) :
    ConditionWatch.start ((Store.new scheme).after calls) rule.condition = (.ok w, s) →
    (∀ call, .call call ∈ turns → ∀ id ∈ w.watches, call.consumer? ≠ some id) →
    let added : RuleAtWork := ⟨.start rule w, clock, s⟩
    let m := added.after turns
    let now := m.turn t
    let later := added.visited turns ++ [now.store]
    m.task.fired < now.task.fired →
    (∀ id ∈ w.watches, (lastRead id s later).unread id = none ∧ ∃ before after,
      s :: later = before ++ lastRead id s later :: after ∧
        ∀ s' ∈ after, s'.unread id ≠ none) ∧
    (rule.condition.holdsAt fun place =>
      ((w.watches.zip rule.condition.leaves)[rule.condition.number place]?).any fun (id, leaf) =>
        leaf.holdsOn (lastRead id s later)) = true ∧
    (∃ id ∈ w.watches, m.store.unread id ≠ none ∧ now.store.unread id = none) ∧
    ((∀ id ∈ w.watches, now.store.unread id = none) →
      rule.condition.holdsOn now.store = true) := by
  intro hstart hothers added m now later hfired
  obtain ⟨hfollowing, hcondition, hreported, hread⟩ :=
    ConditionWatch.following_start ((Store.InOrder.new scheme).after calls) hstart
  have hadded : added.Tracking rule.condition w.watches s [] := by
    refine ⟨hfollowing, hcondition, rfl, fun b hb => ?_, fun i leaf feed hleaf hfeed => ?_⟩
    · rw [show added.task.watch.reported = none from hreported] at hb
      cases hb
    · have hmem : feed.watch ∈ w.watches := List.mem_map_of_mem (List.mem_of_getElem? hfeed)
      exact (hfollowing.feeds i leaf feed hleaf hfeed).truth_eq hfollowing.store
        (hread feed.watch hmem)
  have htracking : m.Tracking rule.condition w.watches s (added.visited turns) :=
    hadded.after hothers (isAlive_of_fired hfired)
  obtain ⟨hnow, hvalue, hserved⟩ := htracking.fired hfired
  refine ⟨fun id hid => lastRead_spec (hread id hid) later, ?_, hserved, fun hempty => ?_⟩
  · rw [hnow.tracks.value_eq hnow.following, hnow.condition, hnow.watches] at hvalue
    exact hvalue
  · rw [hnow.following.value_eq (hnow.watches.symm ▸ hempty), hnow.condition] at hvalue
    exact hvalue

/-- A rule waits for *a* to be true while there is a *b*, which there is. When *a* becomes true, the
rule fires, and its condition is true in that state. -/
theorem fires_when_both_hold :
    let rule : Rule := ⟨"both", .combine .all [.leaf ⟨"status://a", .equals (.bool true)⟩,
      .leaf ⟨"status://b", .present⟩], []⟩
    let calls := [.write (.set "status://b" (.bool true) .unchecked)]
    let w : ConditionWatch := ⟨rule.condition, [⟨⟨1⟩, .equals (.bool true), false, false⟩,
      ⟨⟨2⟩, .present, true, false⟩], [0, 1], none⟩
    let s := (ConditionWatch.start ((Store.new "status").after calls) rule.condition).2
    let turns : List Turn :=
      [.step, .call (.write (.set "status://a" (.bool true) .unchecked)), .prefer 0]
    let m := (RuleAtWork.mk (.start rule w) 0 s).after turns
    ConditionWatch.start ((Store.new "status").after calls) rule.condition = (.ok w, s) ∧
      m.task.fired < (m.turn .step).task.fired ∧
      rule.condition.holdsOn (m.turn .step).store = true := by
  intro rule calls w s turns m
  have hstart :
      ConditionWatch.start ((Store.new "status").after calls) rule.condition = (.ok w, s) :=
    Store.eq_mk_of_fst_eq (by cbv)
  have hfired : m.task.fired < (m.turn .step).task.fired := by
    subst m turns s w calls rule
    cbv
  have ha : ((m.turn .step).store.unread ⟨1⟩).isNone = true := by
    subst m turns s w calls rule
    cbv
  have hb : ((m.turn .step).store.unread ⟨2⟩).isNone = true := by
    subst m turns s w calls rule
    cbv
  have hempty : ∀ id ∈ w.watches, (m.turn .step).store.unread id = none := by
    intro id hid
    obtain rfl | rfl : id = ⟨1⟩ ∨ id = ⟨2⟩ := by
      simpa [w, ConditionWatch.watches] using hid
    · exact Option.isNone_iff_eq_none.1 ha
    · exact Option.isNone_iff_eq_none.1 hb
  have hothers : ∀ call, .call call ∈ turns → ∀ id ∈ w.watches, call.consumer? ≠ some id := by
    intro call hcall
    simp only [turns, List.mem_cons, reduceCtorEq, false_or, or_false, List.not_mem_nil,
      Turn.call.injEq] at hcall
    subst hcall
    intro id _ hconsumer
    cases hconsumer
  -- The premise has to be met as it stands, without evaluating the run.
  subst m
  obtain ⟨-, -, -, hholds⟩ :=
    fires_on_leaves_that_held "status" calls rule w s 0 turns .step hstart hothers hfired
  exact ⟨hstart, hfired, hholds hempty⟩

/-- A rule waits for *a* and *b* to be true. Only *a* is, and then becomes false before *b* becomes
true, but a mail about *b* is served first, so that the rule fires. Its condition is true in no
state from the start up to the firing. -/
theorem fires_though_never_true :
    let rule : Rule := ⟨"both", .combine .all [.leaf ⟨"status://a", .equals (.bool true)⟩,
      .leaf ⟨"status://b", .equals (.bool true)⟩], []⟩
    let calls := [.write (.set "status://" (.object [("a", .bool true), ("b", .bool false)])
      .unchecked)]
    let w : ConditionWatch := ⟨rule.condition, [⟨⟨1⟩, .equals (.bool true), true, false⟩,
      ⟨⟨2⟩, .equals (.bool true), false, false⟩], [0, 1], none⟩
    let s := (ConditionWatch.start ((Store.new "status").after calls) rule.condition).2
    let turns : List Turn := [.step, .step, .step,
      .call (.write (.set "status://b" .null .unchecked)),
      .call (.write (.set "status://a" (.bool false) .unchecked)),
      .call (.write (.set "status://b" (.bool true) .unchecked))]
    let added : RuleAtWork := ⟨.start rule w, 0, s⟩
    let m := added.after turns
    ConditionWatch.start ((Store.new "status").after calls) rule.condition = (.ok w, s) ∧
      m.task.fired < (m.turn .step).task.fired ∧
      ∀ s' ∈ s :: (added.visited turns ++ [(m.turn .step).store]),
        rule.condition.holdsOn s' = false := by
  intro rule calls w s turns added m
  have hstart :
      ConditionWatch.start ((Store.new "status").after calls) rule.condition = (.ok w, s) :=
    Store.eq_mk_of_fst_eq (by cbv)
  have hfired : m.task.fired < (m.turn .step).task.fired := by
    subst m added turns s w calls rule
    cbv
  have hnever : ((s :: (added.visited turns ++ [(m.turn .step).store])).all
      fun s' => !rule.condition.holdsOn s') = true := by
    subst m added turns s w calls rule
    cbv
  refine ⟨hstart, hfired, fun s' hs' => ?_⟩
  simpa using List.all_eq_true.1 hnever s' hs'

end RuleAtWork

end Switchboard
