import Switchboard.Proofs.Store.Steps
/-!
# Revisions and the history of writes

The history of a run lists the targets of the writes that succeeded. The revisions that a run
answers count them, and the revision of a node is the position in the history of the last write
whose target is related to the path of the node (`LastRelated`), so that a revision tells when a
node, something above it or something below it was last written.

`Tree.Reached` is the invariant. One write keeps it (`Tree.Reached.written`), since a write gives
its revision to all nodes on related paths and leaves the others alone, and so does a run
(`Store.reached_after`). Seen from one path, a run either leaves its node alone or makes it newer
than all that was there when the run started (`Store.untouched_or_newer`).
-/

namespace Switchboard

/-- The last target in the history that is related to `q` is the `k`-th one. -/
def LastRelated (history : List (List String)) (q : List String) (k : Nat) : Prop :=
  ∃ earlier p later, history = earlier ++ p :: later ∧ Related p q ∧
    (∀ p' ∈ later, ¬ Related p' q) ∧ k = earlier.length + 1

namespace LastRelated

variable {history : List (List String)} {p q : List String} {k : Nat}

/-- A related target at the end of the history is the last one. -/
theorem concat (h : Related p q) : LastRelated (history ++ [p]) q (history.length + 1) :=
  ⟨history, p, [], rfl, h, nofun, rfl⟩

/-- A target that is not related changes nothing. -/
theorem concat_of_not_related (h : LastRelated history q k) (hp : ¬ Related p q) :
    LastRelated (history ++ [p]) q k := by
  obtain ⟨earlier, last, later, rfl, hlast, hlater, rfl⟩ := h
  refine ⟨earlier, last, later ++ [p], by simp, hlast, fun p' hp' => ?_, rfl⟩
  rcases List.mem_append.1 hp' with hp' | hp'
  · exact hlater p' hp'
  · exact List.mem_singleton.1 hp' ▸ hp

/-- Positions in the history are counted from one. -/
theorem pos (h : LastRelated history q k) : 0 < k := by
  obtain ⟨earlier, -, -, -, -, -, rfl⟩ := h
  exact Nat.succ_pos _

/-- A position in the history is not beyond its end. -/
theorem le_length (h : LastRelated history q k) : k ≤ history.length := by
  obtain ⟨earlier, last, later, rfl, -, -, rfl⟩ := h
  simp only [List.length_append, List.length_cons]
  omega

end LastRelated

/-! ## Trees -/

/-- The tree is what the writes of the history can leave: its revision counts them, and every node
has the position of the last related one. Only the root can be there without any, with zero. -/
structure Tree.Reached (history : List (List String)) (t : Tree) : Prop where
  count : t.revision = history.length
  last : ∀ q part, t.root.get? q = some part →
    (history = [] ∧ q = [] ∧ part.revision = 0) ∨ LastRelated history q part.revision

namespace Tree.Reached

variable {history : List (List String)} {t t' : Tree} {p q : List String} {left : Option Node}
  {part : Node}

/-- Nothing was written to a new tree. -/
theorem new : Tree.new.Reached [] where
  count := rfl
  last := fun q part hpart => by
    cases q with
    | nil =>
      cases hpart
      exact .inl ⟨rfl, rfl, rfl⟩
    | cons => cases hpart

/-- A write joins the history. -/
theorem written (h : t.Reached history)
    (hw : Node.Written (t.revision + 1) p left t.root t'.root) : t'.Reached (history ++ [p]) where
  count := by
    rw [← Tree.revision_eq, hw.revision_root, h.count, List.length_append]
    rfl
  last := fun q part hpart => .inr <| by
    by_cases hq : Related p q
    · rw [hw.revision_eq hq hpart, h.count]
      exact .concat hq
    · rw [hw.beside q hq] at hpart
      rcases h.last q part hpart with ⟨-, rfl, -⟩ | hlast
      · exact absurd (.inr List.nil_prefix) hq
      · exact hlast.concat_of_not_related hq

/-- No node is newer than its tree. -/
theorem revision_le (h : t.Reached history) (hpart : t.root.get? q = some part) :
    part.revision ≤ t.revision := by
  rw [h.count]
  rcases h.last q part hpart with ⟨-, -, hzero⟩ | hlast
  · rw [hzero]
    exact Nat.zero_le _
  · exact hlast.le_length

/-- Only the root of a tree that was never written has revision zero. -/
theorem of_revision_zero (h : t.Reached history) (hpart : t.root.get? q = some part)
    (hzero : part.revision = 0) : q = [] := by
  rcases h.last q part hpart with ⟨-, hq, -⟩ | hlast
  · exact hq
  · rw [hzero] at hlast
    exact absurd hlast.pos (Nat.lt_irrefl 0)

end Tree.Reached

/-! ## Runs -/

namespace Store

variable {s : Store} {history : List (List String)}

/-- The history of a run starts with that of its first call. -/
theorem history_cons (s : Store) (c : Call) (calls : List Call) :
    s.history (c :: calls) =
      (writtenPath? (c, (s.call c).1)).toList ++ (s.call c).2.history calls := by
  rw [history, log, List.filterMap_cons]
  cases writtenPath? (c, (s.call c).1) <;> rfl

/-- One call keeps the tree what the writes so far can leave. -/
theorem reached_call (h : s.tree.Reached history) (c : Call) :
    (s.call c).2.tree.Reached (history ++ (writtenPath? (c, (s.call c).1)).toList) := by
  rcases (call_step s c).written_or_same with ⟨p, left, hp, -, -, hwritten⟩ | ⟨htree, hnone, -⟩
  · rw [hp]
    exact h.written hwritten
  · rw [htree, hnone, Option.toList_none, List.append_nil]
    exact h

/-- A run keeps the tree what the writes so far can leave. -/
theorem reached_after (h : s.tree.Reached history) (calls : List Call) :
    (s.after calls).tree.Reached (history ++ s.history calls) := by
  induction calls generalizing s history with
  | nil => rwa [show s.history [] = [] from rfl, List.append_nil]
  | cons c calls ih =>
    rw [history_cons, ← List.append_assoc]
    exact ih (reached_call h c)

/-- The revisions that a run answers count on from that of the store. -/
theorem revisions_log (s : Store) (calls : List Call) :
    (s.log calls).filterMap writtenRevision? =
      List.range' (s.revision + 1) (s.history calls).length := by
  induction calls generalizing s with
  | nil => rfl
  | cons c calls ih =>
    rw [history_cons, log, List.filterMap_cons, ih]
    rcases (call_step s c).written_or_same with ⟨p, left, hp, hn, -, hwritten⟩ | ⟨htree, hp, hn⟩
    · have hrevision : (s.call c).2.revision = s.revision + 1 := hwritten.revision_root
      rw [hp, hn, hrevision]
      simp [List.range'_succ]
    · have hrevision : (s.call c).2.revision = s.revision := congrArg Tree.revision htree
      rw [hp, hn, hrevision]
      rfl

/-- Over a run, a path either keeps its node, and no target of the run is related to it, or what
is there in the end is newer than all that was there in the beginning. -/
theorem untouched_or_newer (s : Store) (calls : List Call) (q : List String) :
    ((∀ p ∈ s.history calls, ¬ Related p q) ∧
      (s.after calls).tree.root.get? q = s.tree.root.get? q) ∨
    ∀ part, (s.after calls).tree.root.get? q = some part → s.revision < part.revision := by
  induction calls generalizing s with
  | nil => exact .inl ⟨nofun, rfl⟩
  | cons c calls ih =>
    rw [history_cons, after]
    rcases (call_step s c).written_or_same with ⟨p, left, hp, -, -, hwritten⟩ | ⟨htree, hp, -⟩
    · have hrevision : (s.call c).2.revision = s.revision + 1 := hwritten.revision_root
      rw [hp]
      rcases ih (s.call c).2 with ⟨hrest, hsame⟩ | hnewer
      · by_cases hq : Related p q
        · -- The first write made what is there, and nothing changed it later.
          refine .inr fun part hpart => ?_
          rw [hsame] at hpart
          rw [hwritten.revision_eq hq hpart]
          exact Nat.lt_succ_self _
        · refine .inl ⟨fun p' hp' => ?_, hsame.trans (hwritten.beside q hq)⟩
          rcases List.mem_cons.1 hp' with rfl | hp'
          · exact hq
          · exact hrest p' hp'
      · refine .inr fun part hpart => ?_
        have hpart := hnewer part hpart
        omega
    · rw [hp, revision, ← htree]
      exact ih (s.call c).2

/-- **Revisions are the history of writes.** In every run from a new store, of calls that succeed
and calls that fail in any order, the writes that succeed are answered one, two, three and so on,
and the revision of the store is their number. In the state that is reached, the revision of every
node is the position of the last write whose target is above the node, the node itself or below
it; it is zero only for the root of a store that was never written. -/
theorem revision_eq_last_related (scheme : String) (calls : List Call) :
    let s := (new scheme).after calls
    let history := (new scheme).history calls
    ((new scheme).log calls).filterMap writtenRevision? = List.range' 1 history.length ∧
    s.revision = history.length ∧
    ∀ q part, s.tree.root.get? q = some part →
      (history = [] ∧ q = [] ∧ part.revision = 0) ∨ LastRelated history q part.revision := by
  intro s history
  have hnew : (new scheme).tree.Reached [] := .new
  have hreached : s.tree.Reached history := reached_after hnew calls
  exact ⟨revisions_log (new scheme) calls, hreached.count, hreached.last⟩

/-- A door is removed that is not there, and a lamp is removed and written again with a hall below
it. The revision of the lamp is that of its third write, and the failed one does not count. -/
theorem lamp_written_again :
    let put (url : String) : Call := .write (.set url (.bool true) .unchecked)
    let gone (url : String) : Call := .write (.remove url .unchecked)
    let calls := [put "status://lamp", gone "status://door", gone "status://lamp",
      put "status://lamp/hall", put "status://door"]
    let s := (new "status").after calls
    let history := (new "status").history calls
    history = [["lamp"], ["lamp"], ["lamp", "hall"], ["door"]] ∧
      ((new "status").log calls).filterMap writtenRevision? = [1, 2, 3, 4] ∧ s.revision = 4 ∧
      (s.tree.root.get? ["lamp"]).map Node.revision = some 3 ∧ LastRelated history ["lamp"] 3 := by
  intro put gone calls s history
  subst history s
  have hhistory : (new "status").history calls =
      [["lamp"], ["lamp"], ["lamp", "hall"], ["door"]] := by decide +kernel
  have hlamp : (((new "status").after calls).tree.root.get? ["lamp"]).map Node.revision =
      some 3 := by decide +kernel
  obtain ⟨hanswers, hcount, hlast⟩ := revision_eq_last_related "status" calls
  rw [hhistory] at hanswers hcount
  obtain ⟨part, hpart, hthree⟩ := Option.map_eq_some_iff.1 hlamp
  refine ⟨hhistory, hanswers, hcount, hlamp, ?_⟩
  rcases hlast ["lamp"] part hpart with ⟨-, hroot, -⟩ | hrelated
  · cases hroot
  · rwa [hthree] at hrelated

end Store

end Switchboard
