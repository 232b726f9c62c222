import Mathlib
import Switchboard.Proofs.Store.Sound
import Switchboard.Proofs.Tree.Independent
/-!
# Independent writes commute

Two writes whose targets are unrelated can be carried out in either order
(`Store.independent_writes_commute`). Each has the same outcome before the other and after it, since
what its walk comes to is not changed by a write elsewhere, and the trees that are left in the end
differ at most in the revisions of their nodes.
-/

namespace Switchboard

/-- The same outcome in two states: a success, under the revision that is next there, or the same
error. Where a node is missing, another child on the way to it can be the first one missing. -/
inductive SameOutcome : Except StoreError Nat → Except StoreError Nat → Prop
  | written (n m : Nat) : SameOutcome (.ok n) (.ok m)
  | refused (e : StoreError) : SameOutcome (.error e) (.error e)
  | missing (url url' : String) : SameOutcome (.error (.notFound url)) (.error (.notFound url'))

theorem SameOutcome.refl (outcome : Except StoreError Nat) : SameOutcome outcome outcome := by
  cases outcome with
  | ok n => exact .written n n
  | error e => exact .refused e

/-- What fails in one state fails in the other. -/
theorem SameOutcome.of_error {e : StoreError} {outcome : Except StoreError Nat}
    (h : SameOutcome (.error e) outcome) : ∃ e', outcome = .error e' := by
  cases h with
  | refused => exact ⟨e, rfl⟩
  | missing url url' => exact ⟨_, rfl⟩

/-- What succeeds in one state succeeds in the other. -/
theorem SameOutcome.of_ok {n : Nat} {outcome : Except StoreError Nat}
    (h : SameOutcome (.ok n) outcome) : ∃ m, outcome = .ok m := by
  cases h with
  | written _ m => exact ⟨m, rfl⟩

namespace Tree

variable {t t' : Tree} {a : Address} {v : Json} {expected : Precondition} {n : Nat}

/-! ## Writes to a tree -/

/-- Writing a value has the same outcome where the walk to the target comes to the same. -/
theorem set_sameOutcome
    (h : Node.SameWalk (t.root.find a.segments) (t'.root.find a.segments)) :
    SameOutcome (t.set a v expected).1 (t'.set a v expected).1 := by
  have hprobe : t.probe a = t'.probe a := congrArg (Except.mapError _) h.probe_eq
  have hvalue := Node.ofJson_outcome (t.revision + 1) (t'.revision + 1) a v
  unfold set
  rw [hprobe]
  cases hcurrent : t'.probe a with
  | error e => exact .refused e
  | ok current =>
    dsimp only
    cases expected.check a current with
    | error e => exact .refused e
    | ok =>
      dsimp only
      cases hn : Node.ofJson (t.revision + 1) a v <;>
        cases hm : Node.ofJson (t'.revision + 1) a v <;> rw [hn, hm] at hvalue <;> cases hvalue
      · exact .refused _
      · -- Once the checks have passed nothing is in the way.
        dsimp only
        rw [← hprobe] at hcurrent
        rw [commit_ok fun parents name hsegments => Node.stamp_ok_of_probe
            (hsegments ▸ mapError_eq_ok_iff.1 hcurrent),
          commit_ok fun parents name hsegments => Node.stamp_ok_of_probe
            (hsegments ▸ mapError_eq_ok_iff.1 (hprobe ▸ hcurrent))]
        exact .written _ _

/-- Removing a node has the same outcome where the walk to the target comes to the same. -/
theorem remove_sameOutcome
    (h : Node.SameWalk (t.root.find a.segments) (t'.root.find a.segments)) :
    SameOutcome (t.remove a expected).1 (t'.remove a expected).1 := by
  unfold remove find
  generalize hwalk : t.root.find a.segments = walk, hwalk' : t'.root.find a.segments = walk' at h
  cases h with
  | blocked depth => exact .refused _
  | missed depth depth' => exact .missing _ _
  | found node =>
    simp only [Except.mapError]
    cases expected.check a (some node.revision) with
    | error e => exact .refused e
    | ok =>
      dsimp only
      rw [commit_ok fun parents name hsegments => Node.stamp_ok_of_find (hsegments ▸ hwalk),
        commit_ok fun parents name hsegments => Node.stamp_ok_of_find (hsegments ▸ hwalk')]
      exact .written _ _

/-- No leaf is in the way of a value that was written. -/
theorem not_blockedAt_of_set (h : (t.set a v expected).1 = .ok n) (depth : Nat) :
    ¬ t.root.BlockedAt a.segments depth := by
  intro hblocked
  rw [← Node.find_eq_notContainer_iff] at hblocked
  rw [set, probe, Node.probe_eq_find, hblocked] at h
  cases h

/-- No leaf is in the way of a node that was removed. -/
theorem not_blockedAt_of_remove (h : (t.remove a expected).1 = .ok n) (depth : Nat) :
    ¬ t.root.BlockedAt a.segments depth := by
  intro hblocked
  rw [← Node.find_eq_notContainer_iff] at hblocked
  rw [remove, find, hblocked] at h
  cases h

end Tree

namespace Store

variable {s s' r r' : Store} {w : Write} {a b : Address} {n m : Nat}

/-! ## Writes to a store -/

/-- A write has the same outcome where the walk to its target comes to the same. -/
theorem write_sameOutcome (ha : s.parseConcrete w.url = .ok a)
    (hr : r.parseConcrete w.url = .ok a)
    (h : Node.SameWalk (s.tree.root.find a.segments) (r.tree.root.find a.segments)) :
    SameOutcome (s.write w).1 (r.write w).1 := by
  have hset : ∀ url v expected, s.parseConcrete url = .ok a → r.parseConcrete url = .ok a →
      SameOutcome (s.write (.set url v expected)).1 (r.write (.set url v expected)).1 := by
    intro url v expected ha hr
    rw [fst_write_set ha, fst_write_set hr]
    exact Tree.set_sameOutcome h
  cases w with
  | set url v expected => exact hset url v expected ha hr
  | setText url text expected =>
    simp only [write, setText]
    cases Json.parse text with
    | error fault => exact .refused _
    | ok v => exact hset url v expected ha hr
  | remove url expected =>
    have hs : (s.write (.remove url expected)).1 = (s.tree.remove a expected).1 :=
      fst_write_remove ha
    have hr : (r.write (.remove url expected)).1 = (r.tree.remove a expected).1 :=
      fst_write_remove hr
    rw [hs, hr]
    exact Tree.remove_sameOutcome h

/-- No leaf is in the way of a write that succeeds. -/
theorem not_blockedAt_of_write (h : s.write w = (.ok n, s'))
    (ha : s.parseConcrete w.url = .ok a) (depth : Nat) :
    ¬ s.tree.root.BlockedAt a.segments depth := by
  cases w with
  | set url v expected =>
    exact Tree.not_blockedAt_of_set ((fst_write_set ha).symm.trans (congrArg Prod.fst h)) depth
  | setText url text expected =>
    obtain ⟨v, -, hset⟩ := setText_eq_ok h
    exact Tree.not_blockedAt_of_set ((fst_write_set ha).symm.trans (congrArg Prod.fst hset)) depth
  | remove url expected =>
    have hremove := (fst_write_remove ha).symm.trans (congrArg Prod.fst h)
    exact Tree.not_blockedAt_of_remove hremove depth

/-- A write that succeeds in two states leaves the same at its target, revisions apart. -/
theorem write_alike (h : s.write w = (.ok n, s')) (h' : r.write w = (.ok m, r'))
    (ha : s.parseConcrete w.url = .ok a) (hr : r.parseConcrete w.url = .ok a) :
    ∃ left left', Option.Rel Node.Alike left left' ∧
      Node.Written n a.segments left s.tree.root s'.tree.root ∧
      Node.Written m a.segments left' r.tree.root r'.tree.root := by
  have hset : ∀ url v expected, s.parseConcrete url = .ok a → r.parseConcrete url = .ok a →
      s.set url v expected = (.ok n, s') → r.set url v expected = (.ok m, r') →
      ∃ left left', Option.Rel Node.Alike left left' ∧
        Node.Written n a.segments left s.tree.root s'.tree.root ∧
        Node.Written m a.segments left' r.tree.root r'.tree.root := by
    intro url v expected ha hr h h'
    obtain ⟨b, tree, hb, htree, rfl⟩ := set_eq_ok h
    obtain ⟨b', tree', hb', htree', rfl⟩ := set_eq_ok h'
    cases ha.symm.trans hb
    cases hr.symm.trans hb'
    obtain ⟨-, -, node, hnode, hwritten⟩ := Tree.set_eq_ok htree
    obtain ⟨-, -, node', hnode', hwritten'⟩ := Tree.set_eq_ok htree'
    exact ⟨some node, some node', .some (hnode.alike hnode'), hwritten, hwritten'⟩
  cases w with
  | set url v expected => exact hset url v expected ha hr h h'
  | setText url text expected =>
    obtain ⟨v, hv, h⟩ := setText_eq_ok h
    obtain ⟨v', hv', h'⟩ := setText_eq_ok h'
    cases hv.symm.trans hv'
    exact hset url v expected ha hr h h'
  | remove url expected =>
    obtain ⟨b, tree, hb, htree, rfl⟩ := remove_eq_ok h
    obtain ⟨b', tree', hb', htree', rfl⟩ := remove_eq_ok h'
    cases ha.symm.trans hb
    cases hr.symm.trans hb'
    obtain ⟨-, -, -, hwritten⟩ := Tree.remove_eq_ok htree
    obtain ⟨-, -, -, hwritten'⟩ := Tree.remove_eq_ok htree'
    refine ⟨_, _, ?_, hwritten, hwritten'⟩
    unfold Tree.remnant
    split
    · exact .some fun q => by cases q <;> rfl
    · exact .none

/-- An address is read in the same way before and after a write. -/
theorem parseConcrete_write (s : Store) (w : Write) (url : String) :
    (s.write w).2.parseConcrete url = s.parseConcrete url := by
  have hscheme : (s.write w).2.scheme = s.scheme := by
    rw [← snd_call_write]
    exact (call_step s (.write w)).scheme_eq
  unfold parseConcrete parse
  rw [hscheme]

/-- A write keeps a store sound. -/
theorem Sound.write {history : List (List String)} (h : s.Sound history) (w : Write) :
    ∃ history', (s.write w).2.Sound history' := by
  rw [← snd_call_write]
  exact ⟨_, h.call (.write w)⟩

/-- A write that succeeds raises the revision by one. -/
theorem revision_of_write (h : s.write w = (.ok n, s')) : s'.revision = s.revision + 1 := by
  obtain ⟨a, hwrote⟩ := write_wrote h
  obtain ⟨left, hwritten⟩ := hwrote.written
  exact hwritten.revision_root.trans hwrote.revision_eq

/-- A write has the same outcome before and after a write to an unrelated path. -/
theorem sameOutcome_after_write {w w' : Write} (ha : s.parseConcrete w.url = .ok a)
    (hb : s.parseConcrete w'.url = .ok b) (h : ¬ Related b.segments a.segments) :
    SameOutcome (s.write w).1 ((s.write w').2.write w).1 := by
  have hr : (s.write w').2.parseConcrete w.url = .ok a := (parseConcrete_write s w' w.url).trans ha
  cases hw : s.write w' with
  | mk outcome r =>
    rw [hw] at hr
    cases outcome with
    | error e =>
      cases write_eq_error hw
      exact .refl _
    | ok n =>
      obtain ⟨b', hwrote⟩ := write_wrote hw
      cases hb.symm.trans hwrote.address
      obtain ⟨left, hwritten⟩ := hwrote.written
      exact write_sameOutcome ha hr (hwritten.sameWalk (not_blockedAt_of_write hw hb) h)

/-! ## Two orders -/

section

variable {w₁ w₂ : Write}

/-- If one of two writes to unrelated paths fails, in either order there is only the other one. -/
theorem snd_eq_of_refused {e : StoreError} (ha : s.parseConcrete w₁.url = .ok a)
    (hb : s.parseConcrete w₂.url = .ok b) (h : ¬ Related b.segments a.segments)
    (hw : (s.write w₁).1 = .error e) :
    ((s.write w₁).2.write w₂).2 = ((s.write w₂).2.write w₁).2 := by
  have hout : SameOutcome (s.write w₁).1 ((s.write w₂).2.write w₁).1 :=
    sameOutcome_after_write ha hb h
  rw [hw] at hout
  obtain ⟨e', hw'⟩ := hout.of_error
  rw [write_eq_error (eq_mk_of_fst_eq hw), write_eq_error (eq_mk_of_fst_eq hw')]

/-- If both of two writes to unrelated paths succeed, they leave alike trees under the same
revision in either order. -/
theorem alike_of_written (ha : s.parseConcrete w₁.url = .ok a)
    (hb : s.parseConcrete w₂.url = .ok b) (h : ¬ Related a.segments b.segments)
    (hw₁ : (s.write w₁).1 = .ok n) (hw₂ : (s.write w₂).1 = .ok m) :
    ((s.write w₁).2.write w₂).2.tree.root.Alike ((s.write w₂).2.write w₁).2.tree.root ∧
      ((s.write w₁).2.write w₂).2.revision = ((s.write w₂).2.write w₁).2.revision := by
  have ha' := (parseConcrete_write s w₂ w₁.url).trans ha
  have hb' := (parseConcrete_write s w₁ w₂.url).trans hb
  have hout₁ := sameOutcome_after_write ha hb fun hr => h hr.symm
  have hout₂ := sameOutcome_after_write hb ha h
  rw [hw₁] at hout₁
  rw [hw₂] at hout₂
  obtain ⟨n', hw₁'⟩ := hout₁.of_ok
  obtain ⟨m', hw₂'⟩ := hout₂.of_ok
  replace hw₁ := eq_mk_of_fst_eq hw₁
  replace hw₂ := eq_mk_of_fst_eq hw₂
  replace hw₁' := eq_mk_of_fst_eq hw₁'
  replace hw₂' := eq_mk_of_fst_eq hw₂'
  obtain ⟨left₁, left₁', hleft₁, hs₁, hs₂₁⟩ := write_alike hw₁ hw₁' ha ha'
  obtain ⟨left₂', left₂, hleft₂, hs₁₂, hs₂⟩ := write_alike hw₂' hw₂ hb' hb
  refine ⟨hs₁.alike h hs₁₂ hs₂ hs₂₁ hleft₁ hleft₂, ?_⟩
  rw [revision_of_write hw₁', revision_of_write hw₂', revision_of_write hw₁,
    revision_of_write hw₂]

end

/-- **Independent writes commute.** In every state of a run, of two writes whose targets are
unrelated each has the same outcome before the other and after it, and both orders leave the same
nodes, the same value at every path and the same revision of the store. -/
theorem independent_writes_commute (scheme : String) (calls : List Call) (w₁ w₂ : Write)
    (a₁ a₂ : Address) :
    let s := (new scheme).after calls
    let first := (s.write w₁).2
    let second := (s.write w₂).2
    s.parseConcrete w₁.url = .ok a₁ → s.parseConcrete w₂.url = .ok a₂ →
    ¬ Related a₁.segments a₂.segments →
    SameOutcome (s.write w₁).1 (second.write w₁).1 ∧
    SameOutcome (s.write w₂).1 (first.write w₂).1 ∧
    (∀ q, ((first.write w₂).2.tree.root.get? q).map Node.toJson =
      ((second.write w₁).2.tree.root.get? q).map Node.toJson) ∧
    (first.write w₂).2.revision = (second.write w₁).2.revision := by
  intro s first second h₁ h₂ hr
  have hsound : s.Sound ((new scheme).history calls) := (Sound.new scheme).after calls
  obtain ⟨_, hfirst⟩ := hsound.write w₁
  obtain ⟨_, hfirst⟩ := hfirst.write w₂
  obtain ⟨_, hsecond⟩ := hsound.write w₂
  obtain ⟨_, hsecond⟩ := hsecond.write w₁
  refine ⟨sameOutcome_after_write h₁ h₂ fun h => hr h.symm, sameOutcome_after_write h₂ h₁ hr, ?_⟩
  cases hw₁ : (s.write w₁).1 with
  | error e =>
    rw [snd_eq_of_refused h₁ h₂ (fun h => hr h.symm) hw₁]
    exact ⟨fun _ => rfl, rfl⟩
  | ok n =>
    cases hw₂ : (s.write w₂).1 with
    | error e =>
      rw [← snd_eq_of_refused h₂ h₁ hr hw₂]
      exact ⟨fun _ => rfl, rfl⟩
    | ok m =>
      obtain ⟨halike, hrevision⟩ := alike_of_written h₁ h₂ hr hw₁ hw₂
      exact ⟨halike.get?_toJson_eq hfirst.wellFormed hsecond.wellFormed, hrevision⟩

/-- Two writes that both need a hall, which the first one makes; and a removal that finds no hall
before the other write and no door after it. -/
theorem hall_made_by_either :
    let s := (new "home").after [.write (.set "home://lamp" (.bool true) .unchecked)]
    let lamp := Write.set "home://hall/lamp" (.object [("on", .bool true)]) .mustNotExist
    let door := Write.set "home://hall/door" .null (.exact 0)
    let gone := Write.remove "home://hall/door/lock" .unchecked
    (∀ q, (((s.write lamp).2.write door).2.tree.root.get? q).map Node.toJson =
      (((s.write door).2.write lamp).2.tree.root.get? q).map Node.toJson) ∧
    SameOutcome (s.write gone).1 ((s.write lamp).2.write gone).1 ∧
    (s.write gone).1 = .error (.notFound "home://hall") ∧
    ((s.write lamp).2.write gone).1 = .error (.notFound "home://hall/door") := by
  have hlamp : ((new "home").after
      [.write (.set "home://lamp" (.bool true) .unchecked)]).parseConcrete "home://hall/lamp" =
    .ok ⟨"home", ["hall", "lamp"]⟩ := by cbv
  have hdoor : ((new "home").after
      [.write (.set "home://lamp" (.bool true) .unchecked)]).parseConcrete "home://hall/door" =
    .ok ⟨"home", ["hall", "door"]⟩ := by cbv
  have hgone : ((new "home").after
      [.write (.set "home://lamp" (.bool true) .unchecked)]).parseConcrete "home://hall/door/lock" =
    .ok ⟨"home", ["hall", "door", "lock"]⟩ := by cbv
  have hlampDoor : ¬ Related ["hall", "lamp"] ["hall", "door"] := by simp [Related]
  have hlampGone : ¬ Related ["hall", "lamp"] ["hall", "door", "lock"] := by simp [Related]
  refine ⟨?_, ?_, by cbv, by cbv⟩
  · exact (independent_writes_commute "home" _ (.set "home://hall/lamp" _ .mustNotExist)
      (.set "home://hall/door" .null (.exact 0)) _ _ hlamp hdoor hlampDoor).2.2.1
  · exact (independent_writes_commute "home" _ (.set "home://hall/lamp" _ .mustNotExist)
      (.remove "home://hall/door/lock" .unchecked) _ _ hlamp hgone hlampGone).2.1

end Store

end Switchboard
