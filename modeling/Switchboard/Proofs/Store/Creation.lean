import Mathlib
import Switchboard.Proofs.Store.Acceptance
import Switchboard.Proofs.Store.Sound
/-!
# Expecting revision zero

A missing target counts as revision zero. That is sound because no node below the root has this
revision, in any state of a run: nothing is there that no write has made, and writes count from one.
So to expect revision zero is to expect that there is no such node, as far as writes succeed. Only
the root has revision zero, as long as nothing was written (`Store.exact_zero_only_creates`).
-/

namespace Switchboard

namespace Precondition

variable {target : Address} {revision : Nat}

/-- A target that is there has revision zero, or it is refused. -/
theorem check_exact_zero_some : (exact 0).check target (some revision) =
    if revision = 0 then .ok () else .error (.revisionMismatch target.text 0 revision) := by
  rw [check]
  simp [eq_comm]

end Precondition

/-! ## Revision zero -/

namespace Tree

variable {t : Tree} {a : Address} {v : Json} {p p' : Precondition} {history : List (List String)}

/-- Nothing below the root has revision zero. -/
theorem Reached.revision_ne_zero {q : List String} {part : Node} (h : t.Reached history)
    (hq : q ≠ []) (hpart : t.root.get? q = some part) : part.revision ≠ 0 :=
  fun hzero => hq (h.of_revision_zero hpart hzero)

/-- The root has revision zero as long as nothing was written. -/
theorem Reached.revision_eq_zero_iff (h : t.Reached history) : t.revision = 0 ↔ history = [] := by
  rw [h.count, List.length_eq_zero_iff]

/-! ## Writes and their preconditions -/

/-- Of a precondition, writing a value needs only how its check ends. -/
theorem set_eq_of_check (h : p.check a ((t.root.get? a.segments).map Node.revision) =
    p'.check a ((t.root.get? a.segments).map Node.revision)) : t.set a v p = t.set a v p' := by
  rw [set, set]
  cases hprobe : t.probe a with
  | error e => rfl
  | ok current =>
    rw [Node.probe_eq_ok (mapError_eq_ok_iff.1 hprobe)]
    simp only [h]

/-- Of a precondition, removing a node needs only how its check ends. -/
theorem remove_eq_of_check (h : p.check a ((t.root.get? a.segments).map Node.revision) =
    p'.check a ((t.root.get? a.segments).map Node.revision)) : t.remove a p = t.remove a p' := by
  rw [remove, remove]
  cases hfind : t.find a with
  | error e => rfl
  | ok node =>
    rw [find_eq_ok_iff.1 hfind, Option.map_some] at h
    simp only [h]

end Tree

namespace Store

variable {s s' : Store} {url : String} {a : Address} {v : Json} {p p' : Precondition} {w : Write}
  {n : Nat}

theorem set_eq_of_check (ha : s.parseConcrete url = .ok a)
    (h : p.check a ((s.tree.root.get? a.segments).map Node.revision) =
      p'.check a ((s.tree.root.get? a.segments).map Node.revision)) :
    s.set url v p = s.set url v p' := by
  rw [set, set, ha]
  dsimp only
  rw [Tree.set_eq_of_check h]

theorem remove_eq_of_check (ha : s.parseConcrete url = .ok a)
    (h : p.check a ((s.tree.root.get? a.segments).map Node.revision) =
      p'.check a ((s.tree.root.get? a.segments).map Node.revision)) :
    s.remove url p = s.remove url p' := by
  rw [remove, remove, ha]
  dsimp only
  rw [Tree.remove_eq_of_check h]

/-- A write that succeeds has passed the check of its precondition. -/
theorem check_of_write (ha : s.parseConcrete w.url = .ok a) (h : (s.write w).1 = .ok n) :
    w.expected.check a ((s.tree.root.get? a.segments).map Node.revision) = .ok () := by
  obtain ⟨b, hwrote⟩ := write_wrote (eq_mk_of_fst_eq h)
  cases ha.symm.trans hwrote.address
  exact hwrote.check

/-- A node that was removed was there. -/
theorem exists_of_remove (ha : s.parseConcrete url = .ok a) (h : (s.remove url p).1 = .ok n) :
    ∃ node, s.tree.root.get? a.segments = some node := by
  obtain ⟨b, tree, hb, htree, -⟩ := remove_eq_ok (eq_mk_of_fst_eq h)
  cases ha.symm.trans hb
  exact (Tree.remove_eq_ok htree).2.1

/-- Nothing that is expected to be missing is removed. -/
theorem remove_mustNotExist_ne_ok (ha : s.parseConcrete url = .ok a) (n : Nat) :
    (s.remove url .mustNotExist).1 ≠ .ok n := by
  intro h
  obtain ⟨node, hnode⟩ := exists_of_remove ha h
  have hcheck := check_of_write (w := .remove url .mustNotExist) ha h
  rw [hnode] at hcheck
  cases hcheck

/-- At the root, a write that fails its check is refused for it and changes nothing. -/
theorem refused_at_root {e : StoreError} (ha : s.parseConcrete url = .ok a)
    (hroot : a.segments = []) (h : p.check a (some s.revision) = .error e) :
    (∀ v, s.set url v p = (.error e, s)) ∧ s.remove url p = (.error e, s) := by
  have hprobe : s.tree.probe a = .ok (some s.revision) := by
    rw [Tree.probe, hroot]
    rfl
  have hfind : s.tree.find a = .ok s.tree.root := by
    rw [Tree.find, hroot]
    rfl
  constructor
  · intro v
    rw [set, ha]
    dsimp only
    rw [Tree.set, hprobe]
    dsimp only
    rw [h]
    rfl
  · rw [remove, ha]
    dsimp only
    rw [Tree.remove, hfind]
    dsimp only
    rw [Tree.revision_eq, show s.tree.revision = s.revision from rfl, h]
    rfl

/-- Below the root nothing has revision zero: it is the revision of what is not there. -/
theorem Sound.exact_zero_below_root {history : List (List String)} (h : s.Sound history)
    (ha : s.parseConcrete url = .ok a) (hbelow : a.segments ≠ []) :
    (∀ v n s', s.set url v (.exact 0) = (.ok n, s') ↔ s.set url v .mustNotExist = (.ok n, s')) ∧
      ∀ n, (s.remove url (.exact 0)).1 ≠ .ok n := by
  cases hnode : s.tree.root.get? a.segments with
  | none =>
    have hsame : ∀ v, s.set url v (.exact 0) = s.set url v .mustNotExist := fun v =>
      set_eq_of_check ha (by rw [hnode]; rfl)
    refine ⟨fun v n s' => by rw [hsame], fun n hremove => ?_⟩
    obtain ⟨node, hthere⟩ := exists_of_remove ha hremove
    cases hnode.symm.trans hthere
  | some node =>
    -- Both conditions fail.
    have hfails : ∀ w n, s.parseConcrete w.url = .ok a → (s.write w).1 = .ok n →
        w.expected.check a (some node.revision) = .ok () := fun w n hw hwritten => by
      have hcheck := check_of_write hw hwritten
      rwa [hnode] at hcheck
    have hzero : (Precondition.exact 0).check a (some node.revision) ≠ .ok () := by
      rw [Precondition.check_exact_zero_some, if_neg (h.reached.revision_ne_zero hbelow hnode)]
      exact nofun
    refine ⟨fun v n s' => iff_of_false (fun hset => ?_) fun hset => ?_, fun n hremove => ?_⟩
    · exact hzero (hfails (.set url v (.exact 0)) n ha (congrArg Prod.fst hset))
    · cases hfails (.set url v .mustNotExist) n ha (congrArg Prod.fst hset)
    · exact hzero (hfails (.remove url (.exact 0)) n ha hremove)

/-- The root is always there, and has revision zero until something is written. -/
theorem Sound.exact_zero_at_root {history : List (List String)} (h : s.Sound history)
    (ha : s.parseConcrete url = .ok a) (hroot : a.segments = []) :
    (∀ v n, (s.set url v .mustNotExist).1 ≠ .ok n) ∧
    (history = [] → (∀ v, s.set url v (.exact 0) = s.set url v .unchecked) ∧
      s.remove url (.exact 0) = s.remove url .unchecked) ∧
    (history ≠ [] →
      (∀ v, s.set url v (.exact 0) = (.error (.revisionMismatch a.text 0 s.revision), s)) ∧
      s.remove url (.exact 0) = (.error (.revisionMismatch a.text 0 s.revision), s)) := by
  have hthere : (s.tree.root.get? a.segments).map Node.revision = some s.revision := by
    rw [hroot]
    rfl
  have hzero : s.revision = 0 ↔ history = [] := h.reached.revision_eq_zero_iff
  refine ⟨fun v n hset => ?_, fun hnone => ?_, fun hsome => refused_at_root ha hroot ?_⟩
  · have hcheck := check_of_write (w := .set url v .mustNotExist) ha hset
    rw [hthere] at hcheck
    cases hcheck
  · have hcheck : (Precondition.exact 0).check a (some s.revision) =
        Precondition.unchecked.check a (some s.revision) := by
      rw [Precondition.check_exact_zero_some, if_pos (hzero.2 hnone)]
      rfl
    rw [← hthere] at hcheck
    exact ⟨fun v => set_eq_of_check ha hcheck, remove_eq_of_check ha hcheck⟩
  · rw [Precondition.check_exact_zero_some, if_neg fun hrevision => hsome (hzero.1 hrevision)]

/-- **Expecting revision zero only creates.** In every state of a run, at an address that names one
node below the root: a value is written on the condition of revision zero exactly if it is written
on the condition that there is no such node, with the same answer and the same store after it, and
no node is removed on either of these conditions. At the root nothing is written or removed on the
condition that it is not there. On the condition of revision zero it is written and removed as if
nothing were expected as long as no write of the run has succeeded, and is refused for its revision
ever after. -/
theorem exact_zero_only_creates (scheme : String) (calls : List Call) (url : String) (a : Address) :
    let s := (new scheme).after calls
    let history := (new scheme).history calls
    s.parseConcrete url = .ok a →
    (a.segments ≠ [] →
      (∀ v n s', s.set url v (.exact 0) = (.ok n, s') ↔
        s.set url v .mustNotExist = (.ok n, s')) ∧
      ∀ n, (s.remove url (.exact 0)).1 ≠ .ok n ∧ (s.remove url .mustNotExist).1 ≠ .ok n) ∧
    (a.segments = [] →
      (∀ v n, (s.set url v .mustNotExist).1 ≠ .ok n ∧ (s.remove url .mustNotExist).1 ≠ .ok n) ∧
      (history = [] →
        (∀ v, s.set url v (.exact 0) = s.set url v .unchecked) ∧
        s.remove url (.exact 0) = s.remove url .unchecked) ∧
      (history ≠ [] →
        (∀ v, s.set url v (.exact 0) = (.error (.revisionMismatch a.text 0 s.revision), s)) ∧
        s.remove url (.exact 0) = (.error (.revisionMismatch a.text 0 s.revision), s))) := by
  intro s history ha
  have hsound : s.Sound history := (Sound.new scheme).after calls
  have hmissing := remove_mustNotExist_ne_ok ha
  constructor
  · intro hbelow
    obtain ⟨hset, hremove⟩ := hsound.exact_zero_below_root ha hbelow
    exact ⟨hset, fun n => ⟨hremove n, hmissing n⟩⟩
  · intro hroot
    obtain ⟨hset, hfresh, hlater⟩ := hsound.exact_zero_at_root ha hroot
    exact ⟨fun v n => ⟨hset v n, hmissing n⟩, hfresh, hlater⟩

/-- A lamp is written on the condition of revision zero, which makes the containers above it, and
cannot be written like this again; and the root of a new store is, but not afterwards. -/
theorem lamp_created_once :
    let s := (new "status").after [.write (.set "status://hall/lamp" (.bool true) (.exact 0))]
    (∀ v n s', s.set "status://hall" v (.exact 0) = (.ok n, s') ↔
      s.set "status://hall" v .mustNotExist = (.ok n, s')) ∧
    (s.set "status://" .null (.exact 0)).1 = .error (.revisionMismatch "status://" 0 1) ∧
    ∀ v, (new "status").set "status://" v (.exact 0) =
      (new "status").set "status://" v .unchecked := by
  have hhall : ((new "status").after
      [.write (.set "status://hall/lamp" (.bool true) (.exact 0))]).parseConcrete "status://hall" =
        .ok ⟨"status", ["hall"]⟩ := by cbv
  have hroot : ((new "status").after
      [.write (.set "status://hall/lamp" (.bool true) (.exact 0))]).parseConcrete "status://" =
        .ok ⟨"status", []⟩ := by cbv
  have hhistory : (new "status").history
      [.write (.set "status://hall/lamp" (.bool true) (.exact 0))] = [["hall", "lamp"]] := by cbv
  have hnew : ((new "status").after []).parseConcrete "status://" = .ok ⟨"status", []⟩ := by cbv
  obtain ⟨hcreates, -⟩ := (exact_zero_only_creates "status" _ _ _ hhall).1 (List.cons_ne_nil _ _)
  obtain ⟨-, -, hlater⟩ := (exact_zero_only_creates "status" _ _ _ hroot).2 rfl
  obtain ⟨-, hfresh, -⟩ := (exact_zero_only_creates "status" [] _ _ hnew).2 rfl
  refine ⟨hcreates, ?_, (hfresh rfl).1⟩
  rw [(hlater (hhistory ▸ List.cons_ne_nil _ _)).1]
  cbv

end Store

end Switchboard
