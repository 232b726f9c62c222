import Switchboard.Store
import Switchboard.Proofs.Tree.Writes
import Switchboard.Proofs.Address
/-!
# Calls and runs

Every operation of a store is one step on the whole store, so what any number of clients do with it
is one list of calls in the order in which the store serves them. `Store.after` is the state that
such a run leaves, `Store.log` pairs every call with its answer, and `Store.history` lists the
targets of the writes that succeeded.

Of a write that succeeded `Store.Wrote` says all that it does. A write that failed has left the
store alone (`Store.write_eq_error`).
-/

namespace Switchboard

/-- A write as a client asks for it. -/
inductive Write where
  /-- Writes a value. -/
  | set (url : String) (value : Json) (expected : Precondition)
  /-- Writes the value of a JSON text. -/
  | setText (url text : String) (expected : Precondition)
  /-- Removes a node. -/
  | remove (url : String) (expected : Precondition)

namespace Write

/-- The address that is written. -/
def url : Write → String
  | set url _ _ | setText url _ _ | remove url _ => url

/-- What the write expects of its target. -/
def expected : Write → Precondition
  | set _ _ expected | setText _ _ expected | remove _ expected => expected

/-- The path to the target. -/
def path? (w : Write) : Option (List String) :=
  (Address.parse w.url).toOption.map Address.segments

end Write

/-- What a client asks of a store. -/
inductive Call where
  | get (url : String)
  | expand (pattern : String)
  | write (w : Write)
  | watch (pattern : String)
  | take (id : WatchId)
  | poll (id : WatchId)
  | cancel (id : WatchId)
  | release (id : WatchId)
  | drop (id : WatchId)

/-- What a store answers. -/
inductive Answer where
  /-- The call was refused. -/
  | refused (e : StoreError)
  /-- A node was read. -/
  | entry (entry : Entry)
  /-- A query was evaluated. -/
  | found (found : Matches)
  /-- A write succeeded. -/
  | written (revision : Nat)
  /-- A watch was registered. -/
  | watching (id : WatchId)
  /-- A mailbox was looked into. -/
  | mail (mail : Mail)
  /-- There is nothing to say. -/
  | done

namespace Store

/-- Carries out a write. -/
def write (s : Store) : Write → Except StoreError Nat × Store
  | .set url value expected => s.set url value expected
  | .setText url text expected => s.setText url text expected
  | .remove url expected => s.remove url expected

/-- Serves a call. -/
def call (s : Store) : Call → Answer × Store
  | .get url =>
    match s.get url with
    | .ok entry => (.entry entry, s)
    | .error e => (.refused e, s)
  | .expand pattern =>
    match s.expand pattern with
    | .ok found => (.found found, s)
    | .error e => (.refused e, s)
  | .write w =>
    match s.write w with
    | (.ok revision, s') => (.written revision, s')
    | (.error e, s') => (.refused e, s')
  | .watch pattern =>
    match s.watch pattern with
    | .ok (id, s') => (.watching id, s')
    | .error e => (.refused e, s)
  | .take id => ((Answer.mail (s.take id).1), (s.take id).2)
  | .poll id => ((Answer.mail (s.poll id).1), (s.poll id).2)
  | .cancel id => (.done, s.cancel id)
  | .release id => (.done, s.release id)
  | .drop id => (.done, s.drop id)

/-- The store after a run. -/
def after (s : Store) : List Call → Store
  | [] => s
  | c :: calls => (s.call c).2.after calls

/-- The calls of a run with their answers. -/
def log (s : Store) : List Call → List (Call × Answer)
  | [] => []
  | c :: calls => (c, (s.call c).1) :: (s.call c).2.log calls

end Store

/-- The revision that a write was answered. -/
def writtenRevision? : Call × Answer → Option Nat
  | (_, .written revision) => some revision
  | _ => none

/-- The path to the target of a write that succeeded. -/
def writtenPath? : Call × Answer → Option (List String)
  | (.write w, .written _) => w.path?
  | _ => none

namespace Store

/-- The targets of the writes that succeeded in a run, in their order. -/
def history (s : Store) (calls : List Call) : List (List String) :=
  (s.log calls).filterMap writtenPath?

variable {s s' : Store} {w : Write} {url : String} {a : Address} {n : Nat} {e : StoreError}
  {c : Call} {calls : List Call}

/-! ## Addresses -/

/-- The address of a store is one of its scheme. -/
theorem parse_eq_ok (h : s.parse url = .ok a) :
    Address.parse url = .ok a ∧ a.scheme = s.scheme := by
  unfold parse at h
  split at h
  · cases h
  · next b hb =>
    split at h
    · next hscheme =>
      cases h
      exact ⟨hb, hscheme⟩
    · cases h

/-- An address that names one node is one of the store, without wildcards. -/
theorem parseConcrete_eq_ok_iff :
    s.parseConcrete url = .ok a ↔
      Address.parse url = .ok a ∧ a.scheme = s.scheme ∧ a.hasWildcard = false := by
  unfold parseConcrete parse Address.requireConcrete
  cases Address.parse url with
  | error e => simp
  | ok b =>
    by_cases hscheme : b.scheme = s.scheme
    · cases hwild : b.hasWildcard <;> simp [hscheme, hwild, Except.map]
      · rintro rfl
        exact ⟨hscheme, hwild⟩
      · rintro rfl
        simp [hwild]
    · simp only [if_neg hscheme, reduceCtorEq, Except.ok.injEq, false_iff, not_and]
      rintro rfl h
      exact absurd h hscheme

/-- A text that is no address of the store is at fault itself. -/
theorem isInvalidUrl_of_parse (h : s.parse url = .error e) : e.isInvalidUrl = true := by
  unfold parse at h
  split at h
  · next hparse =>
    cases h
    exact Address.isInvalidUrl_of_parse hparse
  · split at h
    · cases h
    · cases h
      rfl

/-- A text that names no node of the store is at fault itself. -/
theorem isInvalidUrl_of_parseConcrete (h : s.parseConcrete url = .error e) :
    e.isInvalidUrl = true := by
  unfold parseConcrete at h
  cases hparse : s.parse url with
  | error e' =>
    rw [hparse] at h
    cases h
    exact isInvalidUrl_of_parse hparse
  | ok a =>
    rw [hparse] at h
    unfold Address.requireConcrete at h
    dsimp only at h
    split at h
    · cases h
      rfl
    · cases h

/-- What can be read at a concrete address of the store can be read from the store. -/
theorem get_eq_ok_iff {entry : Entry} :
    s.get url = .ok entry ↔ ∃ a, s.parseConcrete url = .ok a ∧ s.tree.get a = .ok entry := by
  unfold get
  cases s.parseConcrete url <;> simp

/-- The names in an address that names one node can be names of nodes. -/
theorem isAddressable_of_parseConcrete (h : s.parseConcrete url = .ok a) :
    ∀ name ∈ a.segments, Node.isAddressable name = true := by
  obtain ⟨hparse, -, hwild⟩ := parseConcrete_eq_ok_iff.1 h
  have hwf := Address.wellFormed_of_parse hparse
  intro name hname
  have hne : name ≠ Address.wildcard := by
    rintro rfl
    exact Address.hasWildcard_eq_false_iff.1 hwild hname
  have hempty : name ≠ "" := fun hempty => hwf.segment_ne name hname (hempty ▸ rfl)
  simp [Node.isAddressable, hne, hempty, hwf.segment_slash name hname]

/-- The path to the target of a write is that of the address that the store reads. -/
theorem path?_of_parseConcrete (h : s.parseConcrete w.url = .ok a) : w.path? = some a.segments := by
  rw [Write.path?, (parseConcrete_eq_ok_iff.1 h).1]
  rfl

/-! ## What a write does -/

/-- An outcome comes with what is left. -/
theorem eq_mk_of_fst_eq {α β : Type} {outcome : α} {result : α × β} (h : result.1 = outcome) :
    result = (outcome, result.2) := by
  rw [← h]

/-- A call that writes leaves what the write leaves. -/
theorem snd_call_write (s : Store) (w : Write) : (s.call (.write w)).2 = (s.write w).2 := by
  simp only [call]
  cases s.write w with
  | mk outcome s' => cases outcome <;> rfl

variable {v : Json} {text : String} {expected : Precondition}

/-- After a write to the tree that succeeded all watches are evaluated. -/
theorem written_eq_ok {result : Except StoreError Nat × Tree}
    (h : s.written result = (.ok n, s')) :
    ∃ tree, result = (.ok n, tree) ∧
      s' = { s with tree, registry := s.registry.evaluate tree } := by
  obtain ⟨outcome, tree⟩ := result
  cases outcome <;> cases h
  exact ⟨tree, rfl, rfl⟩

/-- After a write to the tree that failed no watch is evaluated. -/
theorem written_eq_error {result : Except StoreError Nat × Tree}
    (h : s.written result = (.error e, s')) :
    ∃ tree, result = (.error e, tree) ∧ s' = { s with tree } := by
  obtain ⟨outcome, tree⟩ := result
  cases outcome <;> cases h
  exact ⟨tree, rfl, rfl⟩

/-- A value that was written was written to the tree, at an address that names one node. -/
theorem set_eq_ok (h : s.set url v expected = (.ok n, s')) :
    ∃ a tree, s.parseConcrete url = .ok a ∧ s.tree.set a v expected = (.ok n, tree) ∧
      s' = { s with tree, registry := s.registry.evaluate tree } := by
  unfold set at h
  split at h
  · cases h
  · next a ha =>
    obtain ⟨tree, htree, hs'⟩ := written_eq_ok h
    exact ⟨a, tree, ha, htree, hs'⟩

/-- A node that was removed was removed from the tree, at an address that names one node. -/
theorem remove_eq_ok (h : s.remove url expected = (.ok n, s')) :
    ∃ a tree, s.parseConcrete url = .ok a ∧ s.tree.remove a expected = (.ok n, tree) ∧
      s' = { s with tree, registry := s.registry.evaluate tree } := by
  unfold remove at h
  split at h
  · cases h
  · next a ha =>
    obtain ⟨tree, htree, hs'⟩ := written_eq_ok h
    exact ⟨a, tree, ha, htree, hs'⟩

/-- Writing a JSON text that succeeds writes its value. -/
theorem setText_eq_ok (h : s.setText url text expected = (.ok n, s')) :
    ∃ v, Json.parse text = .ok v ∧ s.set url v expected = (.ok n, s') := by
  unfold setText at h
  split at h
  · cases h
  · next v hv => exact ⟨v, hv, h⟩

/-- A write at the address `a` that succeeded with revision `n`. -/
structure Wrote (s : Store) (url : String) (expected : Precondition) (a : Address) (n : Nat)
    (s' : Store) : Prop where
  /-- The address names one node of the store. -/
  address : s.parseConcrete url = .ok a
  /-- The precondition held of the tree before. -/
  check : expected.check a ((s.tree.root.get? a.segments).map Node.revision) = .ok ()
  /-- The revision is the next one. -/
  revision_eq : n = s.revision + 1
  /-- The node at the target was replaced. -/
  written : ∃ left, Node.Written n a.segments left s.tree.root s'.tree.root
  /-- All watches are evaluated on the new tree, and nothing else changes. -/
  state : s' = { s with tree := s'.tree, registry := s.registry.evaluate s'.tree }

/-- What a value that was written has done. -/
theorem set_wrote (h : s.set url v expected = (.ok n, s')) : ∃ a, s.Wrote url expected a n s' := by
  obtain ⟨a, tree, ha, htree, rfl⟩ := set_eq_ok h
  obtain ⟨hn, hcheck, node, -, hwritten⟩ := Tree.set_eq_ok htree
  exact ⟨a, ha, hcheck, hn, ⟨some node, hwritten⟩, rfl⟩

/-- What a node that was removed has done. -/
theorem remove_wrote (h : s.remove url expected = (.ok n, s')) :
    ∃ a, s.Wrote url expected a n s' := by
  obtain ⟨a, tree, ha, htree, rfl⟩ := remove_eq_ok h
  obtain ⟨hn, -, hcheck, hwritten⟩ := Tree.remove_eq_ok htree
  exact ⟨a, ha, hcheck, hn, ⟨_, hwritten⟩, rfl⟩

/-- What a write that succeeded has done. -/
theorem write_wrote (h : s.write w = (.ok n, s')) : ∃ a, s.Wrote w.url w.expected a n s' := by
  cases w with
  | set url v expected => exact set_wrote h
  | setText url text expected =>
    obtain ⟨v, -, h⟩ := setText_eq_ok h
    exact set_wrote h
  | remove url expected => exact remove_wrote h

/-- A value that was not written has left the store alone. -/
theorem set_eq_error (h : s.set url v expected = (.error e, s')) : s' = s := by
  unfold set at h
  split at h
  · exact (Prod.mk.inj h).2.symm
  · obtain ⟨tree, htree, rfl⟩ := written_eq_error h
    rw [Tree.set_eq_error htree]

/-- A write that failed has left the store alone. -/
theorem write_eq_error (h : s.write w = (.error e, s')) : s' = s := by
  cases w with
  | set url v expected => exact set_eq_error h
  | setText url text expected =>
    simp only [write, setText] at h
    split at h
    · exact (Prod.mk.inj h).2.symm
    · exact set_eq_error h
  | remove url expected =>
    simp only [write, remove] at h
    split at h
    · exact (Prod.mk.inj h).2.symm
    · obtain ⟨tree, htree, rfl⟩ := written_eq_error h
      rw [Tree.remove_eq_error htree]

/-- A write evaluates all watches on the new tree, or does nothing to them. -/
theorem registry_write (s : Store) (w : Write) : (s.write w).2.registry = s.registry ∨
    (s.write w).2.registry = s.registry.evaluate (s.write w).2.tree := by
  rcases hw : s.write w with ⟨e | n, s'⟩
  · rw [write_eq_error hw]
    exact .inl rfl
  · obtain ⟨a, hwrote⟩ := write_wrote hw
    exact .inr (congrArg Store.registry hwrote.state)

theorem fst_written (s : Store) (result : Except StoreError Nat × Tree) :
    (s.written result).1 = result.1 := by
  obtain ⟨outcome, tree⟩ := result
  cases outcome <;> rfl

/-- A write is answered as the write to the tree is. -/
theorem fst_write_set (ha : s.parseConcrete url = .ok a) :
    (s.write (.set url v expected)).1 = (s.tree.set a v expected).1 := by
  simp only [write, set, ha, fst_written]

theorem fst_write_remove (ha : s.parseConcrete url = .ok a) :
    (s.write (.remove url expected)).1 = (s.tree.remove a expected).1 := by
  simp only [write, remove, ha, fst_written]

end Store

end Switchboard
