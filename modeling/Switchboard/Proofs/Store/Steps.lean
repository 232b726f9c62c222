import Switchboard.Proofs.Store.Calls
import Switchboard.Proofs.Watch.Numbers
/-!
# Steps of a store

What a call can do to a store (`Store.Step`): it is a write that succeeds, it registers a watch, it
serves a consumer, or it leaves the tree alone and adds no watch. Every call is one of these steps
(`Store.call_step`), so an invariant of runs has four cases and not one for every call and outcome.
-/

namespace Switchboard.Store

/-- A step from `s`: the call, its answer and the store after it. -/
inductive Step (s : Store) : Call → Answer → Store → Prop
  /-- A write succeeds. -/
  | written {w : Write} {a : Address} {n : Nat} {s' : Store}
      (h : s.Wrote w.url w.expected a n s') : s.Step (.write w) (.written n) s'
  /-- A watch is registered. -/
  | watching {text : String} {pattern : Address} (h : s.parse text = .ok pattern) :
      s.Step (.watch text) (.watching ⟨s.registry.issued + 1⟩)
        { s with registry := (s.registry.register pattern text s.tree).2 }
  /-- A consumer asks for a result. -/
  | asked {c : Call} {id : WatchId} {served : Mail × Registry} (hc : c = .take id ∨ c = .poll id)
      (h : s.registry.Handed id served) :
      s.Step c (.mail served.1) { s with registry := served.2 }
  /-- At most watches end and bells change. -/
  | quiet {c : Call} {answer : Answer} {registry : Registry} (hwritten : ∀ n, answer ≠ .written n)
      (hmail : ∀ mail, answer ≠ .mail mail) (hwatches : registry.watches ⊆ s.registry.watches)
      (hkept : s.registry.Kept registry) : s.Step c answer { s with registry }

variable {s s' : Store} {c : Call} {answer : Answer}

theorem Step.same (hwritten : ∀ n, answer ≠ .written n) (hmail : ∀ mail, answer ≠ .mail mail) :
    s.Step c answer s :=
  .quiet hwritten hmail (List.Subset.refl _) (.refl _)

theorem Step.refused (e : StoreError) : s.Step c (.refused e) s :=
  .same (by simp) (by simp)

theorem Step.done {registry : Registry} (hwatches : registry.watches ⊆ s.registry.watches)
    (hkept : s.registry.Kept registry) : s.Step c .done { s with registry } :=
  .quiet (by simp) (by simp) hwatches hkept

/-- Every call is a step. -/
theorem call_step (s : Store) (c : Call) : s.Step c (s.call c).1 (s.call c).2 := by
  cases c with
  | write w =>
    simp only [call]
    cases hw : s.write w with
    | mk outcome s' =>
      cases outcome with
      | ok n =>
        obtain ⟨a, hwrote⟩ := write_wrote hw
        exact .written hwrote
      | error e =>
        cases write_eq_error hw
        exact .refused e
  | watch text =>
    simp only [call, watch]
    cases hparse : s.parse text with
    | ok pattern => exact .watching hparse
    | error e => exact .refused e
  | get url =>
    simp only [call]
    cases s.get url <;> dsimp only <;> exact .same (by simp) (by simp)
  | expand text =>
    simp only [call]
    cases s.expand text <;> dsimp only <;> exact .same (by simp) (by simp)
  | take id => exact .asked (.inl rfl) (Registry.take_handed s.registry id)
  | poll id => exact .asked (.inr rfl) (Registry.poll_handed s.registry id)
  | cancel id =>
    exact .done (List.Subset.refl _) (Registry.updateBell_kept s.registry id .cancel)
  | release id =>
    exact .done (Registry.release_subset s.registry id) (Registry.release_kept s.registry id)
  | drop id =>
    exact .done (Registry.release_subset s.registry id) (Registry.drop_kept s.registry id)

namespace Step

/-- A step is a write that succeeds, and then joins the history with the next revision, or it
leaves the tree and the history alone. -/
theorem written_or_same (h : s.Step c answer s') :
    (∃ p left, writtenPath? (c, answer) = some p ∧
      writtenRevision? (c, answer) = some (s.revision + 1) ∧
      (∀ name ∈ p, Node.isAddressable name = true) ∧
      Node.Written (s.revision + 1) p left s.tree.root s'.tree.root) ∨
    (s'.tree = s.tree ∧ writtenPath? (c, answer) = none ∧ writtenRevision? (c, answer) = none) := by
  cases h with
  | written hwrote =>
    obtain ⟨left, hwritten⟩ := hwrote.written
    cases hwrote.revision_eq
    exact .inl ⟨_, left, path?_of_parseConcrete hwrote.address, rfl,
      isAddressable_of_parseConcrete hwrote.address, hwritten⟩
  | watching => exact .inr ⟨rfl, rfl, rfl⟩
  | asked hc => rcases hc with rfl | rfl <;> exact .inr ⟨rfl, rfl, rfl⟩
  | quiet hwritten =>
    refine .inr ⟨rfl, ?_⟩
    cases answer with
    | written n => exact absurd rfl (hwritten n)
    | refused | entry | found | watching | mail | done => cases c <;> exact ⟨rfl, rfl⟩

/-- A step registers a watch, or it adds none. -/
theorem watching_or_kept (h : s.Step c answer s') :
    (∃ pattern text, c = .watch text ∧ answer = .watching ⟨s.registry.issued + 1⟩ ∧
      s'.registry = (s.registry.register pattern text s.tree).2) ∨
    s.registry.Kept s'.registry := by
  cases h with
  | written hwrote =>
    rw [hwrote.state]
    exact .inr (Registry.evaluate_kept s.registry s'.tree)
  | watching => exact .inl ⟨_, _, rfl, rfl, rfl⟩
  | asked _ hserved => exact .inr hserved.kept
  | quiet _ _ _ hkept => exact .inr hkept

/-- No step changes the scheme. -/
theorem scheme_eq (h : s.Step c answer s') : s'.scheme = s.scheme := by
  cases h with
  | written hwrote => rw [hwrote.state]
  | watching | asked | quiet => rfl

end Step

/-- A run keeps the scheme. -/
theorem scheme_after (s : Store) (calls : List Call) : (s.after calls).scheme = s.scheme := by
  induction calls generalizing s with
  | nil => rfl
  | cons c calls ih => exact (ih _).trans (call_step s c).scheme_eq

end Switchboard.Store
