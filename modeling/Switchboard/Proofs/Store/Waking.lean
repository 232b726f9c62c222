import Mathlib
import Switchboard.Proofs.Store.Attention
import Switchboard.Proofs.Watch.Receiving
/-!
# No wake-up is lost

Writes, registrations and the steps of any number of consumers can interleave in every order
(`Interleaving`). A consumer looks into its mailbox in one step and turns to its bell in another,
its mailbox can be emptied behind its back while the ring for what was in it stays stored, and it
can give up at any point. Still no consumer waits for nothing (`Interleaving.no_lost_wakeup`): while
it is past its look and no wake-up is outstanding, its watch is registered and its mailbox is empty.
-/

namespace Switchboard

/-! ## Stores in order -/

/-- What happens to a bell leaves a store in order. -/
theorem Store.InOrder.updateBell {s : Store} (h : s.InOrder) (id : WatchId) (f : Bell → Bell) :
    InOrder { s with registry := s.registry.updateBell id f } where
  sound := h.sound.imp fun _ hsound => ⟨hsound.reached, hsound.wellFormed, hsound.fresh⟩
  numbered := h.numbered.kept (Registry.updateBell_kept s.registry id f)
  receivers := by
    show ∀ i ∈ (s.registry.updateBell id f).receivers, _
    rw [Registry.receivers_updateBell]
    exact h.receivers

/-- The steps of a consumer leave a store in order. -/
theorem Store.InOrder.goOn {s : Store} (h : s.InOrder) (id : WatchId) (stage : Stage) :
    InOrder { s with registry := (s.registry.goOn id stage).2.2 } := by
  cases stage with
  | idle => exact h
  | looking =>
    rw [Registry.snd_goOn_looking]
    exact h.call (.take id)
  | turning =>
    rw [Registry.goOn]
    split
    · exact h
    · exact h.updateBell id fun b => b.wait.2
    · exact h.updateBell id fun _ => (s.registry.bell id).wait.2

/-! ## Steps in any order -/

/-- A store and how far each of its consumers has come. -/
structure Interleaving where
  store : Store
  stage : WatchId → Stage

namespace Interleaving

/-- One atomic step. -/
inductive Move where
  | write (w : Write)
  | watch (pattern : String)
  /-- A mailbox is looked into without waiting. -/
  | take (id : WatchId)
  | release (id : WatchId)
  | drop (id : WatchId)
  /-- A consumer starts to ask for its next result. -/
  | ask (id : WatchId)
  /-- A consumer goes on by one step. -/
  | go (id : WatchId)
  /-- A consumer gives up. -/
  | cancel (id : WatchId)

/-- A new store, of which nobody asks anything. -/
def new (scheme : String) : Interleaving := ⟨.new scheme, fun _ => .idle⟩

/-- Carries out a step. -/
def move (m : Interleaving) : Move → Interleaving
  | .write w => { m with store := (m.store.write w).2 }
  | .watch pattern => { m with store := (m.store.call (.watch pattern)).2 }
  | .take id => { m with store := (m.store.take id).2 }
  | .release id => { m with store := m.store.release id }
  | .drop id => ⟨m.store.drop id, Function.update m.stage id .idle⟩
  | .ask id => if m.stage id = .idle then ⟨m.store, Function.update m.stage id .looking⟩ else m
  | .go id =>
    let (_, stage, registry) := m.store.registry.goOn id (m.stage id)
    ⟨{ m.store with registry }, Function.update m.stage id stage⟩
  | .cancel id => ⟨m.store.cancel id, Function.update m.stage id .idle⟩

/-- The state after a run. -/
def after (m : Interleaving) : List Move → Interleaving
  | [] => m
  | move :: moves => (m.move move).after moves

/-- The store is in order, and no consumer misses anything. -/
structure Wakeful (m : Interleaving) : Prop where
  inOrder : m.store.InOrder
  alert : ∀ id, m.store.registry.Alert id (m.stage id)

namespace Wakeful

variable {m : Interleaving} {s : Store} {id : WatchId} {stage : Stage}

theorem new (scheme : String) : (Interleaving.new scheme).Wakeful :=
  ⟨.new scheme, fun _ => rfl⟩

/-- One consumer has come to another stage, where it misses nothing, and the others miss nothing
either. -/
theorem update (hs : s.InOrder) (hown : s.registry.Alert id stage)
    (hothers : ∀ i, i ≠ id → s.registry.Alert i (m.stage i)) :
    Wakeful ⟨s, Function.update m.stage id stage⟩ := by
  refine ⟨hs, fun i => ?_⟩
  by_cases hi : i = id
  · subst hi
    show s.registry.Alert i (Function.update m.stage i stage i)
    rwa [Function.update_self]
  · show s.registry.Alert i (Function.update m.stage id stage i)
    rw [Function.update_of_ne hi]
    exact hothers i hi

/-- Nobody has come to another stage, and nobody misses anything. -/
theorem of_alert (hs : s.InOrder) (h : ∀ i stage, m.store.registry.Alert i stage →
    s.registry.Alert i stage) (hm : m.Wakeful) : Wakeful { m with store := s } :=
  ⟨hs, fun i => h i _ (hm.alert i)⟩

/-- Every step keeps all consumers from missing anything. -/
theorem move (h : m.Wakeful) (move : Move) : (m.move move).Wakeful := by
  have hr := h.inOrder.numbered
  cases move with
  | write w =>
    have hs : (m.store.write w).2.InOrder := by
      rw [← Store.snd_call_write]
      exact h.inOrder.call (.write w)
    refine h.of_alert hs fun i stage halert => ?_
    rcases m.store.registry_write w with hregistry | hregistry <;> rw [hregistry]
    · exact halert
    · exact halert.evaluate hr _
  | watch pattern =>
    refine h.of_alert (h.inOrder.call (.watch pattern)) fun i stage halert => ?_
    simp only [Store.call, Store.watch]
    cases m.store.parse pattern with
    | error e => exact halert
    | ok a => exact halert.register h.inOrder.receivers a pattern m.store.tree
  | take id => exact h.of_alert (h.inOrder.call (.take id)) fun i stage halert => halert.take id
  | release id =>
    exact h.of_alert (h.inOrder.call (.release id)) fun i stage halert => halert.release hr id
  | drop id =>
    exact update (h.inOrder.call (.drop id)) (Registry.drop_alert m.store.registry id)
      fun i hi => (h.alert i).drop_of_ne hi
  | cancel id =>
    exact update (h.inOrder.call (.cancel id)) (Registry.cancel_alert m.store.registry id)
      fun i hi => (h.alert i).updateBell_of_ne hi .cancel
  | ask id =>
    rw [Interleaving.move]
    split
    · next hidle =>
      have hown := h.alert id
      rw [hidle] at hown
      exact update h.inOrder hown fun i _ => h.alert i
    · exact h
  | go id =>
    exact update (h.inOrder.goOn id _) ((h.alert id).goOn hr)
      fun i hi => (h.alert i).goOn_of_ne hi _

/-- A run keeps all consumers from missing anything. -/
theorem after (h : m.Wakeful) (moves : List Move) : (m.after moves).Wakeful := by
  induction moves generalizing m with
  | nil => exact h
  | cons move moves ih => exact ih (h.move move)

end Wakeful

/-- **No wake-up is lost.** After any interleaving of writes, registrations, looks into mailboxes,
releases and the steps of consumers, including those that give up: while a consumer is past its
look, be it that it turns to its bell or that it waits there, and no wake-up is outstanding, its
watch is registered and its mailbox is empty. -/
theorem no_lost_wakeup (scheme : String) (moves : List Move) (id : WatchId) :
    let m := (Interleaving.new scheme).after moves
    m.stage id = .turning → (m.store.registry.bell id).Still →
    ∃ w, m.store.registry.find? id = some w ∧ w.pending = none := by
  intro m hturning hstill
  have halert : m.store.registry.Alert id (m.stage id) :=
    ((Wakeful.new scheme).after moves).alert id
  rw [hturning] at halert
  exact halert.2 hstill

/-- A delivery between the look and the turn to the bell, where a ring is stored already, is taken
by a look of somebody else. The consumer answers the ring for nothing, and then waits. -/
theorem asleep_after_answered_ring :
    let m := (Interleaving.new "home").after [.watch "home://lamp", .take ⟨1⟩, .ask ⟨1⟩, .go ⟨1⟩,
      .write (.set "home://lamp" (.bool true) .unchecked), .go ⟨1⟩, .take ⟨1⟩, .go ⟨1⟩, .go ⟨1⟩]
    ∃ w, m.store.registry.find? ⟨1⟩ = some w ∧ w.pending = none := by
  have hbell : ((Interleaving.new "home").after [.watch "home://lamp", .take ⟨1⟩, .ask ⟨1⟩,
      .go ⟨1⟩, .write (.set "home://lamp" (.bool true) .unchecked), .go ⟨1⟩, .take ⟨1⟩, .go ⟨1⟩,
      .go ⟨1⟩]).store.registry.bell ⟨1⟩ = ⟨false, .parked⟩ := by cbv
  refine no_lost_wakeup "home" _ ⟨1⟩ (by cbv) ?_
  rw [hbell]
  exact ⟨rfl, by simp⟩

end Interleaving

end Switchboard
