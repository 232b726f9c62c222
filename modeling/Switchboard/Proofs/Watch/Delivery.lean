import Switchboard.Proofs.Watch.Fresh
import Switchboard.Proofs.Watch.Numbers
/-!
# Deliveries

After a write every watch is evaluated. A watch that was up to date is stale exactly if the write
has touched something that its query matches, before or after (`Watch.Fresh.isStale_iff`). A stale
watch delivers, which puts a new result into its mailbox and rings its bell (`Registry.Delivered`);
any other watch and its bell stay as they are (`Registry.Undisturbed`).
-/

namespace Switchboard

/-- A write makes a watch stale exactly if it touches something that its query matches. -/
theorem Watch.Fresh.isStale_iff {scheme : String} {t t' : Tree} {w : Watch} {n : Nat}
    {p : List String} (h : w.Fresh scheme t) (hw : Tree.Renewed n p t t') :
    w.isStale t' = true ↔ Tree.Touches w.pattern p t t' := by
  have hpattern := Address.wellFormed_of_parse h.key
  rw [isStale, decide_eq_true_iff, h.lastSeen]
  constructor
  · intro hne
    refine Classical.byContradiction fun htouches => hne ?_
    exact congrArg Matches.revisions (hw.expand_eq_of_not_touches hpattern htouches)
  · exact hw.revisions_expand_ne hpattern

namespace Registry

variable {r : Registry} {id : WatchId} {w : Watch} {t : Tree}

/-! ## What an evaluation does under a number -/

theorem find?_evaluate (r : Registry) (t : Tree) (id : WatchId) :
    (r.evaluate t).find? id = (r.find? id).map (·.evaluate t) :=
  Keyed.lookup_map r.watches (fun _ w => w.evaluate t) id

/-- The bell of a receiver after an evaluation: that of a stale watch is rung. -/
def rung (r : Registry) (t : Tree) (id : WatchId) (b : Bell) : Bell :=
  if (r.find? id).any (·.isStale t) then b.ring else b

theorem bell_evaluate (hreceiver : id ∈ r.receivers) :
    (r.evaluate t).bell id = r.rung t id (r.bell id) := by
  have hlookup : (r.evaluate t).bells.lookup id = (r.bells.lookup id).map (r.rung t id) :=
    Keyed.lookup_map r.bells (r.rung t) id
  obtain ⟨b, hb⟩ := Keyed.mem_keys_iff.1 hreceiver
  rw [bell, bell, hlookup, hb, Option.map_some, Option.getD_some, Option.getD_some]

/-! ## Deliveries -/

/-- From `r` to `r'`, the watch `w` was handed its result in the tree `t`. -/
structure Delivered (r r' : Registry) (t : Tree) (id : WatchId) (w : Watch) : Prop where
  /-- The watch has seen the result, which is in its mailbox. -/
  watch : r'.find? id =
    some { w with lastSeen := (w.result t).revisions, pending := some (w.result t) }
  /-- It is not what was in the mailbox before. -/
  new : w.pending ≠ some (w.result t)
  /-- The consumer that waits at the bell is woken, or the ring is stored. -/
  bell : r'.bell id = (r.bell id).ring

/-- From `r` to `r'`, nothing happened to the watch `w`. -/
structure Undisturbed (r r' : Registry) (id : WatchId) (w : Watch) : Prop where
  watch : r'.find? id = some w
  bell : r'.bell id = r.bell id

theorem Numbered.mem_receivers (h : r.Numbered) (hw : r.find? id = some w) : id ∈ r.receivers :=
  h.receivers id (List.mem_map_of_mem (mem_of_find? hw))

/-- A stale watch delivers. What was in its mailbox was the result that it had seen. -/
theorem evaluate_delivered {scheme : String} {before : Tree} (h : r.Numbered)
    (hw : r.find? id = some w) (hfresh : w.Fresh scheme before) (hstale : w.isStale t = true) :
    Delivered r (r.evaluate t) t id w where
  watch := by
    rw [find?_evaluate, hw, Option.map_some, Watch.evaluate, if_pos hstale]
  new := by
    intro hpending
    -- A watch has seen what is in its mailbox, and a stale one has not seen its result.
    have hseen : w.lastSeen = (w.result t).revisions := by
      rw [hfresh.pending _ hpending, hfresh.lastSeen]
    rw [Watch.isStale, decide_eq_true_iff] at hstale
    exact hstale hseen
  bell := by
    rw [bell_evaluate (h.mem_receivers hw), rung, hw, Option.any_some, if_pos hstale]

theorem evaluate_undisturbed (h : r.Numbered) (hw : r.find? id = some w)
    (hstale : ¬ w.isStale t = true) : Undisturbed r (r.evaluate t) id w where
  watch := by
    rw [find?_evaluate, hw, Option.map_some, Watch.evaluate, if_neg hstale]
  bell := by
    rw [bell_evaluate (h.mem_receivers hw), rung, hw, Option.any_some, if_neg hstale]

theorem Delivered.not_undisturbed {r' : Registry} (h : Delivered r r' t id w) :
    ¬ Undisturbed r r' id w := by
  intro hsame
  have hwatch := hsame.watch.symm.trans h.watch
  exact h.new (congrArg Watch.pending (Option.some.inj hwatch))

end Registry

end Switchboard
