import Mathlib
import Switchboard.Proofs.Store.Sound
/-!
# Which writes are delivered

A write that succeeds is delivered to a watch exactly if it touches something that the query of the
watch matches, before the write or after it: the target is such a node, is above one or below one
(`Store.delivered_iff_touches`). Nothing else happens to watches and bells.
-/

namespace Switchboard.Store

/-- **A write is delivered to those whom it concerns.** In every state of a run, a write at the
address `a` that succeeds puts a new result into the mailbox of a watch and rings its bell if and
only if some path that fits the pattern of the watch is related to that of `a` and has a node
before the write or after it. So a match that appears, disappears or is written again, be it with
an equal value, is delivered, and so is one with anything written below it or above it. All other
watches stay as they are, with their bells. -/
theorem delivered_iff_touches (scheme : String) (calls : List Call) (w : Write) (n : Nat)
    (s' : Store) (a : Address) (id : WatchId) (watch : Watch) :
    let s := (new scheme).after calls
    s.write w = (.ok n, s') → s.parseConcrete w.url = .ok a →
    s.registry.find? id = some watch →
    (Registry.Delivered s.registry s'.registry s'.tree id watch ↔
      Tree.Touches watch.pattern a.segments s.tree s'.tree) ∧
    (¬ Tree.Touches watch.pattern a.segments s.tree s'.tree →
      Registry.Undisturbed s.registry s'.registry id watch) := by
  intro s hwrite ha hfind
  have hsound := (Sound.new scheme).after calls
  have hnumbered := numbered_after (s := new scheme) Registry.Numbered.new calls
  have hfresh := hsound.fresh id watch (Registry.mem_of_find? hfind)
  obtain ⟨b, hwrote⟩ := write_wrote hwrite
  have hab : b = a := Except.ok.inj (hwrote.address.symm.trans ha)
  subst hab
  have hstale := hfresh.isStale_iff (hsound.renewed hwrote)
  have hregistry : s'.registry = s.registry.evaluate s'.tree :=
    congrArg Store.registry hwrote.state
  rw [hregistry]
  have hundisturbed : ¬ Tree.Touches watch.pattern b.segments s.tree s'.tree →
      Registry.Undisturbed s.registry (s.registry.evaluate s'.tree) id watch :=
    fun htouches => Registry.evaluate_undisturbed hnumbered hfind (mt hstale.1 htouches)
  refine ⟨⟨fun hdelivered => ?_, fun htouches => ?_⟩, hundisturbed⟩
  · exact Classical.byContradiction fun htouches =>
      hdelivered.not_undisturbed (hundisturbed htouches)
  · exact Registry.evaluate_delivered hnumbered hfind hfresh (hstale.2 htouches)

/-- A watch of all lamps, one of which is there: that it is removed is delivered, and that a door is
written is not. -/
theorem lamp_delivered_door_not :
    let s := (new "status").after [.write (.set "status://lamp/hall" (.bool true) .unchecked),
      .watch "status://lamp/*", .take ⟨1⟩]
    let watch : Watch :=
      ⟨⟨"status", ["lamp", "*"]⟩, "status://lamp/*", [("status://lamp/hall", 1)], none⟩
    let s₁ := (s.write (.remove "status://lamp/hall" .unchecked)).2
    let s₂ := (s.write (.set "status://door" (.bool true) .unchecked)).2
    Registry.Delivered s.registry s₁.registry s₁.tree ⟨1⟩ watch ∧
      Registry.Undisturbed s.registry s₂.registry ⟨1⟩ watch := by
  have hfind : ((new "status").after [.write (.set "status://lamp/hall" (.bool true) .unchecked),
      .watch "status://lamp/*", .take ⟨1⟩]).registry.find? ⟨1⟩ =
    some ⟨⟨"status", ["lamp", "*"]⟩, "status://lamp/*", [("status://lamp/hall", 1)], none⟩ := by cbv
  have hlamp : ((new "status").after
      [.write (.set "status://lamp/hall" (.bool true) .unchecked),
        .watch "status://lamp/*", .take ⟨1⟩]).parseConcrete "status://lamp/hall" =
    .ok ⟨"status", ["lamp", "hall"]⟩ := by cbv
  have hdoor : ((new "status").after
      [.write (.set "status://lamp/hall" (.bool true) .unchecked),
        .watch "status://lamp/*", .take ⟨1⟩]).parseConcrete "status://door" =
    .ok ⟨"status", ["door"]⟩ := by cbv
  have hremoved : (((new "status").after
      [.write (.set "status://lamp/hall" (.bool true) .unchecked),
        .watch "status://lamp/*", .take ⟨1⟩]).write
    (.remove "status://lamp/hall" .unchecked)).1 = .ok 2 := by
    rw [fst_write_remove hlamp]
    cbv
  have hwritten : (((new "status").after
      [.write (.set "status://lamp/hall" (.bool true) .unchecked),
        .watch "status://lamp/*", .take ⟨1⟩]).write
    (.set "status://door" (.bool true) .unchecked)).1 = .ok 2 := by
    rw [fst_write_set hdoor]
    cbv
  have hthere : (((new "status").after
      [.write (.set "status://lamp/hall" (.bool true) .unchecked),
        .watch "status://lamp/*", .take ⟨1⟩]).tree.root.get? ["lamp", "hall"]).isSome = true := by
    cbv
  refine ⟨(delivered_iff_touches "status" _ _ 2 _ _ _ _ (eq_mk_of_fst_eq hremoved) hlamp hfind).1.2
      ⟨["lamp", "hall"], ?_, .inl (List.prefix_refl _), .inl hthere⟩,
    (delivered_iff_touches "status" _ _ 2 _ _ _ _ (eq_mk_of_fst_eq hwritten) hdoor hfind).2 ?_⟩
  · exact ⟨.inr rfl, .inl rfl, trivial⟩
  · rintro ⟨q, hfits, hrelated, -⟩
    cases q with
    | nil => cases hfits
    | cons name path =>
      obtain ⟨rfl, -⟩ := Related.cons_iff.1 hrelated
      exact absurd hfits.1 (by decide)

end Switchboard.Store
