import Switchboard.Proofs.Condition.Offences
import Switchboard.Proofs.Tree.Independent
/-!
# When a value is written

A value is written if its address names one node of the store, only containers stand above that
node, the precondition holds of it, and the value can be stored (`Store.Admits`). All that stands
against a write is listed by `Store.offences`, in the order in which it is met: first what is wrong
with the address, then with the nodes above the target, with the target, and with the value. A value
is written if there is nothing, and else it is refused for the first offence
(`Store.written_or_refused`).
-/

namespace Switchboard

/-! ## The target -/

namespace Precondition

variable {p : Precondition} {target : Address} {current : Option Nat}

/-- The precondition holds of a target that has this revision, if it is there. -/
def HoldsOf (current : Option Nat) : Precondition → Prop
  | unchecked => True
  | mustNotExist => current = none
  | exact revision => revision.toNat = current.getD 0

/-- What stands against a write with this precondition. -/
def offences (target : Address) (current : Option Nat) : Precondition → List StoreError
  | unchecked => []
  | mustNotExist => if current = none then [] else [.alreadyExists target.text]
  | exact revision =>
    if revision.toNat = current.getD 0 then []
    else [.revisionMismatch target.text revision.toNat (current.getD 0)]

theorem offences_eq_nil_iff : p.offences target current = [] ↔ p.HoldsOf current := by
  cases p <;> simp [offences, HoldsOf]

theorem refusal?_check : refusal? (p.check target current) = (p.offences target current).head? := by
  cases p with
  | unchecked => rfl
  | mustNotExist => cases current <;> rfl
  | exact revision =>
    rw [check, offences]
    split <;> rfl

end Precondition

/-! ## The nodes above the target -/

namespace Node

variable {node : Node} {path : List String} {depth : Nat}

/-- The node has no children and cannot have any. -/
def isLeaf : Node → Bool
  | leaf .. => true
  | container .. => false

/-- A walk is blocked by a leaf above the end of its path. -/
theorem blockedAt_iff : node.BlockedAt path depth ↔
    depth < path.length ∧ (node.get? (path.take depth)).any isLeaf = true := by
  constructor
  · rintro ⟨parents, name, rest, _, rfl, rfl, hleaf, n, held, rfl⟩
    refine ⟨by simp, ?_⟩
    rw [List.take_left, hleaf]
    rfl
  · rintro ⟨hdepth, hleaf⟩
    obtain ⟨part, hpart, hleaf⟩ := (Option.any_eq_true _ _).1 hleaf
    cases part with
    | container => cases hleaf
    | leaf n held =>
      refine ⟨path.take depth, path[depth], path.drop (depth + 1), _, ?_,
        List.length_take_of_le (Nat.le_of_lt hdepth), hpart, n, held, rfl⟩
      rw [List.getElem_cons_drop, List.take_append_drop]

end Node

namespace Tree

variable {t : Tree} {target : Address} {v : Json} {expected : Precondition}

/-- Only containers stand above the target, as far as anything does. -/
def IsClear (t : Tree) (target : Address) : Prop :=
  ∀ above part, above <+: target.segments → above ≠ target.segments →
    t.root.get? above = some part → ∃ n children, part = .container n children

/-- The leaves that stand above the target. -/
def obstacles (t : Tree) (target : Address) : List StoreError :=
  ((List.range target.segments.length).filter fun depth =>
    (t.root.get? (target.ancestor depth).segments).any Node.isLeaf).map fun depth =>
      .notContainer (target.ancestor depth).text

/-- What stands against writing a value to a tree. -/
def offences (t : Tree) (target : Address) (v : Json) (expected : Precondition) :
    List StoreError :=
  t.obstacles target ++
    (expected.offences target ((t.root.get? target.segments).map Node.revision) ++
      v.offences target)

theorem obstacles_eq_nil_iff : t.obstacles target = [] ↔ t.IsClear target := by
  rw [obstacles, List.map_eq_nil_iff, List.filter_eq_nil_iff]
  constructor
  · intro h above part habove hne hpart
    have hlt : above.length < target.segments.length := by
      refine Nat.lt_of_le_of_ne habove.length_le fun hlength => hne ?_
      exact habove.eq_of_length hlength
    have hnot := h above.length (List.mem_range.2 hlt)
    rw [Address.ancestor, ← List.prefix_iff_eq_take.1 habove, hpart] at hnot
    cases part with
    | leaf => exact absurd rfl hnot
    | container n children => exact ⟨n, children, rfl⟩
  · intro h depth hdepth hleaf
    have hlt := List.mem_range.1 hdepth
    obtain ⟨part, hpart, hleaf⟩ := (Option.any_eq_true _ _).1 hleaf
    have hne : (target.ancestor depth).segments ≠ target.segments := fun heq => by
      have hlength := congrArg List.length heq
      rw [Address.ancestor, List.length_take] at hlength
      omega
    obtain ⟨n, children, rfl⟩ := h _ part (List.take_prefix _ _) hne hpart
    cases hleaf

/-- A leaf above the target is the only one, and the walk of a write stops there. -/
theorem refusal?_probe (t : Tree) (target : Address) :
    refusal? (t.probe target) = (t.obstacles target).head? := by
  have hleaf : ∀ depth, depth < target.segments.length ∧
      (t.root.get? (target.ancestor depth).segments).any Node.isLeaf = true ↔
        t.root.find target.segments = .error (.notContainer depth) := fun depth => by
    rw [Node.find_eq_notContainer_iff, Node.blockedAt_iff]
    rfl
  have hnone : (∀ depth, t.root.find target.segments ≠ .error (.notContainer depth)) →
      t.obstacles target = [] := fun hclear => by
    rw [obstacles, List.map_eq_nil_iff, List.filter_eq_nil_iff]
    exact fun depth hdepth hblocked =>
      hclear depth ((hleaf depth).1 ⟨List.mem_range.1 hdepth, hblocked⟩)
  rw [probe, Node.probe_eq_find]
  cases hfind : t.root.find target.segments with
  | ok part =>
    rw [hnone (by simp [hfind])]
    rfl
  | error o =>
    cases o with
    | missing depth =>
      rw [hnone (by simp [hfind])]
      rfl
    | notContainer depth =>
      obtain ⟨hdepth, hblocked⟩ := (hleaf depth).2 hfind
      have hfirst : (List.range target.segments.length).find? (fun depth =>
          (t.root.get? (target.ancestor depth).segments).any Node.isLeaf) = some depth := by
        refine List.find?_range_eq_some.2 ⟨hblocked, List.mem_range.2 hdepth, fun i hi => ?_⟩
        rw [Bool.not_eq_true', ← Bool.not_eq_true]
        intro hother
        have hboth := (hleaf i).1 ⟨Nat.lt_trans hi hdepth, hother⟩
        rw [hfind] at hboth
        cases hboth
        exact Nat.lt_irrefl _ hi
      rw [obstacles, List.head?_map, List.head?_filter, hfirst]
      rfl

/-- A value that is not written is refused for the first offence. -/
theorem refusal?_set (t : Tree) (target : Address) (v : Json) (expected : Precondition) :
    refusal? (t.set target v expected).1 = (t.offences target v expected).head? := by
  rw [offences, List.head?_append, List.head?_append, ← refusal?_probe,
    ← Precondition.refusal?_check, ← Node.refusal?_ofJson (t.revision + 1)]
  rw [set]
  cases hprobe : t.probe target with
  | error e => rfl
  | ok current =>
    rw [← Node.probe_eq_ok (mapError_eq_ok_iff.1 hprobe)]
    dsimp only
    cases hcheck : expected.check target current with
    | error e => rfl
    | ok _ =>
      dsimp only
      cases hnode : Node.ofJson (t.revision + 1) target v with
      | error e => rfl
      | ok node =>
        refine refusal?_eq_none_iff.2 ⟨t.revision + 1, commit_ok fun parents name hsegments => ?_⟩
        exact Node.stamp_ok_of_probe (hsegments ▸ mapError_eq_ok_iff.1 hprobe)

end Tree

/-! ## A write to a store -/

namespace Store

variable {s : Store} {url : String} {v : Json} {expected : Precondition} {a : Address}

/-- The value can be written at `a`, which is the address that the text spells. -/
structure Admits (s : Store) (url : String) (v : Json) (expected : Precondition) (a : Address) :
    Prop where
  /-- The text is an address. -/
  parses : Address.parse url = .ok a
  /-- The address belongs to the store. -/
  scheme : a.scheme = s.scheme
  /-- It names one node. -/
  concrete : Address.wildcard ∉ a.segments
  /-- Only containers stand above the target. -/
  clear : s.tree.IsClear a
  /-- The precondition holds of the target. -/
  expected : expected.HoldsOf ((s.tree.root.get? a.segments).map Node.revision)
  /-- The value can be stored. -/
  storable : v.IsStorable

/-- What stands against writing a value, in the order in which it is met. -/
def offences (s : Store) (url : String) (v : Json) (expected : Precondition) : List StoreError :=
  Address.offences s.scheme url ++
    match Address.parse url with
    | .error _ => []
    | .ok a =>
      (if a.hasWildcard then [.wildcardNotAllowed a.text] else []) ++
        s.tree.offences a v expected

/-- A value can be written if nothing stands against it. -/
theorem offences_eq_nil_iff :
    s.offences url v expected = [] ↔ ∃ a, s.Admits url v expected a := by
  rw [offences, List.append_eq_nil_iff, Address.offences_eq_nil_iff]
  constructor
  · rintro ⟨⟨a, hparse, hscheme⟩, h⟩
    rw [hparse, List.append_eq_nil_iff] at h
    obtain ⟨hwild, htree⟩ := h
    rw [Tree.offences, List.append_eq_nil_iff, List.append_eq_nil_iff, Tree.obstacles_eq_nil_iff,
      Precondition.offences_eq_nil_iff, Json.offences_eq_nil_iff] at htree
    obtain ⟨hclear, hexpected, hstorable⟩ := htree
    have hconcrete : a.hasWildcard = false := by
      cases hwildcard : a.hasWildcard with
      | false => rfl
      | true => simp [hwildcard] at hwild
    exact ⟨a, hparse, hscheme, Address.hasWildcard_eq_false_iff.1 hconcrete, hclear, hexpected,
      hstorable⟩
  · rintro ⟨a, h⟩
    refine ⟨⟨a, h.parses, h.scheme⟩, ?_⟩
    rw [h.parses]
    simp only [Address.hasWildcard_eq_false_iff.2 h.concrete, Bool.false_eq_true, if_false,
      List.nil_append, Tree.offences, Tree.obstacles_eq_nil_iff.2 h.clear,
      Precondition.offences_eq_nil_iff.2 h.expected, (Json.offences_eq_nil_iff a v).2 h.storable]

/-- A value that is not written is refused for the first offence. -/
theorem refusal?_set (s : Store) (url : String) (v : Json) (expected : Precondition) :
    refusal? (s.set url v expected).1 = (s.offences url v expected).head? := by
  rw [offences, List.head?_append, ← refusal?_parse, set, parseConcrete]
  cases hparse : s.parse url with
  | error e => rfl
  | ok a =>
    rw [(parse_eq_ok hparse).1]
    dsimp only
    rw [Address.requireConcrete]
    cases a.hasWildcard with
    | true => rfl
    | false =>
      show refusal? (s.written (s.tree.set a v expected)).1 = (s.tree.offences a v expected).head?
      rw [fst_written, Tree.refusal?_set]

/-- **When a value is written.** Whatever the store, the text, the value and the precondition: the
value is written, with the next revision, if and only if the text spells an address of the store
that names one node, only containers stand above the target, the precondition holds of it and the
value can be stored. Else the write is refused for the first thing that stands against it. -/
theorem written_or_refused (s : Store) (url : String) (v : Json) (expected : Precondition) :
    (∀ n, (s.set url v expected).1 = .ok n ↔
      (∃ a, s.Admits url v expected a) ∧ n = s.revision + 1) ∧
    ∀ e, (s.set url v expected).1 = .error e ↔ (s.offences url v expected).head? = some e := by
  refine ⟨fun n => ?_, fun e => by rw [← refusal?_set, refusal?_eq_some_iff]⟩
  have hnext : ∀ m, (s.set url v expected).1 = .ok m → m = s.revision + 1 := fun m h => by
    obtain ⟨_, hwrote⟩ := set_wrote (eq_mk_of_fst_eq h)
    exact hwrote.revision_eq
  have hwritten : (∃ m, (s.set url v expected).1 = .ok m) ↔ ∃ a, s.Admits url v expected a := by
    rw [← refusal?_eq_none_iff, refusal?_set, List.head?_eq_none_iff, offences_eq_nil_iff]
  constructor
  · exact fun h => ⟨hwritten.1 ⟨n, h⟩, hnext n h⟩
  · rintro ⟨hadmits, rfl⟩
    obtain ⟨m, hm⟩ := hwritten.2 hadmits
    rw [hm, hnext m hm]

/-- A text, a precondition and a value that are all at fault: the wildcard is met first. -/
example : ((Store.new "status").set "status://lamp/*" (.object [("*", .null)]) (.exact 1)).1 =
    .error (.wildcardNotAllowed "status://lamp/*") := by cbv

end Store

end Switchboard
