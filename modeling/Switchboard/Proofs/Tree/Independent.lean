import Switchboard.Proofs.Tree.Alike
import Switchboard.Proofs.Tree.Obstacles
/-!
# Writes at unrelated paths

A write goes through the nodes above its target and may make some of them, so a walk to another
target can come further down after it. It does not come to anything else, though: to the same node,
to a leaf at the same place, or to a missing child (`Written.sameWalk`). So what a write finds at
its target does not depend on a write elsewhere, and two writes leave alike trees in either order
(`Written.alike`).
-/

namespace Switchboard

/-- Unrelated paths are unrelated from either side. -/
theorem Related.symm {p q : List String} (h : Related p q) : Related q p :=
  Or.symm h

/-- Two paths that lead to the same end are related. -/
theorem Related.of_isPrefix {p q r : List String} (hp : p <+: r) (hq : q <+: r) : Related p q :=
  List.prefix_or_prefix_of_prefix hp hq

namespace Node

variable {n m k l depth : Nat} {p q r path : List String} {node old new a b ab ba part : Node}
  {left leftP leftP' leftQ leftQ' : Option Node} {held : Leaf}

/-! ## Walks -/

/-- Two walks have come to the same, except that a child may be missing further down or up. -/
inductive SameWalk : Except Obstacle Node → Except Obstacle Node → Prop
  | found (part : Node) : SameWalk (.ok part) (.ok part)
  | blocked (depth : Nat) : SameWalk (.error (.notContainer depth)) (.error (.notContainer depth))
  | missed (depth depth' : Nat) : SameWalk (.error (.missing depth)) (.error (.missing depth'))

/-- The walk of a write goes where a search goes, and finds nothing where a child is missing. -/
theorem probe_eq_find : node.probe path =
    match node.find path with
    | .ok part => .ok (some part.revision)
    | .error (.missing _) => .ok none
    | .error (.notContainer depth) => .error (.notContainer depth) := by
  induction path generalizing node with
  | nil => cases node <;> rfl
  | cons name rest ih =>
    cases node with
    | leaf => rfl
    | container n cs =>
      simp only [probe, find]
      cases cs.lookup name with
      | none => rfl
      | some child =>
        simp only [ih]
        cases child.find rest with
        | ok part => rfl
        | error o => cases o <;> rfl

/-- To the walk of a write it makes no difference where a child is missing. -/
theorem SameWalk.probe_eq (h : SameWalk (old.find path) (new.find path)) :
    old.probe path = new.probe path := by
  rw [probe_eq_find, probe_eq_find]
  generalize old.find path = walk, new.find path = walk' at h
  cases h <;> rfl

/-- A leaf on the way to an unrelated path stays, and a write makes none. -/
theorem Written.get?_leaf_iff (h : Written n p left old new)
    (hclear : ∀ depth, ¬ old.BlockedAt p depth) (hpq : ¬ Related p q) (hr : r <+: q) :
    new.get? r = some (leaf m held) ↔ old.get? r = some (leaf m held) := by
  by_cases hpr : Related p r
  · rcases hpr.cases with ⟨s, rfl⟩ | ⟨name, rest, hp⟩
    · exact absurd (.inl ((List.prefix_append p s).trans hr)) hpq
    · obtain ⟨cs, hnew, -⟩ := h.above r name rest hp
      constructor
      · intro hleaf
        rw [hnew] at hleaf
        cases hleaf
      · intro hleaf
        exact absurd ⟨r, name, rest, _, hp, rfl, hleaf, m, held, rfl⟩ (hclear r.length)
  · rw [h.beside r hpr]

/-- A walk to an unrelated path is blocked after a write exactly if it was before. -/
theorem Written.blockedAt_iff (h : Written n p left old new)
    (hclear : ∀ depth, ¬ old.BlockedAt p depth) (hpq : ¬ Related p q) :
    new.BlockedAt q depth ↔ old.BlockedAt q depth := by
  constructor
  · rintro ⟨r, name, rest, _, rfl, rfl, hleaf, m, held, rfl⟩
    exact ⟨r, name, rest, _, rfl, rfl,
      (h.get?_leaf_iff hclear hpq (List.prefix_append _ _)).1 hleaf, m, held, rfl⟩
  · rintro ⟨r, name, rest, _, rfl, rfl, hleaf, m, held, rfl⟩
    exact ⟨r, name, rest, _, rfl, rfl,
      (h.get?_leaf_iff hclear hpq (List.prefix_append _ _)).2 hleaf, m, held, rfl⟩

/-- A walk to an unrelated path comes to the same before and after a write. -/
theorem Written.sameWalk (h : Written n p left old new)
    (hclear : ∀ depth, ¬ old.BlockedAt p depth) (hpq : ¬ Related p q) :
    SameWalk (old.find q) (new.find q) := by
  have hsame : new.get? q = old.get? q := h.beside q hpq
  cases hold : old.find q with
  | ok part =>
    rw [find_eq_ok_iff.2 (hsame.trans (find_eq_ok_iff.1 hold))]
    exact .found part
  | error o =>
    cases o with
    | notContainer depth =>
      have hblocked := (h.blockedAt_iff hclear hpq).2 (find_eq_notContainer_iff.1 hold)
      rw [find_eq_notContainer_iff.2 hblocked]
      exact .blocked depth
    | missing depth =>
      cases hnew : new.find q with
      | ok part =>
        rw [find_eq_ok_iff, hsame, ← find_eq_ok_iff, hold] at hnew
        cases hnew
      | error o =>
        cases o with
        | notContainer depth' =>
          have hblocked := (h.blockedAt_iff hclear hpq).1 (find_eq_notContainer_iff.1 hnew)
          rw [find_eq_notContainer_iff.2 hblocked] at hold
          cases hold
        | missing depth' => exact .missed depth depth'

/-! ## Two writes -/

/-- Above the target of a write stand containers. -/
theorem Written.leafValue?_above (h : Written n p left old new) {name : String}
    {rest : List String} (hp : p = r ++ name :: rest) :
    (new.get? r).map leafValue? = some none := by
  obtain ⟨cs, hnew, -⟩ := h.above r name rest hp
  rw [hnew]
  rfl

/-- On the paths related to the target `q` of one of two writes stands the same, whether that write
is the second one or the first. -/
theorem Written.alike_at (hpq : ¬ Related p q) (hab : Written n q leftQ a ab)
    (hb : Written k q leftQ' old b) (hba : Written l p leftP' b ba)
    (hleft : Option.Rel Alike leftQ leftQ') (hr : Related q r) :
    (ab.get? r).map leafValue? = (ba.get? r).map leafValue? := by
  rcases hr.cases with ⟨s, rfl⟩ | ⟨name, rest, hq⟩
  · -- The other write is beside all that is at the target or below it.
    have hbeside : ¬ Related p (q ++ s) := by
      rintro (hpre | hpre)
      · exact hpq (.of_isPrefix hpre (List.prefix_append q s))
      · exact hpq (.inr ((List.prefix_append q s).trans hpre))
    rw [hab.below s, hba.beside _ hbeside, hb.below s]
    cases hleft with
    | none => rfl
    | some halike => exact halike s
  · rw [hab.leafValue?_above hq]
    by_cases hp : Related p r
    · rcases hp.cases with ⟨s, rfl⟩ | ⟨step, more, hp⟩
      · exact absurd (.inl ⟨s ++ name :: rest, by rw [hq, List.append_assoc]⟩) hpq
      · rw [hba.leafValue?_above hp]
    · rw [hba.beside r hp, hb.leafValue?_above hq]

/-- Two writes at unrelated paths leave alike trees in either order, if each leaves the same at its
target in either order. -/
theorem Written.alike (hpq : ¬ Related p q)
    (ha : Written n p leftP old a) (hab : Written m q leftQ a ab)
    (hb : Written k q leftQ' old b) (hba : Written l p leftP' b ba)
    (hleftP : Option.Rel Alike leftP leftP') (hleftQ : Option.Rel Alike leftQ leftQ') :
    ab.Alike ba := by
  intro r
  by_cases hq : Related q r
  · exact alike_at hpq hab hb hba hleftQ hq
  · by_cases hp : Related p r
    · have hleftP' : Option.Rel Alike leftP' leftP := by
        cases hleftP with
        | none => exact .none
        | some halike => exact .some halike.symm
      exact (alike_at (fun h => hpq h.symm) hba ha hab hleftP' hp).symm
    · rw [hab.beside r hq, ha.beside r hp, hba.beside r hp, hb.beside r hq]

end Node

end Switchboard
