import Switchboard.Proofs.Tree.Paths
/-!
# Where a walk stops

A walk that does not arrive has met a leaf though its path goes on (`Node.BlockedAt`), or a
container that has no child of the next name (`Node.EndsAt`). What the walk reports is just that,
with the number of steps that it has made (`Node.find_eq_notContainer_iff`,
`Node.find_eq_missing_iff`).
-/

namespace Switchboard.Node

variable {node child : Node} {path rest : List String} {name : String} {depth n : Nat}
  {held : Leaf} {cs : List (String × Node)} {stop : Node → String → Prop}

/-- After `depth` steps along the path there is a node at which it `stop`s to look for the next
name. -/
def StopsAt (stop : Node → String → Prop) (path : List String) (depth : Nat) (node : Node) : Prop :=
  ∃ parents name rest last, path = parents ++ name :: rest ∧ parents.length = depth ∧
    node.get? parents = some last ∧ stop last name

/-- After `depth` steps along the path there is a leaf, though the path goes on. -/
def BlockedAt (path : List String) (depth : Nat) (node : Node) : Prop :=
  StopsAt (fun last _ => ∃ n held, last = leaf n held) path depth node

/-- After `depth` steps along the path there is a container without the next child. -/
def EndsAt (path : List String) (depth : Nat) (node : Node) : Prop :=
  StopsAt (fun last name => ∃ n cs, last = container n cs ∧ cs.lookup name = none) path depth node

theorem not_stopsAt_nil : ¬ StopsAt stop [] depth node := by
  rintro ⟨parents, name, rest, last, hpath, -⟩
  cases parents <;> cases hpath

/-- A walk stops where it starts or on the way from the first child. -/
theorem stopsAt_cons_iff :
    StopsAt stop (name :: rest) depth node ↔ (depth = 0 ∧ stop node name) ∨
      ∃ child below, node.children.lookup name = some child ∧ depth = below + 1 ∧
        StopsAt stop rest below child := by
  constructor
  · rintro ⟨parents, next, behind, last, hpath, hlength, hlast, hstop⟩
    cases parents with
    | nil =>
      obtain ⟨rfl, -⟩ := List.cons_eq_cons.1 hpath
      cases hlast
      exact .inl ⟨hlength.symm, hstop⟩
    | cons first parents =>
      obtain ⟨rfl, hrest⟩ := List.cons_eq_cons.1 hpath
      rw [get?_cons, Option.bind_eq_some_iff] at hlast
      obtain ⟨child, hchild, hlast⟩ := hlast
      exact .inr ⟨child, parents.length, hchild, hlength.symm, parents, next, behind, last, hrest,
        rfl, hlast, hstop⟩
  · rintro (⟨rfl, hstop⟩ | ⟨child, below, hchild, rfl, parents, next, behind, last, rfl, rfl, hlast,
      hstop⟩)
    · exact ⟨[], name, rest, node, rfl, rfl, rfl, hstop⟩
    · refine ⟨name :: parents, next, behind, last, rfl, rfl, ?_, hstop⟩
      rw [get?_cons, hchild]
      exact hlast

/-- A report comes from a report. -/
theorem mapError_eq_error_iff {α ε δ : Type} {x : Except ε α} {f : ε → δ} {e : δ} :
    x.mapError f = .error e ↔ ∃ e', x = .error e' ∧ f e' = e := by
  cases x with
  | ok a =>
    show Except.ok a = .error e ↔ _
    simp
  | error e' =>
    show Except.error (f e') = .error e ↔ _
    simp

/-- A walk reports a leaf exactly if there is one on its way. -/
theorem find_eq_notContainer_iff :
    node.find path = .error (.notContainer depth) ↔ node.BlockedAt path depth := by
  induction path generalizing node depth with
  | nil => exact ⟨nofun, fun h => absurd h not_stopsAt_nil⟩
  | cons name rest ih =>
    rw [BlockedAt, stopsAt_cons_iff]
    cases node with
    | leaf n held => simp [find, eq_comm]
    | container n cs =>
      rw [find]
      cases hchild : cs.lookup name with
      | none => simp [hchild]
      | some child =>
        constructor
        · intro h
          obtain ⟨o, ho, hdeeper⟩ := mapError_eq_error_iff.1 h
          cases o with
          | missing below => cases hdeeper
          | notContainer below =>
            cases hdeeper
            exact .inr ⟨child, below, hchild, rfl, ih.1 ho⟩
        · rintro (⟨-, _, _, hleaf⟩ | ⟨child', below, hchild', rfl, hstops⟩)
          · cases hleaf
          · cases hchild.symm.trans hchild'
            exact mapError_eq_error_iff.2 ⟨_, ih.2 hstops, rfl⟩

/-- A walk reports a missing child, one step further down, exactly if there is no such child on its
way. -/
theorem find_eq_missing_iff :
    node.find path = .error (.missing depth) ↔
      ∃ steps, depth = steps + 1 ∧ node.EndsAt path steps := by
  induction path generalizing node depth with
  | nil => exact ⟨nofun, fun ⟨_, _, h⟩ => absurd h not_stopsAt_nil⟩
  | cons name rest ih =>
    simp only [EndsAt, stopsAt_cons_iff]
    cases node with
    | leaf n held => simp [find]
    | container n cs =>
      rw [find]
      cases hchild : cs.lookup name with
      | none =>
        constructor
        · rintro ⟨⟩
          exact ⟨0, rfl, .inl ⟨rfl, n, cs, rfl, hchild⟩⟩
        · rintro ⟨steps, rfl, ⟨rfl, -⟩ | ⟨child, below, hchild', -⟩⟩
          · rfl
          · cases hchild.symm.trans hchild'
      | some child =>
        constructor
        · intro h
          obtain ⟨o, ho, hdeeper⟩ := mapError_eq_error_iff.1 h
          cases o with
          | notContainer below => cases hdeeper
          | missing below =>
            cases hdeeper
            obtain ⟨steps, rfl, hends⟩ := ih.1 ho
            exact ⟨steps + 1, rfl, .inr ⟨child, steps, hchild, rfl, hends⟩⟩
        · rintro ⟨steps, rfl, ⟨-, _, _, hcontainer, hnone⟩ | ⟨child', below, hchild', rfl, hends⟩⟩
          · cases hcontainer
            cases hnone.symm.trans hchild
          · cases hchild.symm.trans hchild'
            exact mapError_eq_error_iff.2 ⟨_, ih.2 ⟨below, rfl, hends⟩, rfl⟩

theorem exists_blockedAt_iff :
    (∃ steps, node.BlockedAt path steps) ↔ ∃ depth, node.find path = .error (.notContainer depth) :=
  exists_congr fun _ => find_eq_notContainer_iff.symm

theorem exists_endsAt_iff :
    (∃ steps, node.EndsAt path steps) ↔ ∃ depth, node.find path = .error (.missing depth) := by
  simp only [find_eq_missing_iff]
  exact ⟨fun ⟨steps, h⟩ => ⟨_, steps, rfl, h⟩, fun ⟨_, steps, _, h⟩ => ⟨steps, h⟩⟩

end Switchboard.Node
