import Switchboard.Tree.Walk
import Switchboard.Proofs.Keyed
/-!
# Reading along paths

A tree is seen through `Node.get?`, the node at the end of a path. Two paths are related
(`Related`) if one of them leads through the end of the other, so the paths related to `p` are
those to the nodes above the end of `p`, to that node itself and to the nodes below it.

A walk that arrives has found what `Node.get?` sees (`find_eq_ok_iff`), and a walk that a write
makes has found its revision, or that it is missing (`probe_eq_ok`).
-/

namespace Switchboard

/-- A report is retold only where there is one. -/
theorem mapError_eq_ok_iff {α ε δ : Type} {x : Except ε α} {f : ε → δ} {a : α} :
    x.mapError f = .ok a ↔ x = .ok a := by
  cases x with
  | error => exact ⟨nofun, nofun⟩
  | ok b =>
    constructor
    · rintro ⟨⟩
      rfl
    · rintro ⟨⟩
      rfl

/-- One of the two paths leads through the end of the other. -/
def Related (p q : List String) : Prop :=
  p <+: q ∨ q <+: p

instance (p q : List String) : Decidable (Related p q) :=
  inferInstanceAs (Decidable (_ ∨ _))

namespace Related

variable {p q : List String} {a b : String}

/-- Related paths take the same first step. -/
theorem cons_iff : Related (a :: p) (b :: q) ↔ a = b ∧ Related p q := by
  unfold Related
  rw [List.cons_prefix_cons, List.cons_prefix_cons]
  constructor
  · rintro (⟨rfl, h⟩ | ⟨rfl, h⟩)
    · exact ⟨rfl, .inl h⟩
    · exact ⟨rfl, .inr h⟩
  · rintro ⟨rfl, h | h⟩
    · exact .inl ⟨rfl, h⟩
    · exact .inr ⟨rfl, h⟩

/-- The paths related to `p` lead through its end, or end before it. -/
theorem cases (h : Related p q) :
    (∃ r, q = p ++ r) ∨ ∃ name rest, p = q ++ name :: rest := by
  rcases h with ⟨r, rfl⟩ | ⟨r, rfl⟩
  · exact .inl ⟨r, rfl⟩
  · cases r with
    | nil => exact .inl ⟨[], by simp⟩
    | cons name rest => exact .inr ⟨name, rest, rfl⟩

/-- A path that is not above the end of `p ++ [a]` but related to `p` leaves `p` at its end, by
another step than `a`. -/
theorem of_not_concat (h : Related p q) (hn : ¬ Related (p ++ [a]) q) :
    ∃ b r, q = p ++ b :: r ∧ b ≠ a := by
  rcases h with ⟨r, rfl⟩ | h
  · cases r with
    | nil => exact absurd (.inr ⟨[a], by simp⟩) hn
    | cons b r =>
      refine ⟨b, r, rfl, fun hb => hn (.inl ⟨r, ?_⟩)⟩
      rw [hb, List.append_assoc]
      rfl
  · exact absurd (.inr (h.trans (List.prefix_append p [a]))) hn

end Related

namespace Node

variable {node part child : Node} {path rest : List String} {name : String} {n : Nat}
  {held : Leaf} {cs : List (String × Node)}

/-! ## Children -/

/-- The children of a node; a leaf has none. -/
def children : Node → List (String × Node)
  | leaf .. => []
  | container _ children => children

@[simp] theorem children_leaf : (leaf n held).children = [] := rfl
@[simp] theorem children_container : (container n cs).children = cs := rfl

/-! ## The node at the end of a path -/

/-- A walk arrives at the node that is seen at the end of its path. -/
theorem find_eq_ok_iff : node.find path = .ok part ↔ node.get? path = some part := by
  unfold get?
  cases node.find path <;> simp [Except.toOption]

@[simp] theorem get?_nil : node.get? [] = some node := rfl

/-- The first step of a path goes to a child. -/
theorem get?_cons : node.get? (name :: path) = (node.children.lookup name).bind (get? path) := by
  cases node with
  | leaf => rfl
  | container n cs =>
    simp only [get?, find, children_container]
    cases cs.lookup name with
    | none => rfl
    | some child =>
      show ((child.find path).mapError _).toOption = (child.find path).toOption
      cases child.find path <;> rfl

/-- A single step goes to a child. -/
theorem get?_singleton : node.get? [name] = node.children.lookup name := by
  rw [get?_cons]
  cases node.children.lookup name <;> rfl

/-- Following two paths one after the other. -/
theorem get?_append : node.get? (path ++ rest) = (node.get? path).bind (get? rest) := by
  induction path generalizing node with
  | nil => rfl
  | cons name path ih =>
    rw [List.cons_append, get?_cons, get?_cons]
    cases node.children.lookup name with
    | none => rfl
    | some child => exact ih

/-- The children of the node at the end of a path; where no node is, there are none. -/
def childrenAt (path : List String) (node : Node) : List (String × Node) :=
  (node.get? path).elim [] children

@[simp] theorem childrenAt_nil : node.childrenAt [] = node.children := rfl

/-- A missing child has as many children below it as an empty container. -/
theorem childrenAt_cons :
    node.childrenAt (name :: path) =
      ((node.children.lookup name).getD (empty n)).childrenAt path := by
  unfold childrenAt
  rw [get?_cons]
  cases node.children.lookup name with
  | some child => rfl
  | none =>
    cases path with
    | nil => rfl
    | cons => rw [Option.getD_none, get?_cons]; rfl

/-- A step that goes on from the end of a path goes to a child there. -/
theorem get?_append_cons :
    node.get? (path ++ name :: rest) = ((node.childrenAt path).lookup name).bind (get? rest) := by
  rw [get?_append, childrenAt]
  cases node.get? path with
  | none => rfl
  | some part => exact get?_cons

/-- A node that is seen has its children where it is. -/
theorem childrenAt_of_get? (h : node.get? path = some part) :
    node.childrenAt path = part.children := by
  rw [childrenAt, h]; rfl

/-- A child at the end of a path is one of a container there. -/
theorem get?_of_lookup_childrenAt (h : (node.childrenAt path).lookup name = some child) :
    ∃ revision, node.get? path = some (container revision (node.childrenAt path)) := by
  unfold childrenAt at h ⊢
  cases hpart : node.get? path with
  | none => rw [hpart] at h; cases h
  | some part =>
    rw [hpart] at h
    cases part with
    | leaf => cases h
    | container revision cs => exact ⟨revision, rfl⟩

/-! ## The walk of a write -/

/-- The walk of a write that meets no leaf knows the revision of what it found, if it found
anything. -/
theorem probe_eq_ok {current : Option Nat} (h : node.probe path = .ok current) :
    current = (node.get? path).map revision := by
  induction path generalizing node with
  | nil =>
    cases node <;> exact (Except.ok.inj h).symm
  | cons name path ih =>
    cases node with
    | leaf => cases h
    | container n cs =>
      rw [get?_cons, children_container]
      simp only [probe] at h
      cases hl : cs.lookup name with
      | none =>
        rw [hl] at h
        exact (Except.ok.inj h).symm
      | some child =>
        rw [hl] at h
        exact ih (mapError_eq_ok_iff.1 h)

end Node

end Switchboard
