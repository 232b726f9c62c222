import Switchboard.Proofs.Tree.Writes
import Switchboard.Proofs.Address
/-!
# The names in a tree

A tree is well formed if every container in it holds its children in the order of their names, each
name once, and every name can be named by a concrete address. A write at an address that names one
node keeps a tree well formed (`Written.wellFormed`). In a well-formed tree the path to a node is
the path of a well-formed address, so that the address is read back from its text.
-/

namespace Switchboard.Node

variable {n : Nat} {p q : List String} {left : Option Node} {node part old new : Node}
  {name scheme : String}

/-- A name that can be addressed is not empty and holds no slash. -/
theorem isAddressable_iff :
    isAddressable name = true ↔ name.toList ≠ [] ∧ '/' ∉ name.toList ∧ name ≠ Address.wildcard := by
  simp [isAddressable, and_assoc]

/-- Every container below the node holds its children in order, under names that an address can
name. -/
def WellFormed (node : Node) : Prop :=
  ∀ q part, node.get? q = some part → Keyed.Ascending part.children ∧
    ∀ k ∈ part.children.map Prod.fst, isAddressable k = true

/-- An empty container is well formed. -/
theorem wellFormed_empty : (empty n).WellFormed := by
  intro q part hpart
  cases q with
  | nil =>
    cases hpart
    exact ⟨.nil, nofun⟩
  | cons => cases hpart

namespace WellFormed

/-- The nodes in a well-formed tree are well formed. -/
theorem of_get? (h : node.WellFormed) (hpart : node.get? q = some part) : part.WellFormed :=
  fun r below hbelow => h (q ++ r) below (by rw [get?_append, hpart]; exact hbelow)

/-- The children at the end of a path are in order, under names that an address can name. -/
theorem childrenAt (h : node.WellFormed) (q : List String) :
    Keyed.Ascending (node.childrenAt q) ∧
      ∀ k ∈ (node.childrenAt q).map Prod.fst, isAddressable k = true := by
  cases hq : node.get? q with
  | none =>
    rw [Node.childrenAt, hq]
    exact ⟨.nil, fun _ hk => absurd hk List.not_mem_nil⟩
  | some part =>
    rw [childrenAt_of_get? hq]
    exact h q part hq

/-- The names on the way to a node can be named by an address. -/
theorem isAddressable_of_mem (h : node.WellFormed) (hpart : node.get? q = some part) :
    ∀ k ∈ q, isAddressable k = true := by
  induction q generalizing node with
  | nil => exact nofun
  | cons name q ih =>
    rw [get?_cons] at hpart
    obtain ⟨child, hchild, hpart⟩ := Option.bind_eq_some_iff.1 hpart
    have hstep : node.get? [name] = some child := get?_singleton.trans hchild
    intro k hk
    rcases List.mem_cons.1 hk with rfl | hk
    · exact (h [] node get?_nil).2 k (Keyed.mem_keys_iff.2 ⟨child, hchild⟩)
    · exact ih (h.of_get? hstep) hpart k hk

/-- The address of a node is read back from its text. -/
theorem parse_text (h : node.WellFormed) (hpart : node.get? q = some part)
    (hne : scheme.toList ≠ []) (hslash : '/' ∉ scheme.toList) :
    Address.parse (Address.mk scheme q).text = .ok ⟨scheme, q⟩ :=
  Address.parse_text {
    scheme_ne := hne
    scheme_slash := hslash
    segment_ne := fun k hk => (isAddressable_iff.1 (h.isAddressable_of_mem hpart k hk)).1
    segment_slash := fun k hk => (isAddressable_iff.1 (h.isAddressable_of_mem hpart k hk)).2.1 }

/-- Nodes have the same address only if they are on the same path, be it in two trees. -/
theorem path_eq_of_text_eq {other : Node} {q' : List String} {part' : Node} (h : node.WellFormed)
    (h' : other.WellFormed) (hpart : node.get? q = some part) (hpart' : other.get? q' = some part')
    (hne : scheme.toList ≠ []) (hslash : '/' ∉ scheme.toList)
    (htext : (Address.mk scheme q).text = (Address.mk scheme q').text) : q = q' := by
  have hparse := h.parse_text hpart hne hslash
  rw [htext, h'.parse_text hpart' hne hslash] at hparse
  exact (Address.mk.inj (Except.ok.inj hparse)).2.symm

end WellFormed

/-- A write whose target can be named by an address keeps a tree well formed. -/
theorem Written.wellFormed (h : Written n p left old new) (hold : old.WellFormed)
    (hp : ∀ k ∈ p, isAddressable k = true) : new.WellFormed := by
  intro q part hpart
  by_cases hr : Related p q
  · rcases hr.cases with ⟨r, rfl⟩ | ⟨name, rest, hq⟩
    · obtain ⟨w, hw⟩ := h.made_below hpart
      exact hw.children_wellFormed
    · obtain ⟨cs, hnew, hasc, hcs⟩ := h.above q name rest hq
      rw [hpart] at hnew
      cases hnew
      obtain ⟨hsorted, hnames⟩ := hold.childrenAt q
      refine ⟨hasc hsorted, fun k hk => ?_⟩
      by_cases hname : k = name
      · exact hp k (by rw [hq, hname]; simp)
      · refine hnames k ?_
        rw [Keyed.mem_keys_iff] at hk ⊢
        rwa [← hcs k hname]
  · exact hold q part (h.beside q hr ▸ hpart)

end Switchboard.Node
